import GalayTracing.Export.OtlpDocument
import GalayTracing.Foundation.Json.Scanner

/-!
# Whether the body of an OTLP request is a document

The only parts of the body that can break the grammar are the numbers written for the doubles
(`every_bodyJson`).  A finite double is written as a JSON number.  A double that is not finite is
written as `nan` or `inf`, with or without a sign, which stops the scanner; so the body is a
document with one element for each span if and only if all doubles are finite.
-/

namespace GalayTracing

open Json

namespace OtlpHttpExporter

/-- What `std::to_chars` writes for a `double`: a number for a finite value, and a word for the
other values; the number fits in the buffer. -/
structure WritesDoubles (toChars : Double → ByteString) : Prop where
  finite : ∀ d : Double, d.isFinite = true → IsNumber (toChars d) ∧ (toChars d).length ≤ 32
  nan : ∀ d : Double, d.isNaN = true → toChars d = ascii "nan" ∨ toChars d = ascii "-nan"
  inf : ∀ d : Double, d.isInf = true → toChars d = ascii "inf" ∨ toChars d = ascii "-inf"

/-- Every double in the attributes has a property. -/
def EveryDouble (q : Double → Prop) (attributes : List SpanAttribute) : Prop :=
  ∀ attr ∈ attributes, ∀ d, attr.value = .double d → q d

/-- All doubles in the attributes of a batch are finite. -/
def DoublesFinite (spans : List Span) (config : OtlpHttpExporterConfig) : Prop :=
  EveryDouble (·.isFinite = true) config.resourceAttributes ∧
    ∀ span ∈ spans, EveryDouble (·.isFinite = true) span.attributes

/-- The elements of `resourceSpans[0].scopeSpans[0].spans`. -/
def spansOf (v : Json) : Option (List Json) := do
  let resourceSpans ← (← v.member (ascii "resourceSpans")).asArray
  let scopeSpans ← (← (← resourceSpans[0]?).member (ascii "scopeSpans")).asArray
  (← (← scopeSpans[0]?).member (ascii "spans")).asArray

/-- The element is that of the span: it has its identifiers and its name. -/
def IsElementOf (span : Span) (element : Json) : Prop :=
  (element.member (ascii "traceId")).bind asString = some span.spanContext.traceId.toHex ∧
    (element.member (ascii "spanId")).bind asString = some span.spanContext.spanId.toHex ∧
    (element.member (ascii "name")).bind asString = some span.name

/-- The body is one JSON document, and its array of spans has one element for each of the spans, in
their order. -/
def HoldsSpans (body : ByteString) (spans : List Span) : Prop :=
  ∃ v elements, Document body v ∧ spansOf v = some elements ∧
    List.Forall₂ IsElementOf spans elements

section Leaves

variable {p : Leaf → Prop} (hp : ∀ c : JsonChar, c.Valid → p (.char c))

include hp

/-- A string has valid characters only. -/
lemma every_stringJson (value : ByteString) : (stringJson value).Every p := by
  rw [stringJson, every_string]
  intro c hc
  obtain ⟨b, -, rfl⟩ := List.mem_map.mp hc
  exact hp _ (valid_escapeChar b)

/-- The digits of an identifier are valid characters. -/
lemma every_hex {n : ℕ} (id : Identifier n) : (plainJson id.toHex).Every p := by
  rw [Identifier.toHex_eq]
  exact every_encode hp _

/-- The digits of an integer are valid characters. -/
lemma every_integer (n : ℤ) : (plainJson (Decimal.ofInt n)).Every p := by
  have hall : ∀ b ∈ ascii "-0123456789", (JsonChar.byte b).Valid := by decide
  exact every_plainJson hp fun b hb => hall b (Decimal.mem_ofInt hb)

/-- A member for a string has valid characters only. -/
lemma every_stringMembers {name : ByteString} (hname : ∀ b ∈ name, (JsonChar.byte b).Valid)
    (value : ByteString) : (Json.object (stringMembers name value)).Every p := by
  rw [stringMembers]
  split_ifs
  · exact every_object_nil
  · rw [every_field_cons hp hname]
    exact ⟨every_stringJson hp value, every_object_nil⟩

/-- The instrumentation scope has valid characters only. -/
lemma every_scopeJson (scope : InstrumentationScopeConfig) : (scopeJson scope).Every p := by
  rw [scopeJson, every_field_cons hp (by decide)]
  exact ⟨every_stringJson hp _, every_stringMembers hp (by decide) _⟩

/-- The member for the parent has valid characters only. -/
lemma every_parentMembers (parentSpanId : Option SpanId) :
    (Json.object (parentMembers parentSpanId)).Every p := by
  cases parentSpanId with
  | none => exact every_object_nil
  | some id =>
    rw [parentMembers, Option.toList_some, List.map_singleton, every_field_cons hp (by decide)]
    exact ⟨every_hex hp id, every_object_nil⟩

/-- The member for the status has valid characters only. -/
lemma every_statusMembers (status : SpanStatus) :
    (Json.object (statusMembers status)).Every p := by
  have hcode : ∀ code, ∀ b ∈ otlpStatusCodeName code, (JsonChar.byte b).Valid := by
    rintro (_ | _ | _)
    · decide
    · decide
    · decide
  rw [statusMembers]
  split_ifs
  · exact every_object_nil
  · rw [every_field_cons hp (by decide), statusJson, every_field_cons hp (by decide)]
    exact ⟨⟨every_plainJson hp (hcode _), every_stringMembers hp (by decide) _⟩, every_object_nil⟩

section Doubles

variable (toChars : Double → ByteString)

/-- The number written for a double has a property. -/
def NumberSatisfies (p : Leaf → Prop) (d : Double) : Prop :=
  p (.number (appendNumber [] (toChars d)))

/-- The restricted parts of an attribute value are valid characters, and the number of a double. -/
lemma every_attributeValueJson (value : SpanAttributeValue) :
    (attributeValueJson toChars value).Every p ↔
      ∀ d, value = .double d → NumberSatisfies toChars p d := by
  cases value with
  | int64 value =>
    rw [attributeValueJson, every_field_cons hp (by decide)]
    simp [every_integer hp]
  | uint64 value =>
    rw [attributeValueJson, every_field_cons hp (by decide)]
    simp [every_integer hp]
  | double value =>
    rw [attributeValueJson, every_field_cons hp (by decide)]
    simp [NumberSatisfies]
  | bool value =>
    rw [attributeValueJson, every_field_cons hp (by decide)]
    simp
  | string value =>
    rw [attributeValueJson, every_field_cons hp (by decide)]
    simp [every_stringJson hp]

/-- The restricted parts of some attributes are valid characters, and the numbers of the doubles. -/
lemma every_attributesJson (attributes : List SpanAttribute) :
    (attributesJson toChars attributes).Every p ↔
      EveryDouble (NumberSatisfies toChars p) attributes := by
  rw [attributesJson, every_array, List.forall_mem_map]
  apply forall₂_congr
  intro attr _
  rw [attributeJson, every_field_cons hp (by decide), every_field_cons hp (by decide),
    every_attributeValueJson hp]
  simp [every_stringJson hp]

/-- The same for the resource attributes. -/
lemma every_resourceMembers (attributes : List SpanAttribute) :
    (Json.object (resourceMembers toChars attributes)).Every p ↔
      EveryDouble (NumberSatisfies toChars p) attributes := by
  cases attributes with
  | nil => simp [resourceMembers, EveryDouble]
  | cons attr attributes =>
    rw [resourceMembers, if_neg (by simp), every_field_cons hp (by decide),
      every_field_cons hp (by decide), every_attributesJson hp]
    simp

/-- The same for the attributes of a span. -/
lemma every_attributesMembers (attributes : List SpanAttribute) :
    (Json.object (attributesMembers toChars attributes)).Every p ↔
      EveryDouble (NumberSatisfies toChars p) attributes := by
  cases attributes with
  | nil => simp [attributesMembers, EveryDouble]
  | cons attr attributes =>
    rw [attributesMembers, if_neg (by simp), every_field_cons hp (by decide),
      every_attributesJson hp]
    simp

/-- The same for a span. -/
lemma every_spanJson (span : Span) : (spanJson toChars span).Every p ↔
    EveryDouble (NumberSatisfies toChars p) span.attributes := by
  have hkind : ∀ kind, ∀ b ∈ otlpSpanKindName kind, (JsonChar.byte b).Valid := by
    rintro (_ | _ | _ | _ | _)
    · decide
    · decide
    · decide
    · decide
    · decide
  rw [spanJson, every_field_cons hp (by decide), List.cons_append, List.cons_append,
    List.cons_append, List.nil_append, every_field_cons hp (by decide),
    every_field_cons hp (by decide), every_field_cons hp (by decide), every_object_append,
    every_object_append, every_object_append, every_attributesMembers hp]
  have htracestate := every_stringMembers hp
    (by decide : ∀ b ∈ ascii "traceState", (JsonChar.byte b).Valid) span.tracestate
  simp [every_hex hp, every_stringJson hp, every_plainJson hp (hkind span.kind),
    every_parentMembers hp, htracestate, every_statusMembers hp]

/-- The restricted parts of the body are valid characters, and the numbers of the doubles. -/
theorem every_bodyJson (spans : List Span) (config : OtlpHttpExporterConfig) :
    (bodyJson toChars spans config).Every p ↔
      EveryDouble (NumberSatisfies toChars p) config.resourceAttributes ∧
        ∀ span ∈ spans, EveryDouble (NumberSatisfies toChars p) span.attributes := by
  have hspans : (Json.array (spans.map (spanJson toChars))).Every p ↔
      ∀ span ∈ spans, EveryDouble (NumberSatisfies toChars p) span.attributes := by
    rw [every_array, List.forall_mem_map]
    exact forall₂_congr fun span _ => every_spanJson hp toChars span
  rw [bodyJson, every_field_cons hp (by decide), every_array, List.forall_mem_singleton,
    every_object_append, every_resourceMembers hp, every_field_cons hp (by decide), every_array,
    List.forall_mem_singleton, every_field_cons hp (by decide), every_field_cons hp (by decide),
    hspans]
  simp [every_scopeJson hp]

end Doubles

end Leaves

section Doubles

variable {toChars : Double → ByteString} (hw : WritesDoubles toChars)

include hw

/-- The number of a finite double is a number. -/
lemma WritesDoubles.valid {d : Double} (hd : d.isFinite = true) :
    NumberSatisfies toChars Leaf.Valid d := by
  obtain ⟨hnumber, hlength⟩ := hw.finite d hd
  rw [NumberSatisfies, appendNumber, if_pos hlength, List.nil_append]
  exact hnumber

/-- The word for a double that is not finite stops the scanner. -/
lemma WritesDoubles.scan_eq_none {d : Double} (hd : d.isFinite = false) :
    scan .outside (appendNumber [] (toChars d)) = none := by
  rcases Double.isNaN_or_isInf hd with hnan | hinf
  · rcases hw.nan d hnan with hword | hword
    · rw [hword]
      decide
    · rw [hword]
      decide
  · rcases hw.inf d hinf with hword | hword
    · rw [hword]
      decide
    · rw [hword]
      decide

/-- The scanner stays at the number of a double or stops in it. -/
lemma WritesDoubles.neutral (d : Double) : NumberSatisfies toChars Leaf.Neutral d := by
  by_cases hd : d.isFinite = true
  · right
    exact stays_leaf (hw.valid hd)
  · left
    exact hw.scan_eq_none (eq_false_of_ne_true hd)

/-- The scanner stays only at the number of a finite double. -/
lemma WritesDoubles.isFinite_of_stays {d : Double} (hd : NumberSatisfies toChars Leaf.Stays d) :
    d.isFinite = true := by
  by_contra hfinite
  have hnone := hw.scan_eq_none (eq_false_of_ne_true hfinite)
  have hstays : scan .outside (appendNumber [] (toChars d)) = some .outside := hd
  rw [hnone] at hstays
  cases hstays

end Doubles

section Elements

variable (toChars : Double → ByteString)

/-- The resource has another name than the scope spans. -/
lemma member_resourceMembers (attributes : List SpanAttribute) :
    (Json.object (resourceMembers toChars attributes)).member (ascii "scopeSpans") = none := by
  rw [resourceMembers]
  split_ifs
  · exact member_nil _
  · rw [member_field_cons, if_neg (by decide), member_nil]

/-- The elements of the array of spans are those of the spans. -/
lemma spansOf_bodyJson (spans : List Span) (config : OtlpHttpExporterConfig) :
    spansOf (bodyJson toChars spans config) = some (spans.map (spanJson toChars)) := by
  simp +decide [spansOf, bodyJson, member_field_cons, member_append, asArray,
    member_resourceMembers]

/-- The value of a span is an element of that span. -/
lemma isElementOf_spanJson (span : Span) : IsElementOf span (spanJson toChars span) := by
  simp +decide [IsElementOf, spanJson, member_field_cons]

end Elements

/-- A body whose doubles are finite is a document with one element for each span. -/
lemma holdsSpans_of_doublesFinite {toChars : Double → ByteString} (hw : WritesDoubles toChars)
    {spans : List Span} {config : OtlpHttpExporterConfig} (hfinite : DoublesFinite spans config) :
    HoldsSpans (buildOtlpJsonBody toChars spans config) spans := by
  obtain ⟨hresource, hspans⟩ := hfinite
  have hvalid : (bodyJson toChars spans config).Valid := by
    have hchar : ∀ c : JsonChar, c.Valid → (Leaf.char c).Valid := fun c hc => hc
    apply (every_bodyJson hchar toChars spans config).mpr
    constructor
    · intro attr hattr d hd
      exact hw.valid (hresource attr hattr d hd)
    · intro span hspan attr hattr d hd
      exact hw.valid (hspans span hspan attr hattr d hd)
  rw [buildOtlpJsonBody_eq]
  refine ⟨_, _, hvalid.document_render, spansOf_bodyJson toChars spans config, ?_⟩
  rw [List.forall₂_map_right_iff, List.forall₂_same]
  intro span _
  exact isElementOf_spanJson toChars span

/-- A body that is a document has finite doubles only. -/
lemma doublesFinite_of_document {toChars : Double → ByteString} (hw : WritesDoubles toChars)
    {spans : List Span} {config : OtlpHttpExporterConfig} {v : Json}
    (hd : Document (buildOtlpJsonBody toChars spans config) v) : DoublesFinite spans config := by
  rw [buildOtlpJsonBody_eq] at hd
  have hchar : ∀ c : JsonChar, c.Valid → (Leaf.char c).Stays := fun c hc => stays_render hc
  have hneutral : (bodyJson toChars spans config).Every Leaf.Neutral := by
    have hchar' : ∀ c : JsonChar, c.Valid → (Leaf.char c).Neutral := fun c hc => Or.inr (hchar c hc)
    apply (every_bodyJson hchar' toChars spans config).mpr
    constructor
    · intro attr _ d _
      exact hw.neutral d
    · intro span _ attr _ d _
      exact hw.neutral d
  have hstays := (every_bodyJson hchar toChars spans config).mp (hneutral.stays hd)
  constructor
  · intro attr hattr d hdouble
    exact hw.isFinite_of_stays (hstays.1 attr hattr d hdouble)
  · intro span hspan attr hattr d hdouble
    exact hw.isFinite_of_stays (hstays.2 span hspan attr hattr d hdouble)

/-- The body is one document, with one element for each span in their order, if and only if all
doubles in the attributes are finite. -/
theorem buildOtlpJsonBody_holdsSpans_iff (toChars : Double → ByteString)
    (hw : WritesDoubles toChars) (spans : List Span) (config : OtlpHttpExporterConfig) :
    HoldsSpans (buildOtlpJsonBody toChars spans config) spans ↔ DoublesFinite spans config := by
  constructor
  · rintro ⟨v, elements, hd, -⟩
    exact doublesFinite_of_document hw hd
  · exact holdsSpans_of_doublesFinite hw

/-- The characters of the doubles 0 and 1.5, and of those that are not finite. -/
def sampleToChars (d : Double) : ByteString :=
  if d.isFinite then if d = ⟨0x3ff8000000000000⟩ then ascii "1.5" else ascii "0"
  else
    (if d.bits >>> 63 = 1 then ascii "-" else []) ++ if d.isNaN then ascii "nan" else ascii "inf"

/-- The sample behaves as `std::to_chars` does, for all doubles. -/
lemma writesDoubles_sampleToChars : WritesDoubles sampleToChars := by
  constructor
  · intro d hd
    rw [sampleToChars, if_pos hd]
    split_ifs
    · decide +kernel
    · decide +kernel
  · intro d hd
    have hfinite : d.isFinite = false := by
      obtain ⟨hexponent, -⟩ := Bool.and_eq_true_iff.mp hd
      simp [Double.isFinite, beq_iff_eq.mp hexponent]
    simp only [sampleToChars, hfinite, hd]
    by_cases hsign : d.bits >>> 63 = 1
    · simp [hsign, ascii]
    · simp [hsign]
  · intro d hd
    obtain ⟨hexponent, hmantissa⟩ := Bool.and_eq_true_iff.mp hd
    have hfinite : d.isFinite = false := by simp [Double.isFinite, beq_iff_eq.mp hexponent]
    have hnan : d.isNaN = false := by simp [Double.isNaN, beq_iff_eq.mp hmantissa]
    simp only [sampleToChars, hfinite, hnan]
    by_cases hsign : d.bits >>> 63 = 1
    · simp [hsign, ascii]
    · simp [hsign]

/-- A span with the attribute 1.5. -/
theorem finiteDouble_holdsSpans :
    HoldsSpans (buildOtlpJsonBody sampleToChars
      [{ name := ascii "a", attributes := [⟨ascii "x", .double ⟨0x3ff8000000000000⟩⟩] }] {})
      [{ name := ascii "a", attributes := [⟨ascii "x", .double ⟨0x3ff8000000000000⟩⟩] }] := by
  apply (buildOtlpJsonBody_holdsSpans_iff sampleToChars writesDoubles_sampleToChars _ _).mpr
  constructor
  · simp [EveryDouble]
  · simp [EveryDouble]
    decide

/-- A span with an attribute that is not a number: the body is no document. -/
theorem nanAttribute_not_holdsSpans :
    ¬HoldsSpans (buildOtlpJsonBody sampleToChars
      [{ name := ascii "a", attributes := [⟨ascii "x", .double ⟨0x7ff8000000000000⟩⟩] }] {})
      [{ name := ascii "a", attributes := [⟨ascii "x", .double ⟨0x7ff8000000000000⟩⟩] }] := by
  rintro ⟨v, elements, hd, -⟩
  have hfinite := (doublesFinite_of_document writesDoubles_sampleToChars hd).2 _
    List.mem_cons_self _ List.mem_cons_self ⟨0x7ff8000000000000⟩ (by decide)
  revert hfinite
  decide

end OtlpHttpExporter

end GalayTracing
