import GalayTracing.Export.OtlpJson
import GalayTracing.Foundation.Json.Reading

/-!
# The document in the body of an OTLP request

The JSON value of a batch of spans, and the proof that the functions that append to the body write
its text (`buildOtlpJsonBody_eq`).  The value is defined for every batch; whether it is valid
depends on the numbers in it.
-/

namespace GalayTracing

open Json

namespace OtlpHttpExporter

/-- The character written for a byte of a string. -/
def escapeChar (b : UInt8) : JsonChar :=
  if b = 0x22 ∨ b = 0x5c then .escape b
  else if b = 0x0a then .escape 0x6e
  else if b = 0x0d then .escape 0x72
  else if b = 0x09 then .escape 0x74
  else if b < 0x20 then
    .unicode 0x30 0x30 (Hex.digit (b.toNat / 16)) (Hex.digit (b.toNat % 16))
  else .byte b

/-- The value of a string. -/
def stringJson (value : ByteString) : Json := .string (value.map escapeChar)

section Document

variable (toChars : Double → ByteString)

/-- The value of an attribute value. -/
def attributeValueJson : SpanAttributeValue → Json
  | .int64 value => .object [field (ascii "intValue") (plainJson (Decimal.ofInt value.toInt))]
  | .uint64 value => .object [field (ascii "intValue") (plainJson (Decimal.ofInt value.toNat))]
  | .double value =>
    .object [field (ascii "doubleValue") (.number (appendNumber [] (toChars value)))]
  | .bool value => .object [field (ascii "boolValue") (.bool value)]
  | .string value => .object [field (ascii "stringValue") (stringJson value)]

/-- The value of an attribute. -/
def attributeJson (attr : SpanAttribute) : Json :=
  .object [field (ascii "key") (stringJson attr.name),
    field (ascii "value") (attributeValueJson toChars attr.value)]

/-- The value of a list of attributes. -/
def attributesJson (attributes : List SpanAttribute) : Json :=
  .array (attributes.map (attributeJson toChars))

/-- The member for the resource attributes, if there are any. -/
def resourceMembers (attributes : List SpanAttribute) : List (List JsonChar × Json) :=
  if attributes.isEmpty then []
  else
    [field (ascii "resource")
      (.object [field (ascii "attributes") (attributesJson toChars attributes)])]

/-- A member for a string that is not empty. -/
def stringMembers (name value : ByteString) : List (List JsonChar × Json) :=
  if value.isEmpty then [] else [field name (stringJson value)]

/-- The value of the instrumentation scope. -/
def scopeJson (scope : InstrumentationScopeConfig) : Json :=
  .object (field (ascii "name") (stringJson scope.name) ::
    stringMembers (ascii "version") scope.version)

/-- The member for the parent, if there is one. -/
def parentMembers (parentSpanId : Option SpanId) : List (List JsonChar × Json) :=
  parentSpanId.toList.map fun id => field (ascii "parentSpanId") (plainJson id.toHex)

/-- The member for the attributes of a span, if there are any. -/
def attributesMembers (attributes : List SpanAttribute) : List (List JsonChar × Json) :=
  if attributes.isEmpty then []
  else [field (ascii "attributes") (attributesJson toChars attributes)]

/-- The value of a status. -/
def statusJson (status : SpanStatus) : Json :=
  .object (field (ascii "code") (plainJson (otlpStatusCodeName status.code)) ::
    stringMembers (ascii "message") status.message)

/-- The member for the status, unless it is the default one. -/
def statusMembers (status : SpanStatus) : List (List JsonChar × Json) :=
  if status.code = .kUnset ∧ status.message.isEmpty then []
  else [field (ascii "status") (statusJson status)]

/-- The value of a span. -/
def spanJson (span : Span) : Json :=
  .object (field (ascii "traceId") (plainJson span.spanContext.traceId.toHex) ::
    ([field (ascii "spanId") (plainJson span.spanContext.spanId.toHex),
      field (ascii "name") (stringJson span.name),
      field (ascii "kind") (plainJson (otlpSpanKindName span.kind))] ++
    (parentMembers span.spanContext.parentSpanId ++
    (stringMembers (ascii "traceState") span.tracestate ++
    (attributesMembers toChars span.attributes ++ statusMembers span.status)))))

/-- The value of a batch of spans. -/
def bodyJson (spans : List Span) (config : OtlpHttpExporterConfig) : Json :=
  .object [field (ascii "resourceSpans") (.array [.object
    (resourceMembers toChars config.resourceAttributes ++
      [field (ascii "scopeSpans") (.array [.object
        [field (ascii "scope") (scopeJson config.scope),
          field (ascii "spans") (.array (spans.map (spanJson toChars)))]])])])]

end Document

/-! ### The functions write the text of the value -/

/-- One step of the loop of `appendJsonString` writes a character. -/
lemma appendJsonChar_eq (out : ByteString) (b : UInt8) :
    appendJsonChar out b = out ++ (escapeChar b).render := by
  have hrender : ∀ b, appendJsonChar [] b = (escapeChar b).render := forall_byte (by decide +kernel)
  rw [← hrender b]
  unfold appendJsonChar
  split_ifs <;> simp

/-- `appendJsonString` writes a string. -/
lemma appendJsonString_eq (out value : ByteString) :
    appendJsonString out value = out ++ render (stringJson value) := by
  have hloop := JsonChar.foldl_append_render appendJsonChar_eq
  simp [appendJsonString, hloop, stringJson, render, stringText, ascii]

/-- `appendNumber` appends the characters that fit in the buffer. -/
lemma appendNumber_eq (out chars : ByteString) :
    appendNumber out chars = out ++ appendNumber [] chars := by
  unfold appendNumber
  split_ifs
  · simp
  · simp

/-- An integer of 64 bits fits in the buffer. -/
lemma appendNumber_ofInt (out : ByteString) {n : ℤ} (hn : n.natAbs < 10 ^ 20) :
    appendNumber out (Decimal.ofInt n) = out ++ Decimal.ofInt n := by
  have hlength := Decimal.length_ofInt_le (by decide) hn
  rw [appendNumber, if_pos (by omega)]

/-- `appendAttributeValue` writes an attribute value. -/
lemma appendAttributeValue_eq (toChars : Double → ByteString) (out : ByteString)
    (value : SpanAttributeValue) :
    appendAttributeValue toChars out value = out ++ render (attributeValueJson toChars value) := by
  cases value with
  | int64 value =>
    have hbound : value.toInt.natAbs < 10 ^ 20 := by
      have hlt := value.toInt_lt
      have hge := value.le_toInt
      omega
    simp only [appendAttributeValue, appendNumber_ofInt _ hbound, attributeValueJson,
      render_object_cons, renderMember_field, render_plainJson]
    simp [ascii]
  | uint64 value =>
    have hbound : (value.toNat : ℤ).natAbs < 10 ^ 20 := by
      have hlt := value.toNat_lt
      omega
    simp only [appendAttributeValue, appendNumber_ofInt _ hbound, attributeValueJson,
      render_object_cons, renderMember_field, render_plainJson]
    simp [ascii]
  | double value =>
    simp only [appendAttributeValue, appendNumber_eq (out ++ _), attributeValueJson,
      render_object_cons, renderMember_field, render]
    simp [ascii]
  | bool value =>
    simp only [appendAttributeValue, attributeValueJson, render_object_cons, renderMember_field,
      render]
    by_cases hvalue : value = true
    · simp [hvalue, ascii]
    · simp [hvalue, ascii]
  | string value =>
    simp only [appendAttributeValue, appendJsonString_eq, attributeValueJson, render_object_cons,
      renderMember_field]
    simp [ascii]

section Arrays

variable (toChars : Double → ByteString)

/-- One step of the loop of `appendAttributeArray` writes an attribute, after a comma if it is not
the first one. -/
lemma appendAttributeLoop_cons (out : ByteString) (i : ℕ) (attr : SpanAttribute)
    (attributes : List SpanAttribute) :
    appendAttributeLoop toChars out i (attr :: attributes) =
      appendAttributeLoop toChars
        ((if i ≠ 0 then out ++ [0x2c] else out) ++ render (attributeJson toChars attr)) (i + 1)
        attributes := by
  rw [appendAttributeLoop]
  simp only [appendJsonString_eq, appendAttributeValue_eq, attributeJson, render_object_cons,
    List.flatMap_singleton, renderMember_field]
  split_ifs
  · simp [ascii]
  · simp [ascii]

/-- The loop writes the attributes that are left. -/
lemma appendAttributeLoop_eq (out : ByteString) {i : ℕ} (hi : i ≠ 0)
    (attributes : List SpanAttribute) :
    appendAttributeLoop toChars out i attributes =
      out ++ (attributes.map (attributeJson toChars)).flatMap fun w => 0x2c :: render w := by
  induction attributes generalizing out i with
  | nil => simp [appendAttributeLoop]
  | cons attr attributes ih =>
    rw [appendAttributeLoop_cons, ih _ (Nat.succ_ne_zero i), if_pos hi]
    simp

/-- `appendAttributeArray` writes a list of attributes. -/
lemma appendAttributeArray_eq (out : ByteString) (attributes : List SpanAttribute) :
    appendAttributeArray toChars out attributes =
      out ++ render (attributesJson toChars attributes) := by
  cases attributes with
  | nil => simp [appendAttributeArray, appendAttributeLoop, attributesJson, render, renderElements,
      ascii]
  | cons attr attributes =>
    simp only [appendAttributeArray, appendAttributeLoop_cons,
      appendAttributeLoop_eq toChars _ (Nat.succ_ne_zero 0), attributesJson, List.map_cons, render,
      renderElements_cons]
    simp [ascii]

/-- `appendResource` writes the resource attributes and the comma behind them. -/
lemma appendResource_eq (out : ByteString) (attributes : List SpanAttribute) :
    appendResource toChars out attributes =
      out ++ (resourceMembers toChars attributes).flatMap fun m => renderMember m ++ [0x2c] := by
  unfold appendResource resourceMembers
  split_ifs
  · simp
  · simp only [appendAttributeArray_eq, List.flatMap_singleton, renderMember_field,
      render_object_cons]
    simp [ascii]

/-- A string that is not empty follows a comma. -/
lemma flatMap_stringMembers (name value : ByteString) :
    ((stringMembers name value).flatMap fun m => 0x2c :: renderMember m) =
      if value.isEmpty then []
      else 0x2c :: (0x22 :: name ++ [0x22] ++ 0x3a :: render (stringJson value)) := by
  unfold stringMembers
  split_ifs
  · simp
  · simp only [List.flatMap_singleton, renderMember_field]

/-- `appendScope` writes the instrumentation scope. -/
lemma appendScope_eq (out : ByteString) (scope : InstrumentationScopeConfig) :
    appendScope out scope = out ++ renderMember (field (ascii "scope") (scopeJson scope)) := by
  unfold appendScope scopeJson
  simp only [appendJsonString_eq, renderMember_field, render_object_cons, flatMap_stringMembers]
  by_cases hversion : scope.version.isEmpty = true
  · simp [hversion, ascii]
  · simp [hversion, ascii]

/-- `appendStatus` writes the status after a comma, unless it is the default one. -/
lemma appendStatus_eq (out : ByteString) (status : SpanStatus) :
    appendStatus out status =
      out ++ (statusMembers status).flatMap fun m => 0x2c :: renderMember m := by
  by_cases hdefault : status.code = .kUnset ∧ status.message.isEmpty = true
  · simp [appendStatus, statusMembers, hdefault]
  · simp only [appendStatus, statusMembers, statusJson, if_neg hdefault, appendJsonString_eq,
      List.flatMap_singleton, renderMember_field, render_object_cons, flatMap_stringMembers,
      render_plainJson]
    by_cases hmessage : status.message.isEmpty = true
    · simp [hmessage, ascii]
    · simp [hmessage, ascii]

/-- One step of the loop of `buildOtlpJsonBody` writes a span, after a comma if it is not the first
one. -/
lemma appendSpan_eq (body : ByteString) (i : ℕ) (span : Span) :
    appendSpan toChars body i span =
      (if i ≠ 0 then body ++ [0x2c] else body) ++ render (spanJson toChars span) := by
  have hcomma : (if i ≠ 0 then body ++ ascii "," else body) =
      if i ≠ 0 then body ++ [0x2c] else body := rfl
  have htracestate : ∀ body : ByteString,
      (if !span.tracestate.isEmpty then
        appendJsonString (body ++ ascii ",\"traceState\":") span.tracestate else body) =
        body ++ (stringMembers (ascii "traceState") span.tracestate).flatMap fun m =>
          0x2c :: renderMember m := by
    intro body
    rw [flatMap_stringMembers]
    by_cases hempty : span.tracestate.isEmpty = true
    · simp [hempty]
    · simp [hempty, appendJsonString_eq, ascii]
  have hattributes : ∀ body : ByteString,
      (if !span.attributes.isEmpty then appendAttributes toChars body span.attributes else body) =
        body ++ (attributesMembers toChars span.attributes).flatMap fun m =>
          0x2c :: renderMember m := by
    intro body
    unfold attributesMembers
    by_cases hempty : span.attributes.isEmpty = true
    · simp [hempty]
    · simp [hempty, appendAttributes, appendAttributeArray_eq, renderMember_field, ascii]
  simp only [appendSpan, hcomma, htracestate, hattributes, appendStatus_eq]
  simp only [appendJsonString_eq, appendHexId, Identifier.toHexArray, spanJson, render_object_cons,
    List.flatMap_append, List.flatMap_cons, List.flatMap_nil, renderMember_field, render_plainJson]
  cases span.spanContext.parentSpanId with
  | none => simp [parentMembers, ascii]
  | some id => simp [parentMembers, renderMember_field, render_plainJson, ascii]

/-- The loop writes the spans that are left. -/
lemma appendSpanLoop_eq (body : ByteString) {i : ℕ} (hi : i ≠ 0) (spans : List Span) :
    appendSpanLoop toChars body i spans =
      body ++ (spans.map (spanJson toChars)).flatMap fun w => 0x2c :: render w := by
  induction spans generalizing body i with
  | nil => simp [appendSpanLoop]
  | cons span spans ih =>
    rw [appendSpanLoop, ih _ (Nat.succ_ne_zero i), appendSpan_eq, if_pos hi]
    simp

/-- The loop writes the elements of an array. -/
lemma appendSpanLoop_zero (body : ByteString) (spans : List Span) :
    appendSpanLoop toChars body 0 spans =
      body ++ renderElements (spans.map (spanJson toChars)) := by
  cases spans with
  | nil => simp [appendSpanLoop, renderElements]
  | cons span spans =>
    rw [appendSpanLoop, appendSpanLoop_eq _ _ (Nat.succ_ne_zero 0), appendSpan_eq, List.map_cons,
      renderElements_cons]
    simp

/-- `buildOtlpJsonBody` writes the value of the batch. -/
theorem buildOtlpJsonBody_eq (spans : List Span) (config : OtlpHttpExporterConfig) :
    buildOtlpJsonBody toChars spans config = render (bodyJson toChars spans config) := by
  simp only [buildOtlpJsonBody, appendResource_eq, appendScope_eq, appendSpanLoop_zero, bodyJson]
  by_cases hresource : config.resourceAttributes.isEmpty = true
  · simp [resourceMembers, hresource, renderMembers_cons, renderMember_field, render,
      renderElements, ascii]
  · simp [resourceMembers, hresource, renderMembers_cons, renderMember_field, render,
      renderElements, ascii]

end Arrays

/-! ### The characters of the strings -/

/-- Every byte is written as a character that is allowed in a string. -/
lemma valid_escapeChar (b : UInt8) : (escapeChar b).Valid := by
  revert b
  apply forall_byte
  decide +kernel

/-- The character written for a byte stands for that byte. -/
lemma unescape_escapeChar (b : UInt8) (chars : List JsonChar) :
    JsonChar.unescape (escapeChar b :: chars) = (JsonChar.unescape chars).map (b :: ·) := by
  have hunit : ∀ b : UInt8, JsonChar.codeUnit 0x30 0x30 (Hex.digit (b.toNat / 16))
      (Hex.digit (b.toNat % 16)) = b.toNat := forall_byte (by decide +kernel)
  unfold escapeChar
  split_ifs with hself hn hr ht hcontrol
  · exact JsonChar.unescape_escape (JsonChar.escaped_self hself)
  · rw [hn]
    exact JsonChar.unescape_escape (by decide)
  · rw [hr]
    exact JsonChar.unescape_escape (by decide)
  · rw [ht]
    exact JsonChar.unescape_escape (by decide)
  · exact JsonChar.unescape_unicode (hunit b) (UInt8.lt_trans hcontrol (by decide))
  · exact JsonChar.unescape_byte b chars

/-- A string is read back. -/
@[simp] lemma asString_stringJson (value : ByteString) :
    (stringJson value).asString = some value :=
  JsonChar.unescape_map unescape_escapeChar value

end OtlpHttpExporter

end GalayTracing
