import GalayTracing.Export.OtlpWellFormed

/-!
# Reading the body of an OTLP request back

What a collector reads from a body: it parses the text, and looks the members up by their names; a
member that is absent has its default value.  This gives back everything that was put into the body,
up to the width of the integers, so that two inputs that differ have different bodies.
-/

namespace GalayTracing

open Json

namespace OtlpHttpExporter

/-- What is read from an attribute value: integers of both types are read as integers without a
bound, and the value of a double is not read. -/
inductive AttributeValueView
  | int (value : ℤ)
  | bool (value : Bool)
  | string (value : ByteString)
  | double
  deriving DecidableEq

/-- What is read from a span. -/
structure SpanView where
  traceId : TraceId
  spanId : SpanId
  parentSpanId : Option SpanId
  name : ByteString
  kind : SpanKind
  tracestate : ByteString
  status : SpanStatus
  attributes : List (ByteString × AttributeValueView)
  deriving DecidableEq

/-- What is read from a body. -/
structure BodyView where
  resourceAttributes : List (ByteString × AttributeValueView)
  scope : InstrumentationScopeConfig
  spans : List SpanView
  deriving DecidableEq

/-! ### What is in the input -/

/-- The view of an attribute value. -/
def viewValue : SpanAttributeValue → AttributeValueView
  | .int64 value => .int value.toInt
  | .uint64 value => .int value.toNat
  | .double _ => .double
  | .bool value => .bool value
  | .string value => .string value

/-- The view of a list of attributes. -/
def viewAttributes (attributes : List SpanAttribute) : List (ByteString × AttributeValueView) :=
  attributes.map fun attr => (attr.name, viewValue attr.value)

/-- The view of a span. -/
def viewSpan (span : Span) : SpanView where
  traceId := span.spanContext.traceId
  spanId := span.spanContext.spanId
  parentSpanId := span.spanContext.parentSpanId
  name := span.name
  kind := span.kind
  tracestate := span.tracestate
  status := span.status
  attributes := viewAttributes span.attributes

/-- The view of a batch of spans. -/
def viewBody (spans : List Span) (config : OtlpHttpExporterConfig) : BodyView where
  resourceAttributes := viewAttributes config.resourceAttributes
  scope := config.scope
  spans := spans.map viewSpan

/-! ### What is read from the body -/

/-- An identifier. -/
def readId {n : ℕ} (v : Json) : Option (Identifier n) := v.asString.bind Identifier.fromHex

/-- An attribute value. -/
def readValue (v : Json) : Option AttributeValueView :=
  if let some w := v.member (ascii "intValue") then (w.asString.bind Decimal.readInt).map .int
  else if let some w := v.member (ascii "boolValue") then w.asBool.map .bool
  else if let some w := v.member (ascii "stringValue") then w.asString.map .string
  else if let some _ := v.member (ascii "doubleValue") then some .double
  else none

/-- An attribute. -/
def readAttribute (v : Json) : Option (ByteString × AttributeValueView) := do
  let name ← (← v.member (ascii "key")).asString
  let value ← readValue (← v.member (ascii "value"))
  return (name, value)

/-- A list of attributes. -/
def readAttributes (v : Json) : Option (List (ByteString × AttributeValueView)) := do
  (← v.asArray).mapM readAttribute

/-- A span kind. -/
def readKind (v : Json) : Option SpanKind := do
  let name ← v.asString
  [SpanKind.kInternal, .kServer, .kClient, .kProducer, .kConsumer].find? (otlpSpanKindName · = name)

/-- A status code. -/
def readStatusCode (v : Json) : Option SpanStatusCode := do
  let name ← v.asString
  [SpanStatusCode.kUnset, .kOk, .kError].find? (otlpStatusCodeName · = name)

/-- A status. -/
def readStatus (v : Json) : Option SpanStatus := do
  let code ← v.readMemberD (ascii "code") .kUnset readStatusCode
  let message ← v.readMemberD (ascii "message") [] asString
  return { code := code, message := message }

/-- A span. -/
def readSpan (v : Json) : Option SpanView := do
  let traceId ← readId (← v.member (ascii "traceId"))
  let spanId ← readId (← v.member (ascii "spanId"))
  let parentSpanId ← v.readMemberD (ascii "parentSpanId") none fun w => (readId w).map some
  let name ← v.readMemberD (ascii "name") [] asString
  let kind ← v.readMemberD (ascii "kind") .kInternal readKind
  let tracestate ← v.readMemberD (ascii "traceState") [] asString
  let status ← v.readMemberD (ascii "status") {} readStatus
  let attributes ← v.readMemberD (ascii "attributes") [] readAttributes
  return {
    traceId := traceId, spanId := spanId, parentSpanId := parentSpanId, name := name, kind := kind,
    tracestate := tracestate, status := status, attributes := attributes }

/-- The instrumentation scope. -/
def readScope (v : Json) : Option InstrumentationScopeConfig := do
  let name ← v.readMemberD (ascii "name") [] asString
  let version ← v.readMemberD (ascii "version") [] asString
  return { name := name, version := version }

/-- The value of a body. -/
def readBody (v : Json) : Option BodyView := do
  let resourceSpan ← (← (← v.member (ascii "resourceSpans")).asArray)[0]?
  let resourceAttributes ← resourceSpan.readMemberD (ascii "resource") [] fun w =>
    w.readMemberD (ascii "attributes") [] readAttributes
  let scopeSpan ← (← (← resourceSpan.member (ascii "scopeSpans")).asArray)[0]?
  let scope ← readScope (← scopeSpan.member (ascii "scope"))
  let spans ← (← (← scopeSpan.member (ascii "spans")).asArray).mapM readSpan
  return { resourceAttributes := resourceAttributes, scope := scope, spans := spans }

/-- Decoding a body. -/
def decode (body : ByteString) : Option BodyView := do readBody (← parse body)

/-! ### Decoding gives back what was encoded -/

/-- Reading the elements of an array one after the other. -/
lemma mapM_map_eq_some {α β γ : Type} {write : α → β} {read : β → Option γ} {view : α → γ}
    (hread : ∀ a, read (write a) = some (view a)) (as : List α) :
    (as.map write).mapM read = some (as.map view) := by
  induction as with
  | nil => rfl
  | cons a as ih => simp [List.mapM_cons, hread, ih]

/-- An identifier is read back. -/
lemma readId_plainJson {n : ℕ} (id : Identifier n) : readId (plainJson id.toHex) = some id := by
  rw [readId, asString_plainJson, Option.bind_some, Identifier.fromHex_toHex]

section Reading

variable (toChars : Double → ByteString)

/-- An attribute value is read back, up to the width of the integers. -/
lemma readValue_attributeValueJson (value : SpanAttributeValue) :
    readValue (attributeValueJson toChars value) = some (viewValue value) := by
  cases value with
  | int64 value =>
    simp [readValue, attributeValueJson, member_field_cons, Decimal.readInt_ofInt, viewValue]
  | uint64 value =>
    simp [readValue, attributeValueJson, member_field_cons, Decimal.readInt_ofInt, viewValue]
  | double value => simp +decide [readValue, attributeValueJson, member_field_cons, viewValue]
  | bool value =>
    simp +decide [readValue, attributeValueJson, member_field_cons, viewValue, asBool]
  | string value => simp +decide [readValue, attributeValueJson, member_field_cons, viewValue]

/-- A list of attributes is read back. -/
lemma readAttributes_attributesJson (attributes : List SpanAttribute) :
    readAttributes (attributesJson toChars attributes) = some (viewAttributes attributes) := by
  apply mapM_map_eq_some
  intro attr
  simp +decide [readAttribute, attributeJson, member_field_cons, readValue_attributeValueJson]

/-- A string that is written when it is not empty is found by its name. -/
lemma member_stringMembers (key name value : ByteString) :
    (Json.object (stringMembers key value)).member name =
      if key = name then if value = [] then none else some (stringJson value) else none := by
  unfold stringMembers
  by_cases hvalue : value = []
  · simp [hvalue]
  · simp [hvalue, member_field_cons]

/-- The parent is found by its name, if there is one. -/
lemma member_parentMembers (name : ByteString) (parentSpanId : Option SpanId) :
    (Json.object (parentMembers parentSpanId)).member name =
      if ascii "parentSpanId" = name then parentSpanId.map fun id => plainJson id.toHex
      else none := by
  cases parentSpanId with
  | none => simp [parentMembers]
  | some id => simp [parentMembers, member_field_cons]

/-- The attributes are found by their name, if there are any. -/
lemma member_attributesMembers (name : ByteString) (attributes : List SpanAttribute) :
    (Json.object (attributesMembers toChars attributes)).member name =
      if ascii "attributes" = name then
        if attributes = [] then none else some (attributesJson toChars attributes)
      else none := by
  unfold attributesMembers
  by_cases hattributes : attributes = []
  · simp [hattributes]
  · simp [hattributes, member_field_cons]

/-- The status is found by its name, unless it is the default one. -/
lemma member_statusMembers (name : ByteString) (status : SpanStatus) :
    (Json.object (statusMembers status)).member name =
      if ascii "status" = name then if status = {} then none else some (statusJson status)
      else none := by
  have hdefault : status = {} ↔ status.code = .kUnset ∧ status.message.isEmpty = true := by
    cases status
    simp
  unfold statusMembers
  by_cases hstatus : status = {}
  · rw [if_pos (hdefault.mp hstatus)]
    simp [hstatus]
  · rw [if_neg fun h => hstatus (hdefault.mpr h)]
    simp [hstatus, member_field_cons]

/-- A member that is written unless it has the default value is read back. -/
lemma readMemberD_of_member {α : Type} [DecidableEq α] {v w : Json} {name : ByteString}
    {absent value : α} {read : Json → Option α}
    (hmember : v.member name = if value = absent then none else some w)
    (hread : read w = some value) : v.readMemberD name absent read = some value := by
  unfold readMemberD
  by_cases hvalue : value = absent
  · simp [hmember, hvalue]
  · simp [hmember, hvalue, hread]

/-- A member that is always written is read back. -/
lemma readMemberD_of_member_some {α : Type} {v w : Json} {name : ByteString} {absent value : α}
    {read : Json → Option α} (hmember : v.member name = some w) (hread : read w = some value) :
    v.readMemberD name absent read = some value := by
  simp [readMemberD, hmember, hread]

/-- A status code is read back. -/
lemma readStatusCode_plainJson (code : SpanStatusCode) :
    readStatusCode (plainJson (otlpStatusCodeName code)) = some code := by
  have hfind : ∀ code, [SpanStatusCode.kUnset, .kOk, .kError].find?
      (otlpStatusCodeName · = otlpStatusCodeName code) = some code := by
    rintro (_ | _ | _)
    · decide
    · decide
    · decide
  simp [readStatusCode, hfind]

/-- A span kind is read back. -/
lemma readKind_plainJson (kind : SpanKind) :
    readKind (plainJson (otlpSpanKindName kind)) = some kind := by
  have hfind : ∀ kind, [SpanKind.kInternal, .kServer, .kClient, .kProducer, .kConsumer].find?
      (otlpSpanKindName · = otlpSpanKindName kind) = some kind := by
    rintro (_ | _ | _ | _ | _)
    · decide
    · decide
    · decide
    · decide
    · decide
  simp [readKind, hfind]

/-- A status is read back. -/
lemma readStatus_statusJson (status : SpanStatus) :
    readStatus (statusJson status) = some status := by
  have hcode : (statusJson status).readMemberD (ascii "code") .kUnset readStatusCode =
      some status.code := by
    apply readMemberD_of_member_some _ (readStatusCode_plainJson _)
    simp [statusJson, member_field_cons]
  have hmessage : (statusJson status).readMemberD (ascii "message") [] asString =
      some status.message := by
    apply readMemberD_of_member _ (asString_stringJson _)
    simp +decide [statusJson, member_field_cons, member_stringMembers]
  simp [readStatus, hcode, hmessage]

/-- The instrumentation scope is read back. -/
lemma readScope_scopeJson (scope : InstrumentationScopeConfig) :
    readScope (scopeJson scope) = some scope := by
  have hname : (scopeJson scope).readMemberD (ascii "name") [] asString = some scope.name := by
    apply readMemberD_of_member_some _ (asString_stringJson _)
    simp [scopeJson, member_field_cons]
  have hversion : (scopeJson scope).readMemberD (ascii "version") [] asString =
      some scope.version := by
    apply readMemberD_of_member _ (asString_stringJson _)
    simp +decide [scopeJson, member_field_cons, member_stringMembers]
  simp [readScope, hname, hversion]

/-- The members of a span are found by their names. -/
lemma member_spanJson (name : ByteString) (span : Span) :
    (spanJson toChars span).member name =
      if ascii "traceId" = name then some (plainJson span.spanContext.traceId.toHex)
      else if ascii "spanId" = name then some (plainJson span.spanContext.spanId.toHex)
      else if ascii "name" = name then some (stringJson span.name)
      else if ascii "kind" = name then some (plainJson (otlpSpanKindName span.kind))
      else ((Json.object (parentMembers span.spanContext.parentSpanId)).member name).or
        (((Json.object (stringMembers (ascii "traceState") span.tracestate)).member name).or
          (((Json.object (attributesMembers toChars span.attributes)).member name).or
            ((Json.object (statusMembers span.status)).member name))) := by
  simp only [spanJson, member_field_cons, List.cons_append, List.nil_append, member_append]

/-- A span is read back. -/
lemma readSpan_spanJson (span : Span) :
    readSpan (spanJson toChars span) = some (viewSpan span) := by
  have htraceId : (spanJson toChars span).member (ascii "traceId") =
      some (plainJson span.spanContext.traceId.toHex) := by simp [member_spanJson]
  have hspanId : (spanJson toChars span).member (ascii "spanId") =
      some (plainJson span.spanContext.spanId.toHex) := by simp +decide [member_spanJson]
  have hparent : (spanJson toChars span).readMemberD (ascii "parentSpanId") none
      (fun w => (readId w).map some) = some span.spanContext.parentSpanId := by
    have hmember : (spanJson toChars span).member (ascii "parentSpanId") =
        span.spanContext.parentSpanId.map fun id => plainJson id.toHex := by
      simp +decide [member_spanJson, member_parentMembers, member_stringMembers,
        member_attributesMembers, member_statusMembers]
    rw [readMemberD, hmember]
    cases span.spanContext.parentSpanId with
    | none => simp
    | some id => simp [readId_plainJson]
  have hname : (spanJson toChars span).readMemberD (ascii "name") [] asString =
      some span.name := by
    apply readMemberD_of_member_some _ (asString_stringJson _)
    simp +decide [member_spanJson]
  have hkind : (spanJson toChars span).readMemberD (ascii "kind") .kInternal readKind =
      some span.kind := by
    apply readMemberD_of_member_some _ (readKind_plainJson _)
    simp +decide [member_spanJson]
  have htracestate : (spanJson toChars span).readMemberD (ascii "traceState") [] asString =
      some span.tracestate := by
    apply readMemberD_of_member _ (asString_stringJson _)
    simp +decide [member_spanJson, member_parentMembers, member_stringMembers,
      member_attributesMembers, member_statusMembers]
  have hstatus : (spanJson toChars span).readMemberD (ascii "status") {} readStatus =
      some span.status := by
    apply readMemberD_of_member _ (readStatus_statusJson _)
    simp +decide [member_spanJson, member_parentMembers, member_stringMembers,
      member_attributesMembers, member_statusMembers]
  have hattributes : (spanJson toChars span).readMemberD (ascii "attributes") [] readAttributes =
      some (viewAttributes span.attributes) := by
    apply readMemberD_of_member _ (readAttributes_attributesJson toChars _)
    simp +decide [member_spanJson, member_parentMembers, member_stringMembers,
      member_attributesMembers, member_statusMembers, viewAttributes]
  simp only [readSpan, htraceId, hspanId, hparent, hname, hkind, htracestate, hstatus, hattributes,
    readId_plainJson, Option.bind_eq_bind, Option.bind_some, viewSpan]
  rfl

/-- Reading the value of a batch gives its view. -/
lemma readBody_bodyJson (spans : List Span) (config : OtlpHttpExporterConfig) :
    readBody (bodyJson toChars spans config) = some (viewBody spans config) := by
  let scopeSpan : Json := .object [field (ascii "scope") (scopeJson config.scope),
    field (ascii "spans") (.array (spans.map (spanJson toChars)))]
  let resourceSpan : Json := .object (resourceMembers toChars config.resourceAttributes ++
    [field (ascii "scopeSpans") (.array [scopeSpan])])
  have hbody : (bodyJson toChars spans config).member (ascii "resourceSpans") =
      some (.array [resourceSpan]) := by simp [bodyJson, member_field_cons, resourceSpan, scopeSpan]
  have hresource : resourceSpan.readMemberD (ascii "resource") []
      (fun w => w.readMemberD (ascii "attributes") [] readAttributes) =
        some (viewAttributes config.resourceAttributes) := by
    by_cases hempty : config.resourceAttributes = []
    · simp +decide [resourceSpan, resourceMembers, hempty, readMemberD, member_field_cons,
        viewAttributes]
    · simp [resourceSpan, resourceMembers, hempty, readMemberD, member_field_cons,
        readAttributes_attributesJson]
  have hscopeSpans : resourceSpan.member (ascii "scopeSpans") = some (.array [scopeSpan]) := by
    simp [resourceSpan, member_append, member_field_cons, member_resourceMembers]
  have hscope : scopeSpan.member (ascii "scope") = some (scopeJson config.scope) := by
    simp [scopeSpan, member_field_cons]
  have hspans : scopeSpan.member (ascii "spans") =
      some (.array (spans.map (spanJson toChars))) := by
    simp +decide [scopeSpan, member_field_cons]
  have hread := mapM_map_eq_some (readSpan_spanJson toChars) spans
  simp only [readBody, hbody, asArray, List.getElem?_cons_zero, hresource, hscopeSpans, hscope,
    readScope_scopeJson, hspans, hread, Option.bind_eq_bind, Option.bind_some]
  rfl

end Reading

/-- No attribute of the spans or of the resource is a double. -/
def NoDoubles (spans : List Span) (config : OtlpHttpExporterConfig) : Prop :=
  EveryDouble (fun _ => False) config.resourceAttributes ∧
    ∀ span ∈ spans, EveryDouble (fun _ => False) span.attributes

/-- Decoding the body of a batch without doubles gives its view. -/
lemma decode_of_noDoubles (toChars : Double → ByteString) {spans : List Span}
    {config : OtlpHttpExporterConfig} (hnone : NoDoubles spans config) :
    decode (buildOtlpJsonBody toChars spans config) = some (viewBody spans config) := by
  obtain ⟨hresource, hspans⟩ := hnone
  have hvalid : (bodyJson toChars spans config).Valid := by
    have hchar : ∀ c : JsonChar, c.Valid → (Leaf.char c).Valid := fun c hc => hc
    apply (every_bodyJson hchar toChars spans config).mpr
    constructor
    · intro attr hattr d hd
      exact (hresource attr hattr d hd).elim
    · intro span hspan attr hattr d hd
      exact (hspans span hspan attr hattr d hd).elim
  have hparse : parse (buildOtlpJsonBody toChars spans config) =
      some (bodyJson toChars spans config) := by
    rw [buildOtlpJsonBody_eq]
    exact parse_eq_some_iff.mpr hvalid.document_render
  rw [decode, hparse]
  exact readBody_bodyJson toChars spans config

/-- Decoding the body of a batch without doubles gives back what was encoded, and two such batches
with the same body agree in all of it. -/
theorem buildOtlpJsonBody_lossless (toChars : Double → ByteString) (spans : List Span)
    (config : OtlpHttpExporterConfig) (hnone : NoDoubles spans config) :
    decode (buildOtlpJsonBody toChars spans config) = some (viewBody spans config) ∧
      ∀ spans' config', NoDoubles spans' config' →
        buildOtlpJsonBody toChars spans' config' = buildOtlpJsonBody toChars spans config →
        viewBody spans' config' = viewBody spans config := by
  have hdecode := decode_of_noDoubles toChars hnone
  constructor
  · exact hdecode
  · intro spans' config' hnone' hbody
    have hdecode' := decode_of_noDoubles toChars hnone'
    rw [hbody, hdecode] at hdecode'
    exact (Option.some_inj.mp hdecode').symm

/-- A span with an attribute of each type but the doubles, and with characters to escape. -/
def sampleSpan : Span where
  name := [0x00, 0x0a, 0x22, 0xff]
  kind := .kClient
  status := { message := ascii "m" }
  attributes := [⟨ascii "i", .int64 (-5)⟩, ⟨ascii "b", .bool true⟩, ⟨[], .string (ascii "\\")⟩]

/-- A configuration with a resource attribute. -/
def sampleConfig : OtlpHttpExporterConfig where
  resourceAttributes := [⟨ascii "u", .uint64 7⟩]

/-- The sample span and an empty one are read back. -/
theorem buildOtlpJsonBody_lossless_sample :
    decode (buildOtlpJsonBody sampleToChars [sampleSpan, {}] sampleConfig) =
      some (viewBody [sampleSpan, {}] sampleConfig) := by
  refine (buildOtlpJsonBody_lossless sampleToChars _ _ ?_).1
  constructor
  · simp [EveryDouble, sampleConfig]
  · simp [EveryDouble, sampleSpan]

end OtlpHttpExporter

end GalayTracing
