import GalayTracing.Foundation.Decimal
import GalayTracing.Kernel.Span

/-!
# The body of an OTLP request

The body is put together by functions that append to a text.  `std::to_chars` of an integer gives
its decimal digits; for a `double` it is a parameter.
-/

namespace GalayTracing

/-- `InstrumentationScopeConfig`. -/
structure InstrumentationScopeConfig where
  name : ByteString := ascii "galay-tracing"
  version : ByteString := []
  deriving DecidableEq

/-- `OtlpHttpExporterConfig`, as far as the body depends on it. -/
structure OtlpHttpExporterConfig where
  resourceAttributes : List SpanAttribute := []
  scope : InstrumentationScopeConfig := {}
  deriving DecidableEq

namespace OtlpHttpExporter

/-- One step of the loop of `appendJsonString`. -/
def appendJsonChar (out : ByteString) (ch : UInt8) : ByteString :=
  if ch = 0x22 ∨ ch = 0x5c then out ++ [0x5c] ++ [ch]
  else if ch = 0x0a then out ++ ascii "\\n"
  else if ch = 0x0d then out ++ ascii "\\r"
  else if ch = 0x09 then out ++ ascii "\\t"
  else if ch < 0x20 then
    let kHex := ascii "0123456789abcdef"
    out ++ ascii "\\u00" ++ [kHex.getD (ch >>> 4).toNat 0] ++ [kHex.getD (ch &&& 0x0f).toNat 0]
  else out ++ [ch]

/-- `appendJsonString`. -/
def appendJsonString (out value : ByteString) : ByteString :=
  value.foldl appendJsonChar (out ++ ascii "\"") ++ ascii "\""

/-- `appendHexId`. -/
def appendHexId {n : ℕ} (out : ByteString) (id : Identifier n) : ByteString :=
  let hex := id.toHexArray
  out ++ hex

/-- `otlpSpanKindName`. -/
def otlpSpanKindName : SpanKind → ByteString
  | .kServer => ascii "SPAN_KIND_SERVER"
  | .kClient => ascii "SPAN_KIND_CLIENT"
  | .kProducer => ascii "SPAN_KIND_PRODUCER"
  | .kConsumer => ascii "SPAN_KIND_CONSUMER"
  | .kInternal => ascii "SPAN_KIND_INTERNAL"

/-- `otlpStatusCodeName`. -/
def otlpStatusCodeName : SpanStatusCode → ByteString
  | .kOk => ascii "STATUS_CODE_OK"
  | .kError => ascii "STATUS_CODE_ERROR"
  | .kUnset => ascii "STATUS_CODE_UNSET"

/-- `appendNumber` of a value whose characters are given: they are appended if they fit in the
buffer. -/
def appendNumber (out chars : ByteString) : ByteString :=
  if chars.length ≤ 32 then out ++ chars else out

section Body

variable (toChars : Double → ByteString)

/-- `appendAttributeValue`. -/
def appendAttributeValue (out : ByteString) : SpanAttributeValue → ByteString
  | .int64 value =>
    let out := out ++ ascii "\x7b\"intValue\":\""
    let out := appendNumber out (Decimal.ofInt value.toInt)
    out ++ ascii "\"\x7d"
  | .uint64 value =>
    let out := out ++ ascii "\x7b\"intValue\":\""
    let out := appendNumber out (Decimal.ofInt value.toNat)
    out ++ ascii "\"\x7d"
  | .double value =>
    let out := out ++ ascii "\x7b\"doubleValue\":"
    let out := appendNumber out (toChars value)
    out ++ ascii "\x7d"
  | .bool value =>
    out ++ if value then ascii "\x7b\"boolValue\":true\x7d" else ascii "\x7b\"boolValue\":false\x7d"
  | .string value =>
    let out := out ++ ascii "\x7b\"stringValue\":"
    let out := appendJsonString out value
    out ++ ascii "\x7d"

/-- The loop of `appendAttributeArray`, from an index on. -/
def appendAttributeLoop (out : ByteString) (i : ℕ) : List SpanAttribute → ByteString
  | [] => out
  | attr :: attributes =>
    let out := if i ≠ 0 then out ++ ascii "," else out
    let out := out ++ ascii "\x7b\"key\":"
    let out := appendJsonString out attr.name
    let out := out ++ ascii ",\"value\":"
    let out := appendAttributeValue toChars out attr.value
    let out := out ++ ascii "\x7d"
    appendAttributeLoop out (i + 1) attributes

/-- `appendAttributeArray`. -/
def appendAttributeArray (out : ByteString) (attributes : List SpanAttribute) : ByteString :=
  let out := out ++ ascii "["
  let out := appendAttributeLoop toChars out 0 attributes
  out ++ ascii "]"

/-- `appendAttributes`. -/
def appendAttributes (out : ByteString) (attributes : List SpanAttribute) : ByteString :=
  let out := out ++ ascii ",\"attributes\":"
  appendAttributeArray toChars out attributes

/-- `appendResource`. -/
def appendResource (out : ByteString) (attributes : List SpanAttribute) : ByteString :=
  if attributes.isEmpty then out
  else
    let out := out ++ ascii "\"resource\":\x7b\"attributes\":"
    let out := appendAttributeArray toChars out attributes
    out ++ ascii "\x7d,"

/-- `appendScope`. -/
def appendScope (out : ByteString) (scope : InstrumentationScopeConfig) : ByteString :=
  let out := out ++ ascii "\"scope\":\x7b\"name\":"
  let out := appendJsonString out scope.name
  let out :=
    if !scope.version.isEmpty then
      let out := out ++ ascii ",\"version\":"
      appendJsonString out scope.version
    else out
  out ++ ascii "\x7d"

/-- `appendStatus`. -/
def appendStatus (out : ByteString) (status : SpanStatus) : ByteString :=
  if status.code = .kUnset ∧ status.message.isEmpty then out
  else
    let out := out ++ ascii ",\"status\":\x7b\"code\":\""
    let out := out ++ otlpStatusCodeName status.code
    let out := out ++ ascii "\""
    let out :=
      if !status.message.isEmpty then
        let out := out ++ ascii ",\"message\":"
        appendJsonString out status.message
      else out
    out ++ ascii "\x7d"

/-- One step of the loop of `buildOtlpJsonBody`. -/
def appendSpan (body : ByteString) (i : ℕ) (span : Span) : ByteString :=
  let context := span.spanContext
  let body := if i ≠ 0 then body ++ ascii "," else body
  let body := body ++ ascii "\x7b\"traceId\":\""
  let body := appendHexId body context.traceId
  let body := body ++ ascii "\",\"spanId\":\""
  let body := appendHexId body context.spanId
  let body := body ++ ascii "\",\"name\":"
  let body := appendJsonString body span.name
  let body := body ++ ascii ",\"kind\":\""
  let body := body ++ otlpSpanKindName span.kind
  let body := body ++ ascii "\""
  let body :=
    match context.parentSpanId with
    | some parentSpanId =>
      let body := body ++ ascii ",\"parentSpanId\":\""
      let body := appendHexId body parentSpanId
      body ++ ascii "\""
    | none => body
  let body :=
    if !span.tracestate.isEmpty then
      let body := body ++ ascii ",\"traceState\":"
      appendJsonString body span.tracestate
    else body
  let body :=
    if !span.attributes.isEmpty then appendAttributes toChars body span.attributes else body
  let body := appendStatus body span.status
  body ++ ascii "\x7d"

/-- The loop of `buildOtlpJsonBody`, from an index on. -/
def appendSpanLoop (body : ByteString) (i : ℕ) : List Span → ByteString
  | [] => body
  | span :: spans => appendSpanLoop (appendSpan toChars body i span) (i + 1) spans

/-- `buildOtlpJsonBody`. -/
def buildOtlpJsonBody (spans : List Span) (config : OtlpHttpExporterConfig) : ByteString :=
  let body := ascii "\x7b\"resourceSpans\":[\x7b"
  let body := appendResource toChars body config.resourceAttributes
  let body := body ++ ascii "\"scopeSpans\":[\x7b"
  let body := appendScope body config.scope
  let body := body ++ ascii ",\"spans\":["
  let body := appendSpanLoop toChars body 0 spans
  body ++ ascii "]\x7d]\x7d]\x7d"

end Body

end OtlpHttpExporter

end GalayTracing
