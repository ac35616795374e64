import GalayTracing.Context.TraceContext

/-!
# Spans

The data of a span: its name and context, its kind and status, its attributes, and its times.  A
double is represented by its bits, and a time point by the number of its ticks.
-/

namespace GalayTracing

/-- A `double`, given by its bits in the IEEE 754 format. -/
structure Double where
  bits : UInt64
  deriving DecidableEq

namespace Double

/-- The eleven bits of the exponent. -/
def exponent (d : Double) : UInt64 := d.bits >>> 52 &&& 0x7ff

/-- The 52 bits of the mantissa. -/
def mantissa (d : Double) : UInt64 := d.bits &&& 0xfffffffffffff

/-- The value is a finite number. -/
def isFinite (d : Double) : Bool := d.exponent != 0x7ff

/-- The value is not a number. -/
def isNaN (d : Double) : Bool := d.exponent == 0x7ff && d.mantissa != 0

/-- The value is an infinity. -/
def isInf (d : Double) : Bool := d.exponent == 0x7ff && d.mantissa == 0

/-- A value that is not finite is not a number or an infinity. -/
lemma isNaN_or_isInf {d : Double} (hd : d.isFinite = false) : d.isNaN = true ∨ d.isInf = true := by
  have hexponent : d.exponent = 0x7ff := by simpa [isFinite] using hd
  by_cases hmantissa : d.mantissa = 0
  · exact Or.inr (by simp [isInf, hexponent, hmantissa])
  · exact Or.inl (by simp [isNaN, hexponent, hmantissa])

end Double

/-- `SpanTimingPolicy`. -/
inductive SpanTimingPolicy
  | kDisabled
  | kEnabled
  deriving DecidableEq

/-- `SpanKind`. -/
inductive SpanKind
  | kInternal
  | kServer
  | kClient
  | kProducer
  | kConsumer
  deriving DecidableEq

/-- `SpanStatusCode`. -/
inductive SpanStatusCode
  | kUnset
  | kOk
  | kError
  deriving DecidableEq

/-- The storage of a `SpanAttributeValue`. -/
inductive SpanAttributeValue
  | int64 (value : Int64)
  | uint64 (value : UInt64)
  | double (value : Double)
  | bool (value : Bool)
  | string (value : ByteString)
  deriving DecidableEq

/-- `SpanAttribute`. -/
structure SpanAttribute where
  name : ByteString
  value : SpanAttributeValue
  deriving DecidableEq

/-- `SpanAttributeValue::fromInt64`. -/
def SpanAttributeValue.fromInt64 (value : Int64) : SpanAttributeValue := .int64 value

/-- `SpanAttributeValue::fromUInt64`. -/
def SpanAttributeValue.fromUInt64 (value : UInt64) : SpanAttributeValue := .uint64 value

namespace SpanAttribute

/-- `spanAttribute` of a `std::int64_t`. -/
def ofInt64 (name : ByteString) (value : Int64) : SpanAttribute where
  name := name
  value := .fromInt64 value

/-- `spanAttribute` of an `int`. -/
def ofInt (name : ByteString) (value : Int32) : SpanAttribute := ofInt64 name value.toInt64

/-- `spanAttribute` of a `std::uint64_t`. -/
def ofUInt64 (name : ByteString) (value : UInt64) : SpanAttribute where
  name := name
  value := .fromUInt64 value

end SpanAttribute

/-- `SpanStatus`. -/
structure SpanStatus where
  code : SpanStatusCode := .kUnset
  message : ByteString := []
  deriving DecidableEq

/-- `Span`. -/
structure Span where
  name : ByteString := []
  spanContext : SpanContext := {}
  tracestate : ByteString := []
  kind : SpanKind := .kInternal
  status : SpanStatus := {}
  attributes : List SpanAttribute := []
  startedAt : ℤ := 0
  endedAt : ℤ := 0
  ended : Bool := false
  deriving DecidableEq

namespace Span

/-- The constructor of `Span`, under a timing policy and a reading of the clock. -/
def new (name : ByteString) (context : SpanContext) (tracestate : ByteString)
    (timingPolicy : SpanTimingPolicy) (now : ℤ) : Span where
  name := name
  spanContext := context
  tracestate := tracestate
  startedAt := if timingPolicy = .kEnabled then now else 0

/-- `Span::context`. -/
def context (span : Span) : TraceContext := span.spanContext.toTraceContext span.tracestate

/-- `Span::setKind`. -/
def setKind (span : Span) (kind : SpanKind) : Span := { span with kind := kind }

/-- `Span::kMaxAttributes`. -/
def kMaxAttributes : ℕ := 32

/-- `Span::setAttribute` of an attribute: whether there was room for it, and the span after it. -/
def setAttribute (span : Span) (attr : SpanAttribute) : Bool × Span :=
  if span.attributes.length ≥ kMaxAttributes then (false, span)
  else (true, { span with attributes := span.attributes ++ [attr] })

/-- `Span::setAttribute` of a `std::int64_t`. -/
def setInt64 (span : Span) (name : ByteString) (value : Int64) : Bool × Span :=
  span.setAttribute (.ofInt64 name value)

/-- `Span::setAttribute` of an `int`. -/
def setInt (span : Span) (name : ByteString) (value : Int32) : Bool × Span :=
  span.setInt64 name value.toInt64

/-- `Span::setAttribute` of a `std::uint64_t`. -/
def setUInt64 (span : Span) (name : ByteString) (value : UInt64) : Bool × Span :=
  span.setAttribute (.ofUInt64 name value)

/-- `Span::end`, at a reading of the clock. -/
def «end» (span : Span) (now : ℤ) : Span :=
  if span.ended then span
  else { span with endedAt := if span.startedAt ≠ 0 then now else span.endedAt, ended := true }

end Span

end GalayTracing
