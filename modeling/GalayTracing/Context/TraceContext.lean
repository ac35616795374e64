import GalayTracing.Common.Identifiers

/-!
# Trace contexts

The three context types: `TraceContext` travels between services, `SpanContext` is the identity of a
span without the tracestate, and `LogContext` is what a log record keeps.
-/

namespace GalayTracing

/-- `kSampledFlag`: bit 0 of the trace flags. -/
def kSampledFlag : UInt8 := 0x01

/-- `TraceContext`. -/
structure TraceContext where
  traceId : TraceId := .zero
  spanId : SpanId := .zero
  parentSpanId : Option SpanId := none
  traceFlags : UInt8 := 0
  tracestate : ByteString := []
  deriving DecidableEq

/-- `SpanContext`. -/
structure SpanContext where
  traceId : TraceId := .zero
  spanId : SpanId := .zero
  parentSpanId : Option SpanId := none
  traceFlags : UInt8 := 0
  deriving DecidableEq

/-- `LogContext`. -/
structure LogContext where
  traceId : TraceId := .zero
  spanId : SpanId := .zero
  traceFlags : UInt8 := 0
  deriving DecidableEq

/-- `TraceContext::isValid`. -/
def TraceContext.isValid (context : TraceContext) : Bool :=
  context.traceId.isValid && context.spanId.isValid

/-- `TraceContext::sampled`. -/
def TraceContext.sampled (context : TraceContext) : Bool := context.traceFlags &&& kSampledFlag != 0

/-- `SpanContext::isValid`. -/
def SpanContext.isValid (context : SpanContext) : Bool :=
  context.traceId.isValid && context.spanId.isValid

/-- `SpanContext::sampled`. -/
def SpanContext.sampled (context : SpanContext) : Bool := context.traceFlags &&& kSampledFlag != 0

/-- The constructor of `SpanContext` that leaves the tracestate of a context out. -/
def SpanContext.ofTraceContext (context : TraceContext) : SpanContext where
  traceId := context.traceId
  spanId := context.spanId
  parentSpanId := context.parentSpanId
  traceFlags := context.traceFlags

/-- `SpanContext::toTraceContext`. -/
def SpanContext.toTraceContext (context : SpanContext) (tracestate : ByteString) :
    TraceContext where
  traceId := context.traceId
  spanId := context.spanId
  parentSpanId := context.parentSpanId
  traceFlags := context.traceFlags
  tracestate := tracestate

/-- The constructor of `LogContext` that keeps the identity of a context. -/
def LogContext.ofTraceContext (context : TraceContext) : LogContext where
  traceId := context.traceId
  spanId := context.spanId
  traceFlags := context.traceFlags

/-- `makeLogContext`. -/
def makeLogContext (context : Option TraceContext) : Option LogContext :=
  context.map LogContext.ofTraceContext

/-- Whether a context is valid does not depend on its tracestate. -/
@[simp] lemma SpanContext.isValid_toTraceContext (context : SpanContext) (tracestate : ByteString) :
    (context.toTraceContext tracestate).isValid = context.isValid := rfl

end GalayTracing
