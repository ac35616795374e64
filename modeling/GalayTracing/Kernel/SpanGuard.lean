import GalayTracing.Context.ContextStorage
import GalayTracing.Kernel.Sampler
import GalayTracing.Kernel.Span

/-!
# Span guards

`startSpan` and `startServerSpan` create a span, make its context the current one, and return a
guard that remembers the context from before.  The guard brings it back when it is destroyed.

Both functions are shown to install the context that `nextContext` computes from the parent: the
current context for `startSpan`, the given one for `startServerSpan`.  They differ in one point, the
tracestate of a span whose parent is present but not valid.
-/

namespace GalayTracing

/-- What starting a span reads from its surroundings: the sampler and the timing policy configured
for the process, the clock, and the random identifiers, which are never zero. -/
structure Surroundings where
  sampler : Option Sampler := none
  timing : SpanTimingPolicy := .kDisabled
  now : ℤ := 0
  /-- What `TraceId::random` returns. -/
  traceId : TraceId
  /-- What `SpanId::random` returns. -/
  spanId : SpanId
  isValid_traceId : traceId.isValid = true
  isValid_spanId : spanId.isValid = true

/-- `makeRootContext`. -/
def makeRootContext (around : Surroundings) : SpanContext :=
  { traceId := around.traceId, spanId := around.spanId }

/-- `makeChildContext` of a `SpanContext`. -/
def makeChildContext (around : Surroundings) (parent : SpanContext) : SpanContext :=
  let context : SpanContext :=
    { traceId := parent.traceId, spanId := around.spanId, traceFlags := parent.traceFlags }
  { context with parentSpanId := some parent.spanId }

/-- `makeChildContext` of a `TraceContext`. -/
def makeChildContextOfTrace (around : Surroundings) (parent : TraceContext) : SpanContext :=
  let context : SpanContext :=
    { traceId := parent.traceId, spanId := around.spanId, traceFlags := parent.traceFlags }
  { context with parentSpanId := some parent.spanId }

/-- `makeNextContext`. -/
def makeNextContext (around : Surroundings) (parent : Option SpanContext) : SpanContext :=
  match parent with
  | some parent => if parent.isValid then makeChildContext around parent else makeRootContext around
  | none => makeRootContext around

/-- `applySampling`. -/
def applySampling (around : Surroundings) (context : SpanContext) (parent : Option SpanContext) :
    SpanContext :=
  let flags := context.traceFlags
  let flags :=
    if currentSampler around.sampler parent context.traceId then flags ||| kSampledFlag
    else flags &&& ~~~kSampledFlag
  { context with traceFlags := flags }

/-- `SpanGuard`. -/
structure SpanGuard where
  span : Span := {}
  previousContext : Option SpanContext := none
  previousTracestate : ByteString := []
  active : Bool := false
  deriving DecidableEq

namespace SpanGuard

/-- The constructor of an active guard. -/
def new (span : Span) (previousContext : Option SpanContext) (previousTracestate : ByteString) :
    SpanGuard where
  span := span
  previousContext := previousContext
  previousTracestate := previousTracestate
  active := true

/-- `SpanGuard::end`. -/
def «end» (guard : SpanGuard) (now : ℤ) : SpanGuard :=
  if guard.active then { guard with span := guard.span.end now } else guard

/-- `SpanGuard::restore`, with the state of the thread before and after. -/
def restore (guard : SpanGuard) (now : ℤ) (state : CurrentContextState) :
    SpanGuard × CurrentContextState :=
  if !guard.active then (guard, state)
  else
    let guard := guard.end now
    ({ guard with active := false },
      setCurrentContextState
        { spanContext := guard.previousContext, tracestate := guard.previousTracestate })

/-- The destructor. -/
def destroy (guard : SpanGuard) (now : ℤ) (state : CurrentContextState) :
    SpanGuard × CurrentContextState :=
  guard.restore now state

/-- The move assignment `operator=`, of another guard: both guards and the state after it. -/
def moveAssign (guard other : SpanGuard) (now : ℤ) (state : CurrentContextState) :
    SpanGuard × SpanGuard × CurrentContextState :=
  let (_, state) := guard.restore now state
  (other, { other with active := false }, state)

/-- The context a guard has saved. -/
def saved (guard : SpanGuard) : Option TraceContext :=
  guard.previousContext.map (·.toTraceContext guard.previousTracestate)

end SpanGuard

/-- `startSpan`: the guard of the new span, and the new state of the thread. -/
def startSpan (around : Surroundings) (name : ByteString) (state : CurrentContextState) :
    SpanGuard × CurrentContextState :=
  let previous := state
  let parent := previous.spanContext.filter (·.isValid)
  let context := applySampling around (makeNextContext around previous.spanContext) parent
  let tracestate := if previous.spanContext.isSome then previous.tracestate else []
  let span := Span.new name context tracestate around.timing around.now
  (SpanGuard.new span previous.spanContext previous.tracestate,
    setCurrentContextState { spanContext := some context, tracestate := tracestate })

/-- `startServerSpan`. -/
def startServerSpan (around : Surroundings) (name : ByteString) (parent : TraceContext)
    (state : CurrentContextState) : SpanGuard × CurrentContextState :=
  let previous := state
  let context := if parent.isValid then makeChildContextOfTrace around parent
    else makeRootContext around
  let samplingParent := if parent.isValid then some (SpanContext.ofTraceContext parent) else none
  let context := applySampling around context samplingParent
  let tracestate := if parent.isValid then parent.tracestate else []
  let span := (Span.new name context tracestate around.timing around.now).setKind .kServer
  (SpanGuard.new span previous.spanContext previous.tracestate,
    setCurrentContextState { spanContext := some context, tracestate := tracestate })

/-! ### What the functions compute -/

/-- The context of a span that continues the context `parent`: a child of it if it is valid, and a
root otherwise. -/
def nextContext (around : Surroundings) (parent : Option TraceContext) : SpanContext :=
  match parent.filter (·.isValid) with
  | some parent =>
    applySampling around (makeChildContextOfTrace around parent) (some (.ofTraceContext parent))
  | none => applySampling around (makeRootContext around) none

variable {around : Surroundings} {name : ByteString} {parent : TraceContext}
  {state : CurrentContextState} {guard : SpanGuard}

/-- A span that continues a valid context is a child of it. -/
lemma nextContext_of_valid (hvalid : parent.isValid = true) :
    nextContext around (some parent) = applySampling around (makeChildContextOfTrace around parent)
      (some (.ofTraceContext parent)) := by
  simp [nextContext, Option.filter, hvalid]

/-- A span that continues an invalid context is a root. -/
lemma nextContext_of_not_valid (hvalid : parent.isValid = false) :
    nextContext around (some parent) = applySampling around (makeRootContext around) none := by
  simp [nextContext, Option.filter, hvalid]

/-- The span of `startSpan` continues the current context. -/
theorem spanContext_startSpan :
    (startSpan around name state).1.span.spanContext =
      nextContext around (currentContext state) := by
  simp only [startSpan, SpanGuard.new, Span.new, currentContext]
  cases hspan : state.spanContext with
  | none => rfl
  | some context =>
    have htrace : (context.toTraceContext state.tracestate).isValid = context.isValid := rfl
    cases hvalid : context.isValid with
    | true =>
      rw [Option.map_some, nextContext_of_valid (htrace.trans hvalid)]
      simp only [makeNextContext, Option.filter, hvalid, if_true]
      rfl
    | false =>
      rw [Option.map_some, nextContext_of_not_valid (htrace.trans hvalid)]
      simp [makeNextContext, Option.filter, hvalid]

/-- The span of `startServerSpan` continues the given context. -/
theorem spanContext_startServerSpan :
    (startServerSpan around name parent state).1.span.spanContext =
      nextContext around (some parent) := by
  simp only [startServerSpan, SpanGuard.new, Span.new, Span.setKind]
  cases hvalid : parent.isValid with
  | true =>
    rw [nextContext_of_valid hvalid]
    rfl
  | false =>
    rw [nextContext_of_not_valid hvalid]
    rfl

/-- The span of `startSpan` inherits the tracestate of the current context, valid or not. -/
lemma tracestate_startSpan :
    (startSpan around name state).1.span.tracestate =
      (currentContext state).elim [] (·.tracestate) :=
  tracestate_eq state

/-- The span of `startServerSpan` inherits the tracestate of a valid context only. -/
lemma tracestate_startServerSpan :
    (startServerSpan around name parent state).1.span.tracestate =
      if parent.isValid then parent.tracestate else [] := rfl

/-- `startSpan` makes the context of its span the current one. -/
lemma currentContext_startSpan :
    currentContext (startSpan around name state).2 =
      some (startSpan around name state).1.span.context :=
  currentContext_setCurrentContextState _

/-- `startServerSpan` makes the context of its span the current one. -/
lemma currentContext_startServerSpan :
    currentContext (startServerSpan around name parent state).2 =
      some (startServerSpan around name parent state).1.span.context :=
  currentContext_setCurrentContextState _

/-- The guard of `startSpan` has saved the context from before. -/
lemma saved_startSpan : (startSpan around name state).1.saved = currentContext state := rfl

/-- The guard of `startServerSpan` has saved the context from before. -/
lemma saved_startServerSpan :
    (startServerSpan around name parent state).1.saved = currentContext state := rfl

/-- Destroying an active guard brings back the context it has saved. -/
lemma currentContext_destroy (hactive : guard.active = true) (now : ℤ)
    (state : CurrentContextState) : currentContext (guard.destroy now state).2 = guard.saved := by
  simp only [SpanGuard.destroy, SpanGuard.restore, SpanGuard.end, hactive]
  exact currentContext_setCurrentContextState _

/-- Destroying a guard that is not active does nothing. -/
lemma destroy_of_not_active (hactive : guard.active = false) (now : ℤ)
    (state : CurrentContextState) : guard.destroy now state = (guard, state) := by
  simp [SpanGuard.destroy, SpanGuard.restore, hactive]

end GalayTracing
