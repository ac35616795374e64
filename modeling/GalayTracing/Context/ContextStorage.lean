import GalayTracing.Context.TraceContext

/-!
# The context of a thread

The context of a thread is stored in two parts, the identity of the current span and the
tracestate.  The functions that set it take the new value and return the new state of the thread.
-/

namespace GalayTracing

/-- `detail::CurrentContextState`, the type of the thread-local `t_currentContext`. -/
structure CurrentContextState where
  spanContext : Option SpanContext := none
  tracestate : ByteString := []
  deriving DecidableEq

/-- `clearCurrentContext`. -/
def clearCurrentContext : CurrentContextState := { spanContext := none, tracestate := [] }

/-- `detail::setCurrentContextState`. -/
def setCurrentContextState (state : CurrentContextState) : CurrentContextState :=
  if state.spanContext.isNone then { state with tracestate := [] } else state

/-- `currentContext`. -/
def currentContext (state : CurrentContextState) : Option TraceContext :=
  state.spanContext.map (·.toTraceContext state.tracestate)

/-- `setCurrentContext`. -/
def setCurrentContext : Option TraceContext → CurrentContextState
  | none => clearCurrentContext
  | some context =>
    { spanContext := some (.ofTraceContext context), tracestate := context.tracestate }

/-- Setting the two parts of a state sets its context. -/
@[simp] lemma currentContext_setCurrentContextState (state : CurrentContextState) :
    currentContext (setCurrentContextState state) = currentContext state := by
  unfold setCurrentContextState
  cases hspan : state.spanContext with
  | none => simp [currentContext, hspan]
  | some context => simp

/-- The context that was set is the current one. -/
@[simp] lemma currentContext_setCurrentContext (context : Option TraceContext) :
    currentContext (setCurrentContext context) = context := by
  cases context with
  | none => rfl
  | some context => rfl

/-- The tracestate of a state with a current span is that of its context. -/
lemma tracestate_eq (state : CurrentContextState) :
    (if state.spanContext.isSome then state.tracestate else []) =
      (currentContext state).elim [] (·.tracestate) := by
  unfold currentContext
  cases state.spanContext with
  | none => rfl
  | some context => rfl

end GalayTracing
