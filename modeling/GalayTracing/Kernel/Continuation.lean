import GalayTracing.Kernel.SpanGuard

/-!
# The two ways of continuing a context

A context is continued locally, by `startSpan` on a thread on which it is the current context, or
remotely, by `startServerSpan`.  Both compute the same identity for the new span.  The tracestate
differs when the context is not valid: `startServerSpan` starts a new trace without a tracestate,
and `startSpan` hands the tracestate of the context that it does not continue to the new trace.
-/

namespace GalayTracing

/-- The span that `startSpan` starts on a thread whose current context was set to `context`. -/
def localSpan (around : Surroundings) (name : ByteString) (context : TraceContext) : Span :=
  (startSpan around name (setCurrentContext (some context))).1.span

/-- The span that `startServerSpan` starts for `context`. -/
def remoteSpan (around : Surroundings) (name : ByteString) (context : TraceContext)
    (state : CurrentContextState) : Span :=
  (startServerSpan around name context state).1.span

/-- The two spans that continue a context agree in their trace, their parent, their flags and their
tracestate, and a span that starts a new trace has no tracestate. -/
structure ContinuationsAgree (around : Surroundings) (name : ByteString) (context : TraceContext)
    (state : CurrentContextState) : Prop where
  localTrace : (localSpan around name context).spanContext.traceId =
    if context.isValid then context.traceId else around.traceId
  remoteTrace : (remoteSpan around name context state).spanContext.traceId =
    if context.isValid then context.traceId else around.traceId
  parent : (localSpan around name context).spanContext.parentSpanId =
    (remoteSpan around name context state).spanContext.parentSpanId
  flags : (localSpan around name context).spanContext.traceFlags =
    (remoteSpan around name context state).spanContext.traceFlags
  tracestate : (localSpan around name context).tracestate =
    (remoteSpan around name context state).tracestate
  newTrace : context.isValid = false → (localSpan around name context).tracestate = [] ∧
    (remoteSpan around name context state).tracestate = []

variable {around : Surroundings} {name : ByteString} {context : TraceContext}
  {state : CurrentContextState}

/-- Both spans have the identity of a span that continues the context. -/
lemma spanContext_localSpan :
    (localSpan around name context).spanContext = nextContext around (some context) := by
  rw [localSpan, spanContext_startSpan, currentContext_setCurrentContext]

lemma spanContext_remoteSpan :
    (remoteSpan around name context state).spanContext = nextContext around (some context) :=
  spanContext_startServerSpan

/-- The local span has the tracestate of the context, whether it continues it or not. -/
lemma tracestate_localSpan : (localSpan around name context).tracestate = context.tracestate := by
  rw [localSpan, tracestate_startSpan, currentContext_setCurrentContext]
  rfl

/-- The trace of a span that continues a context. -/
lemma traceId_nextContext : (nextContext around (some context)).traceId =
    if context.isValid then context.traceId else around.traceId := by
  cases hvalid : context.isValid with
  | true =>
    rw [nextContext_of_valid hvalid]
    rfl
  | false =>
    rw [nextContext_of_not_valid hvalid]
    rfl

/-- The local and the remote continuation of a context agree if and only if the context is valid or
has no tracestate. -/
theorem continuationsAgree_iff (around : Surroundings) (name : ByteString) (context : TraceContext)
    (state : CurrentContextState) :
    ContinuationsAgree around name context state ↔
      context.isValid = true ∨ context.tracestate = [] := by
  constructor
  · intro hagree
    cases hvalid : context.isValid with
    | true => exact Or.inl rfl
    | false =>
      have hnil := (hagree.newTrace hvalid).1
      rw [tracestate_localSpan] at hnil
      exact Or.inr hnil
  · intro hcontext
    refine
      { localTrace := by rw [spanContext_localSpan, traceId_nextContext]
        remoteTrace := by rw [spanContext_remoteSpan, traceId_nextContext]
        parent := by rw [spanContext_localSpan, spanContext_remoteSpan]
        flags := by rw [spanContext_localSpan, spanContext_remoteSpan]
        tracestate := ?_
        newTrace := fun hvalid => ?_ }
    · rw [tracestate_localSpan, remoteSpan, tracestate_startServerSpan]
      rcases hcontext with hvalid | hnil
      · rw [if_pos hvalid]
      · rw [hnil, ite_self]
    · rw [tracestate_localSpan, remoteSpan, tracestate_startServerSpan, hvalid]
      rcases hcontext with hvalid' | hnil
      · rw [hvalid] at hvalid'
        cases hvalid'
      · exact ⟨hnil, rfl⟩

/-- The identifier of zeros up to its last byte, for concrete runs. -/
def sampleId (n : ℕ) (last : UInt8) : Identifier (n + 1) :=
  ⟨⟨List.replicate n 0 ++ [last], by simp⟩⟩

/-- Surroundings with the built-in sampler that draw the sample identifiers. -/
def sampleSurroundings (last : UInt8) (hlast : last ≠ 0) : Surroundings where
  traceId := sampleId 15 last
  spanId := sampleId 7 last
  isValid_traceId := by simp [Identifier.isValid, hasNonZeroByte, sampleId, hlast]
  isValid_spanId := by simp [Identifier.isValid, hasNonZeroByte, sampleId, hlast]

/-- A context without identifiers but with a tracestate: the span of `startSpan` takes the
tracestate into its new trace, the one of `startServerSpan` does not. -/
theorem invalidContext_leaks :
    ¬ContinuationsAgree (sampleSurroundings 1 (by decide)) [] { tracestate := ascii "a=b" } {} := by
  intro hagree
  have hnil := (hagree.newTrace (by decide)).1
  revert hnil
  decide

end GalayTracing
