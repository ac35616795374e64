import GalayTracing.Context.Traceparent
import GalayTracing.Kernel.Continuation
import GalayTracing.Kernel.NestedScopes

/-!
# Chains of spans through several services

A span is continued by another one on the same thread, or in another service that receives the two
headers of the current context.  Along such a chain the trace, its flags and its tracestate stay
what the first span made them, and each span names the one before it as its parent.

The first span only matters through the current context it leaves behind, so the chain is followed
from a thread whose current context is valid (`Hop.run_of_current`).
-/

namespace GalayTracing

/-- A step of a chain: a span nested in the current one, or a span of another service, on a thread
in some state of its own. -/
inductive Hop
  | nested (around : Surroundings) (name : ByteString)
  | remote (around : Surroundings) (name : ByteString) (thread : CurrentContextState)

/-- The surroundings of the service in which the span is started. -/
def Hop.around : Hop → Surroundings
  | .nested around _ => around
  | .remote around _ _ => around

/-- Sending the current context to another service: what is extracted there from the two headers. -/
def receive (state : CurrentContextState) : Option TraceContext := do
  let context ← currentContext state
  match ← extractTraceparent (injectTraceparent context) (injectTracestate context) with
  | .ok inbound => return inbound
  | .error _ => none

/-- One step of a chain: the span, and the state of its thread.  The step fails if the other service
cannot extract the context. -/
def Hop.run : Hop → CurrentContextState → Option (Span × CurrentContextState)
  | .nested around name, state =>
    let started := startSpan around name state
    return (started.1.span, started.2)
  | .remote around name thread, state => do
    let inbound ← receive state
    let started := startServerSpan around name inbound thread
    return (started.1.span, started.2)

/-- The spans of a chain that continues the current context of a thread. -/
def chainSpans : List Hop → CurrentContextState → Option (List Span)
  | [], _ => return []
  | hop :: hops, state => do
    let (span, state) ← hop.run state
    return span :: (← chainSpans hops state)

/-- The span belongs to the trace of the context: it has the same trace identifier, the same flags
and the same tracestate. -/
structure SharesTrace (context : TraceContext) (span : Span) : Prop where
  traceId : span.spanContext.traceId = context.traceId
  traceFlags : span.spanContext.traceFlags = context.traceFlags
  tracestate : span.tracestate = context.tracestate

/-- The parent of a span is the other span. -/
def IsParent (previous span : Span) : Prop :=
  span.spanContext.parentSpanId = some previous.spanContext.spanId

variable {around : Surroundings} {state : CurrentContextState} {context : TraceContext}

/-- Setting the flag of a sampled span, or clearing the one of a span that is not sampled, changes
nothing. -/
lemma sampledFlag_stable (flags : UInt8) :
    (if flags &&& kSampledFlag != 0 then flags ||| kSampledFlag else flags &&& ~~~kSampledFlag) =
      flags := by
  revert flags
  apply forall_byte
  decide +kernel

/-- The identity of the next span is valid, whatever it continues. -/
lemma isValid_nextContext (around : Surroundings) (parent : Option TraceContext) :
    (nextContext around parent).isValid = true := by
  unfold nextContext
  cases hparent : parent.filter (·.isValid) with
  | none => exact Bool.and_eq_true_iff.mpr ⟨around.isValid_traceId, around.isValid_spanId⟩
  | some context =>
    have hvalid := Bool.and_eq_true_iff.mp (Option.filter_eq_some_iff.mp hparent).2
    exact Bool.and_eq_true_iff.mpr ⟨hvalid.1, around.isValid_spanId⟩

/-- The identity of a span that continues a valid context, under a sampler that follows the
parent. -/
lemma nextContext_of_follows (hfollows : FollowsParent around.sampler)
    (hvalid : context.isValid = true) :
    nextContext around (some context) =
      { traceId := context.traceId, spanId := around.spanId, parentSpanId := some context.spanId,
        traceFlags := context.traceFlags } := by
  have hvalid' : (SpanContext.ofTraceContext context).isValid = true := hvalid
  have hsampled := hfollows.currentSampler_eq hvalid' context.traceId
  have hflags := sampledFlag_stable context.traceFlags
  rw [nextContext_of_valid hvalid]
  simp only [applySampling, makeChildContextOfTrace, hsampled]
  exact congrArg (SpanContext.mk _ _ _) hflags

/-- A span that continues a valid context and takes its tracestate belongs to its trace. -/
lemma sharesTrace_of_continues {span : Span} (hfollows : FollowsParent around.sampler)
    (hvalid : context.isValid = true)
    (hspan : span.spanContext = nextContext around (some context))
    (htracestate : span.tracestate = context.tracestate) :
    SharesTrace context span ∧ span.spanContext.parentSpanId = some context.spanId ∧
      span.context.isValid = true := by
  have hfields := hspan.trans (nextContext_of_follows hfollows hvalid)
  refine ⟨⟨?_, ?_, htracestate⟩, ?_, ?_⟩
  · rw [hfields]
  · rw [hfields]
  · rw [hfields]
  · rw [Span.context, SpanContext.isValid_toTraceContext, hspan]
    exact isValid_nextContext _ _

/-- A valid current context reaches the other service without its parent. -/
lemma receive_of_current (hcurrent : currentContext state = some context)
    (hvalid : context.isValid = true) :
    receive state = some { context with parentSpanId := none } := by
  have hextract := (denotesContext_injectTraceparent hvalid).extractTraceparent_eq
  simp only [receive, hcurrent, Option.bind_eq_bind, Option.bind_some, hextract]
  rfl

/-- A step from a valid current context: it succeeds, the span continues the context, and its
context is valid and the current one. -/
lemma Hop.run_of_current {hop : Hop} (hfollows : FollowsParent hop.around.sampler)
    (hcurrent : currentContext state = some context) (hvalid : context.isValid = true) :
    ∃ span state', hop.run state = some (span, state') ∧
      currentContext state' = some span.context ∧ SharesTrace context span ∧
      span.spanContext.parentSpanId = some context.spanId ∧ span.context.isValid = true := by
  cases hop with
  | nested around name =>
    refine ⟨_, _, rfl, currentContext_startSpan, ?_⟩
    apply sharesTrace_of_continues hfollows hvalid
    · rw [spanContext_startSpan, hcurrent]
      rfl
    · rw [tracestate_startSpan, hcurrent]
      rfl
  | remote around name thread =>
    let inbound : TraceContext := { context with parentSpanId := none }
    have hinbound : inbound.isValid = true := hvalid
    have hrun : (Hop.remote around name thread).run state =
        some ((startServerSpan around name inbound thread).1.span,
          (startServerSpan around name inbound thread).2) := by
      rw [Hop.run, receive_of_current hcurrent hvalid]
      rfl
    refine ⟨_, _, hrun, currentContext_startServerSpan, ?_⟩
    obtain ⟨⟨htraceId, hflags, htracestate⟩, hparent, hspan⟩ :=
      sharesTrace_of_continues hfollows hinbound spanContext_startServerSpan
        (tracestate_startServerSpan.trans (if_pos hinbound))
    exact ⟨⟨htraceId, hflags, htracestate⟩, hparent, hspan⟩

/-- What holds of the spans of a chain that continues a span. -/
structure FollowsTrace (first : Span) (hops : List Hop) (spans : List Span) : Prop where
  length : spans.length = hops.length
  sharesTrace : ∀ span ∈ spans, SharesTrace first.context span
  parents : List.IsChain IsParent (first :: spans)

/-- A chain of any length from a valid current context, that of a span. -/
lemma followsTrace_of_current {first : Span} {hops : List Hop}
    (hfollows : ∀ hop ∈ hops, FollowsParent hop.around.sampler)
    (hcurrent : currentContext state = some first.context)
    (hvalid : first.context.isValid = true) :
    ∃ spans, chainSpans hops state = some spans ∧ FollowsTrace first hops spans := by
  induction hops generalizing state first with
  | nil => exact ⟨[], rfl, rfl, by simp, List.IsChain.singleton _⟩
  | cons hop hops ih =>
    obtain ⟨span, state', hrun, hcurrent', hshares, hparent, hvalid'⟩ :=
      Hop.run_of_current (hfollows hop List.mem_cons_self) hcurrent hvalid
    obtain ⟨spans, hspans, hlength, hshares', hparents⟩ :=
      ih (fun hop hmem => hfollows hop (List.mem_cons_of_mem _ hmem)) hcurrent' hvalid'
    refine ⟨span :: spans, ?_, ?_, ?_, ?_⟩
    · simp [chainSpans, hrun, hspans]
    · simp [hlength]
    · intro later hmem
      rcases List.mem_cons.mp hmem with rfl | hmem
      · exact hshares
      · obtain ⟨htraceId, hflags, htracestate⟩ := hshares' later hmem
        exact ⟨htraceId.trans hshares.traceId, hflags.trans hshares.traceFlags,
          htracestate.trans hshares.tracestate⟩
    · exact List.isChain_cons_cons.mpr ⟨hparent, hparents⟩

/-- Every extraction of a chain succeeds, all its spans share the trace of the first one, and each
span has the one before it as its parent. -/
theorem chain_followsTrace (first : Start) (state : CurrentContextState) (hops : List Hop)
    (hfollows : ∀ hop ∈ hops, FollowsParent hop.around.sampler) :
    ∃ spans, chainSpans hops (first.run state).2 = some spans ∧
      FollowsTrace (first.run state).1.span hops spans := by
  apply followsTrace_of_current hfollows Start.currentContext_run
  rw [Span.context, SpanContext.isValid_toTraceContext]
  cases first with
  | startSpan around name =>
    rw [Start.run, spanContext_startSpan]
    exact isValid_nextContext _ _
  | startServerSpan around name parent =>
    rw [Start.run, spanContext_startServerSpan]
    exact isValid_nextContext _ _

/-- A request through two services, with a nested span in each. -/
theorem chain_followsTrace_sample :
    ∃ spans, chainSpans [.nested (sampleSurroundings 2 (by decide)) (ascii "a"),
        .remote { sampleSurroundings 3 (by decide) with sampler := some (ParentBasedSampler none) }
          (ascii "b") {},
        .nested (sampleSurroundings 4 (by decide)) (ascii "c")]
        ((Start.startSpan (sampleSurroundings 1 (by decide)) []).run {}).2 = some spans ∧
      FollowsTrace ((Start.startSpan (sampleSurroundings 1 (by decide)) []).run {}).1.span
        [.nested (sampleSurroundings 2 (by decide)) (ascii "a"),
          .remote
            { sampleSurroundings 3 (by decide) with sampler := some (ParentBasedSampler none) }
            (ascii "b") {},
          .nested (sampleSurroundings 4 (by decide)) (ascii "c")] spans := by
  apply chain_followsTrace
  intro hop hmem
  simp only [List.mem_cons, List.not_mem_nil, or_false] at hmem
  rcases hmem with rfl | rfl | rfl
  · exact Or.inl rfl
  · exact Or.inr ⟨none, rfl⟩
  · exact Or.inl rfl

end GalayTracing
