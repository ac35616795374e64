import GalayTracing.BatchSpanProcessor.Refinement
import GalayTracing.Kernel.TraceForest

/-!
# Traces are exported as a whole

Each service hands its spans to a processor of its own, and each processor looks at the flags of a
span to decide whether to export it.  No processor knows what the others do.  That a trace is
exported as a whole or not at all is due to the propagation of the flags: where all samplers follow
the parent, the spans of a trace have the flags of its origin.

So the decision about a trace is made once, at its origin.  If it is to sample, every processor that
has stopped has exported all spans of the trace that were given to it, up to those it has counted as
dropped or has rejected; otherwise no processor ever exports any.
-/

namespace GalayTracing

open Ancestry

/-- The processor of spans with a configuration and an exporter. -/
def Processor.ofSpans (config : BatchSpanProcessorConfig) : Processor Span where
  config := normalizeConfig config
  exporter := true
  sampled := fun span => span.spanContext.sampled

/-- The span has the context of one that was started in the trace that begins at the origin. -/
def InTrace (nodes : List TraceNode) (origin : TraceNode) (span : Span) : Prop :=
  ∃ sampler started, Descends TraceNode.Continues nodes origin (.started sampler started) ∧
    started.spanContext = span.spanContext

variable {ι α θ : Type} [DecidableEq ι]

/-- The spans that thread `t` passes to `onEnd`, sampled or not, in order. -/
def offered (t : ι) (h : List (Act ι α)) : List α :=
  h.filterMap fun
    | .onEnd t' (.call span) => if t' = t then some span else none
    | _ => none

/-- What a run of a processor has done with the spans of a trace: if the trace is sampled, they have
been exported, dropped or rejected, or are still inside a call; otherwise none of them has been
handed to the exporter. -/
structure ExportedWhole [DecidableEq α] (trace : α → Prop) (isSampled : Bool)
    (h : List (Act ι α)) (s : State ι α) : Prop where
  all : isSampled = true → ∀ t span, trace span → (offered t h).count span =
    (completed t h).count span + (dropped t h).count span + (rejected t h).count span +
      (s.pc t).inside.count span
  none : isSampled = false → ∀ t span, trace span → span ∉ exported t h

/-! ### One decision about all spans of a trace -/

section Processor

variable [DecidableEq α] {P : Processor α} {h : List (Act ι α)} {s : State ι α}
  {t : ι} {trace : α → Prop} {isSampled : Bool}

omit [DecidableEq α] in
/-- The sampled spans are selected from those that are offered. -/
lemma given_eq_filter (P : Processor α) (t : ι) (h : List (Act ι α)) :
    given P t h = (offered t h).filter P.sampled := by
  induction h with
  | nil => rfl
  | cons a h ih =>
    have hgiven : given P t (a :: h) = given P t [a] ++ given P t h := given_append t [a] h
    have hoffered : offered t (a :: h) = offered t [a] ++ offered t h :=
      List.filterMap_append (l := [a])
    rw [hgiven, hoffered, List.filter_append, ih]
    refine congrArg (· ++ _) ?_
    rcases a with ⟨t', a⟩ | _ | _ | _ | _
    case onEnd =>
      cases a with
      | call span =>
        by_cases ht : t' = t <;> by_cases hspan : P.sampled span = true <;>
          simp [given, offered, ht, hspan]
      | _ => rfl
    all_goals rfl

/-- Only sampled spans are handed to the exporter. -/
lemma sampled_of_exported (hexp : P.exporter = true) (hr : (system ι P).Run h s) {span : α}
    (hspan : span ∈ exported t h) : P.sampled span = true := by
  have haccepted : span ∈ accepted t h := by
    rw [accepted_eq_of_run hexp hr t, List.append_assoc]
    exact List.mem_append_left _ hspan
  have hsettled := (accepted_sublist_settled t h).subset haccepted
  refine sampled_of_given (t := t) (h := h) ?_
  rw [given_eq_of_run hr t]
  exact List.mem_append_left _ hsettled

variable [Fintype ι]

/-- A processor that decides alike about all spans of a trace exports it as a whole or not at
all. -/
lemma exportedWhole_of_run (hexp : P.exporter = true) (hr : (system ι P).Run h s)
    (hstopped : s.sh.workerStopped = true)
    (hsame : ∀ span, trace span → P.sampled span = isSampled) :
    ExportedWhole trace isSampled h s where
  all hsampled t span hspan := by
    have hdecision : P.sampled span = true := (hsame span hspan).trans hsampled
    rw [← List.count_filter hdecision, ← given_eq_filter, given_eq_of_run hr t, List.count_append,
      count_settled, completed_of_workerStopped hexp hr hstopped t]
  none hunsampled t span hspan hexported := by
    have hdecision : P.sampled span = false := (hsame span hspan).trans hunsampled
    exact Bool.false_ne_true (hdecision.symm.trans (sampled_of_exported hexp hr hexported))

end Processor

/-! ### The traces of all services -/

/-- The spans of a trace have the flags of its origin. -/
lemma InTrace.sampled {nodes : List TraceNode} {origin : TraceNode} {span : Span}
    (hfollows : ∀ node ∈ nodes, node.FollowsParent) (htrace : InTrace nodes origin span) :
    span.spanContext.sampled = origin.context.sampled := by
  obtain ⟨sampler, started, hpath, hcontext⟩ := htrace
  have hflags : started.spanContext.traceFlags = origin.context.traceFlags :=
    hpath.eq_of_child (f := fun n => n.context.traceFlags) fun _ _ node hnode hc =>
      hc.takes_over.2.2 (hfollows node hnode)
  rw [← hcontext, SpanContext.sampled, TraceContext.sampled, hflags]

/-- Whatever the threads and services do under samplers that follow the parent, and in every run of
the processor of any of them up to its stop: every span descends from the origin of its trace, and
of this trace either all spans that were given to the processor have been exported, apart from those
dropped or rejected, or none, as the flags of the origin say. -/
theorem traces_exported_whole [DecidableEq θ] [Fintype ι] {steps : List (TraceStep θ)}
    {w : World θ} (hw : (tracing θ).Run steps w) (hfollows : ∀ node ∈ w.nodes, node.FollowsParent)
    {config : BatchSpanProcessorConfig} {h : List (Act ι Span)} {s : State ι Span}
    (hr : (system ι (.ofSpans config)).Run h s) (hstopped : s.sh.workerStopped = true) :
    ∀ node ∈ w.nodes, ∃ origin ∈ w.nodes, origin.IsOrigin ∧
      Descends TraceNode.Continues w.nodes origin node ∧
      ExportedWhole (InTrace w.nodes origin) origin.context.sampled h s := by
  intro node hnode
  obtain ⟨origin, hmem, horigin, hpath⟩ := (accounted_of_run hw).grown.exists_origin hnode
  refine ⟨origin, hmem, horigin, hpath, ?_⟩
  exact exportedWhole_of_run rfl hr hstopped fun _ htrace => htrace.sampled hfollows

/-- The first one of two services answers a request that is sampled, the second one a request that
is not. -/
def oneSampledRequest : List (TraceStep Service) :=
  let quiet := { inboundContext with traceId := sampleId 15 9, traceFlags := 0 }
  [.outside (injectTraceparent inboundContext, injectTracestate inboundContext),
    .start .frontend
      (.startServerSpan (sampleSurroundings 11 (by decide)) (ascii "in") inboundContext),
    .outside (injectTraceparent quiet, injectTracestate quiet),
    .start .backend (.startServerSpan (sampleSurroundings 12 (by decide)) (ascii "in") quiet)]

/-- The span of the request that is sampled. -/
def answeredSpan : Span :=
  (startServerSpan (sampleSurroundings 11 (by decide)) (ascii "in") inboundContext {}).1.span

/-- The span of the request that is not sampled. -/
def quietSpan : Span :=
  { answeredSpan with
    spanContext := { answeredSpan.spanContext with
      traceId := sampleId 15 9, spanId := sampleId 7 12, traceFlags := 0 } }

/-- Both spans are given to a processor, which then is shut down; the worker exports one of them. -/
def exportOfSampled : List (Act Thread Span) :=
  [.onEnd .t₂ (.call quietSpan), .onEnd .t₁ (.call answeredSpan),
    .onEnd .t₁ (.fetchAdd answeredSpan 0), .onEnd .t₁ (.loadShutdown answeredSpan 0 false),
    .onEnd .t₁ (.enqueue answeredSpan 0 true), .shutdown .t₁ (.call 1 1000000),
    .shutdown .t₁ (.storeRequested 1000000), .shutdown .t₁ (.notifyStore 1000000),
    .shutdown .t₁ (.notifyRelease 1000000), .shutdown .t₁ (.claimJoin 1000000 false),
    .worker .waitAcquire, .worker .clearPending, .worker (.loadShutdown false true),
    .worker (.noRequest (.head false true) false), .worker (.drainClock .shutdown true true),
    .worker (.popLoad (.drain .shutdown true false) 1),
    .worker (.popBatch (.drain .shutdown true false) [(.t₁, answeredSpan)]),
    .worker (.popRelease (.drain .shutdown true false) [(.t₁, answeredSpan)]),
    .worker (.callExport (.drain .shutdown true false) [(.t₁, answeredSpan)]),
    .worker (.exportReturn (.drain .shutdown true false) [(.t₁, answeredSpan)] .kSuccess),
    .worker (.popLoad (.drain .shutdown true true) 0),
    .worker (.drainEmpty .shutdown true true true), .worker (.drainResult .shutdown true true),
    .worker (.noRequest (.drained true) false), .worker (.loadActive true 0),
    .worker (.exitEmpty true true), .worker (.noRequest (.exitTest true) false),
    .worker (.callFinalFlush true), .worker (.finalFlushReturn true true),
    .worker (.storeDrainOk true), .worker .storeStopped]

/-- The processor of the two services, for a concrete run. -/
def smallConfig : BatchSpanProcessorConfig :=
  { queueCapacity := 1, maxBatchSize := 1, scheduleMode := .kTimed }

/-- The node was made under the built-in sampler. -/
def TraceNode.isBuiltIn : TraceNode → Bool
  | .inbound _ => true
  | .started sampler _ => sampler.isNone

/-- The built-in sampler follows the parent. -/
lemma TraceNode.followsParent_of_isBuiltIn {node : TraceNode} (hnode : node.isBuiltIn = true) :
    node.FollowsParent := by
  cases node with
  | inbound context => trivial
  | started sampler span => exact Or.inl (Option.isNone_iff_eq_none.mp hnode)

/-- The four nodes of the two requests, and what the processor does with their traces. -/
theorem traces_exported_whole_oneSampledRequest :
    ∃ w s, (tracing Service).Run oneSampledRequest w ∧ w.nodes.length = 4 ∧
      (system Thread (.ofSpans smallConfig)).Run exportOfSampled s ∧
      ∀ node ∈ w.nodes, ∃ origin ∈ w.nodes, origin.IsOrigin ∧
        Descends TraceNode.Continues w.nodes origin node ∧
        ExportedWhole (InTrace w.nodes origin) origin.context.sampled exportOfSampled s := by
  obtain ⟨w, hw, hnodes⟩ := Lts.exists_run_of_any (L := tracing Service) (h := oneSampledRequest)
    (p := fun w => w.nodes.length = 4 ∧ w.nodes.all (·.isBuiltIn)) (by decide +kernel)
  obtain ⟨s, hr, hstopped⟩ := Lts.exists_run_of_any (L := system Thread (.ofSpans smallConfig))
    (h := exportOfSampled) (p := fun s => s.sh.workerStopped) (by decide +kernel)
  obtain ⟨hlength, hbuiltIn⟩ := of_decide_eq_true hnodes
  have hfollows : ∀ node ∈ w.nodes, node.FollowsParent := fun node hnode =>
    TraceNode.followsParent_of_isBuiltIn (List.all_eq_true.mp hbuiltIn node hnode)
  exact ⟨w, s, hw, hlength, hr, traces_exported_whole hw hfollows hr hstopped⟩

end GalayTracing
