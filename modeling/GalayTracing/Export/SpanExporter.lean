import GalayTracing.BatchSpanProcessor.ShutdownDrain
import GalayTracing.Kernel.Span

/-!
# The interface of the exporters

A processor uses its exporter through three calls.  The worker makes the calls of `exportSpans` and
of `forceFlush`, one at a time; the call of `shutdown` is made by a caller of the processor's own
`shutdown`.  The steps of the processor at which such a call starts or returns are where an exporter
is linked to it.
-/

namespace GalayTracing

namespace SpanExporter

/-- The calls of an exporter. -/
inductive Call
  /-- `exportSpans(spans)`. -/
  | exportSpans (spans : List Span)
  /-- `forceFlush`. -/
  | forceFlush
  /-- `shutdown`. -/
  | shutdown
  deriving DecidableEq

/-- What the calls return. -/
inductive Answer
  /-- The result of an `exportSpans`. -/
  | result (value : ExportResult)
  /-- The answer of a `forceFlush` or of a `shutdown`. -/
  | flag (value : Bool)
  deriving DecidableEq

/-- What an exporter that the threads `κ` use sees of them. -/
inductive Event (κ : Type)
  /-- Thread `t` calls. -/
  | call (t : κ) (c : Call)
  /-- The call of thread `t` returns. -/
  | ret (t : κ) (c : Call) (a : Answer)
  deriving DecidableEq

end SpanExporter

open SpanExporter

variable {ι : Type}

/-- What the exporter sees of a step of the processor; the worker is its thread `none`. -/
def exporterEvents : Act ι Span → List (Event (Option ι))
  | .worker (.callExport _ batch) => [.call none (.exportSpans (batch.map Prod.snd))]
  | .worker (.exportReturn _ batch result) =>
    [.ret none (.exportSpans (batch.map Prod.snd)) (.result result)]
  | .worker (.callFlush _ _ _ _) | .worker (.callFinalFlush _) => [.call none .forceFlush]
  | .worker (.flushReturn _ _ _ answer) | .worker (.finalFlushReturn _ answer) =>
    [.ret none .forceFlush (.flag answer)]
  | .shutdown t (.callExporter _ _) => [.call (some t) .shutdown]
  | .shutdown t (.exporterReturn _ _ answer) => [.ret (some t) .shutdown (.flag answer)]
  | _ => []

/-- The call of the exporter in which the worker is. -/
def WorkerPc.exporterCall : WorkerPc ι Span → Option Call
  | .inExport _ batch => some (.exportSpans (batch.map Prod.snd))
  | .inFlush _ _ _ | .inFinalFlush _ => some .forceFlush
  | _ => none

variable [DecidableEq ι] {P : Processor Span} {p p' : State ι Span}

/-- The worker enters the exporter at a step that the exporter sees. -/
lemma exporterCall_target {a : WorkerAct ι Span} (hnil : exporterEvents (Act.worker a) = []) :
    (workerCommand P a).target.exporterCall = none := by
  cases a with
  | popNone site => cases site <;> rfl
  | popLoad site count =>
    simp only [workerCommand]
    cases site <;> split_ifs <;> rfl
  | popRelease site batch =>
    simp only [workerCommand]
    cases site <;> split_ifs <;> rfl
  | noRequest site any =>
    cases site <;> simp only [workerCommand, FlushSite.afterRequests, ordinaryDrain] <;>
      (try split_ifs) <;> rfl
  | drainResult site ok value =>
    cases site <;> simp only [workerCommand, DrainSite.afterDrain] <;> (try split_ifs) <;> rfl
  | callExport | exportReturn | callFlush | flushReturn | callFinalFlush | finalFlushReturn =>
    cases hnil
  | _ =>
    simp only [workerCommand]
    (try split_ifs) <;> rfl

/-- The worker leaves the exporter at a step that the exporter sees. -/
lemma exporterCall_source {a : WorkerAct ι Span} (hnil : exporterEvents (Act.worker a) = []) :
    (workerCommand P a).source.exporterCall = none := by
  cases a <;> first | rfl | cases hnil

/-- A step that the exporter does not see leaves the worker in its call of it. -/
lemma exporterCall_of_step {a : Act ι Span} (hs : step P p a = some p')
    (hnil : exporterEvents a = []) : p'.worker.exporterCall = p.worker.exporterCall := by
  rcases a with ⟨t, a⟩ | ⟨t, a⟩ | ⟨t, a⟩ | a | now
  · rw [(onEnd_frame hs).worker]
  · rw [(forceFlush_frame hs).worker]
  · rw [(shutdown_frame hs).worker]
  · obtain ⟨hsource, -, rfl⟩ := step_worker_iff.mp hs
    rw [hsource, exporterCall_source hnil]
    exact exporterCall_target hnil
  · obtain ⟨-, rfl⟩ := step_tick_iff.mp hs
    rfl

omit [DecidableEq ι] in
/-- A step that the exporter does not see hands nothing to it and takes no answer from it. -/
lemma exportCalls_of_nil {a : Act ι Span} (hnil : exporterEvents a = []) :
    exportCalls [a] = [] ∧ exportAnswers [a] = [] := by
  rcases a with _ | _ | _ | a | _
  case worker => cases a <;> first | exact ⟨rfl, rfl⟩ | cases hnil
  all_goals exact ⟨rfl, rfl⟩

/-! ### The life of a processor with one span -/

/-- A processor of spans with one place. -/
def spanProcessor : Processor Span where
  config := normalizeConfig { queueCapacity := 1, maxBatchSize := 1, scheduleMode := .kTimed }
  exporter := true
  sampled := fun span => span.spanContext.sampled

/-- A sampled span. -/
def sampledSpan : Span := { spanContext := { traceFlags := 1 } }

/-- The span is pushed, the shutdown is requested, and the worker calls `exportSpans`. -/
def pushAndDrain : List (Act Thread Span) :=
  [.onEnd .t₁ (.call sampledSpan), .onEnd .t₁ (.fetchAdd sampledSpan 0),
    .onEnd .t₁ (.loadShutdown sampledSpan 0 false), .onEnd .t₁ (.enqueue sampledSpan 0 true),
    .shutdown .t₁ (.call 1 1000000), .shutdown .t₁ (.storeRequested 1000000),
    .shutdown .t₁ (.notifyStore 1000000), .shutdown .t₁ (.notifyRelease 1000000),
    .shutdown .t₁ (.claimJoin 1000000 false), .worker .waitAcquire, .worker .clearPending,
    .worker (.loadShutdown false true), .worker (.noRequest (.head false true) false),
    .worker (.drainClock .shutdown true true), .worker (.popLoad (.drain .shutdown true false) 1),
    .worker (.popBatch (.drain .shutdown true false) [(.t₁, sampledSpan)]),
    .worker (.popRelease (.drain .shutdown true false) [(.t₁, sampledSpan)]),
    .worker (.callExport (.drain .shutdown true false) [(.t₁, sampledSpan)])]

/-- The export has been successful, and the worker calls `forceFlush` on its way out. -/
def exportedToFlush : List (Act Thread Span) :=
  [.worker (.exportReturn (.drain .shutdown true false) [(.t₁, sampledSpan)] .kSuccess),
    .worker (.popLoad (.drain .shutdown true true) 0),
    .worker (.drainEmpty .shutdown true true true), .worker (.drainResult .shutdown true true),
    .worker (.noRequest (.drained true) false), .worker (.loadActive true 0),
    .worker (.exitEmpty true true), .worker (.noRequest (.exitTest true) false),
    .worker (.callFinalFlush true)]

/-- The flush has been successful, the worker stops, and the caller closes the exporter. -/
def flushedToClose : List (Act Thread Span) :=
  [.worker (.finalFlushReturn true true), .worker (.storeDrainOk true), .worker .storeStopped,
    .shutdown .t₁ (.join 1000000), .shutdown .t₁ (.loadDrainOk 1000000 true true),
    .shutdown .t₁ (.claimExporter 1000000 true false), .shutdown .t₁ (.callExporter 1000000 true)]

/-- The exporter is closed, and `shutdown` returns `true`. -/
def closedToReturn : List (Act Thread Span) :=
  [.shutdown .t₁ (.exporterReturn 1000000 true true), .shutdown .t₁ (.ret 1000000 true true)]

end GalayTracing
