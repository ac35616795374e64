import Mathlib.Data.Fintype.Defs
import GalayTracing.BatchSpanProcessor.Callers
import GalayTracing.BatchSpanProcessor.WorkerLoop

/-!
# The processor as a transition system

Any finite number of calling threads and the worker interleave their atomic operations over the
shared memory, and the clock advances at any moment.  The history of a run is the list of the
operations performed, with the values they observed; the second half of the file reads off the
histories what the callers and the exporter see: the spans given, accepted, dropped and rejected,
and the batches handed to the exporter.
-/

namespace GalayTracing

variable {ι α : Type}

/-- One step of the system: an atomic operation of a calling thread or of the worker, or a later
reading of the clock. -/
inductive Act (ι α : Type)
  /-- Thread `t` performs an operation of `onEnd`. -/
  | onEnd (t : ι) (a : OnEndAct α)
  /-- Thread `t` performs an operation of `forceFlush`. -/
  | forceFlush (t : ι) (a : ForceFlushAct)
  /-- Thread `t` performs an operation of `shutdown`. -/
  | shutdown (t : ι) (a : ShutdownAct)
  /-- The worker performs an operation. -/
  | worker (a : WorkerAct ι α)
  /-- The clock reads `now`. -/
  | tick (now : ℤ)
  deriving DecidableEq

/-- The state after the constructor: nobody is inside, and the worker waits. -/
def initial : State ι α where
  sh := {}
  pc := fun _ => .idle
  worker := .wait

variable [DecidableEq ι] [DecidableEq α]

/-- The successor of a state under one step. -/
def step (P : Processor α) (s : State ι α) : Act ι α → Option (State ι α)
  | .onEnd t a => s.threadStep t (onEndCommand P t a)
  | .forceFlush t a => s.threadStep t (forceFlushCommand t a)
  | .shutdown t a => s.threadStep t (shutdownCommand P a)
  | .worker a => s.workerStep (workerCommand P a)
  | .tick now =>
    if s.sh.now ≤ now ∧ now ≤ timePointMax then some { s with sh := { s.sh with now := now } }
    else none

/-- The processor `P`, called by the threads `ι`. -/
def system (ι : Type) [DecidableEq ι] (P : Processor α) : Lts (State ι α) (Act ι α) where
  init := initial
  step := step P

/-- The threads of the concrete runs. -/
inductive Thread
  /-- The first thread. -/
  | t₁
  /-- The second thread. -/
  | t₂
  /-- The third thread. -/
  | t₃
  deriving DecidableEq

instance : Fintype Thread := ⟨{.t₁, .t₂, .t₃}, fun t => by cases t <;> decide⟩

/-- A processor of given sizes and mode with an exporter, all of whose spans are sampled; concrete
runs of the system are runs of such processors. -/
def smallProcessor (scheduleMode : BatchSpanScheduleMode) (queueCapacity maxBatchSize : ℕ) :
    Processor ℕ where
  config := normalizeConfig { queueCapacity, maxBatchSize, scheduleMode }
  exporter := true
  sampled := fun _ => true

section Induction

variable {P : Processor α} {h : List (Act ι α)} {s s' : State ι α}

/-- A nonempty run is a run followed by one enabled step. -/
lemma run_step_iff {a : Act ι α} : (system ι P).Run (h ++ [a]) s' ↔
    ∃ s, (system ι P).Run h s ∧ step P s a = some s' :=
  (system ι P).run_concat_iff

/-- A run is extended by an enabled step. -/
lemma run_step {a : Act ι α} (hr : (system ι P).Run h s) (hs : step P s a = some s') :
    (system ι P).Run (h ++ [a]) s' :=
  run_step_iff.mpr ⟨s, hr, hs⟩

/-- Induction over the runs of the processor whose steps all meet a condition, one case for each
kind of step. -/
theorem run_induction_where {C : State ι α → Act ι α → Bool}
    {motive : ∀ h s, (system ι P).Run h s → (system ι P).StepsMeet C h → Prop}
    (nil : ∀ hc, motive [] initial (Lts.run_nil _) hc)
    (onEnd : ∀ h s s' t a (hr : (system ι P).Run h s) (hs : step P s (.onEnd t a) = some s')
      (hc : (system ι P).StepsMeet C (h ++ [.onEnd t a])), C s (.onEnd t a) = true →
      motive h s hr hc.of_append → motive (h ++ [.onEnd t a]) s' (run_step hr hs) hc)
    (forceFlush : ∀ h s s' t a (hr : (system ι P).Run h s)
      (hs : step P s (.forceFlush t a) = some s')
      (hc : (system ι P).StepsMeet C (h ++ [.forceFlush t a])), C s (.forceFlush t a) = true →
      motive h s hr hc.of_append → motive (h ++ [.forceFlush t a]) s' (run_step hr hs) hc)
    (shutdown : ∀ h s s' t a (hr : (system ι P).Run h s)
      (hs : step P s (.shutdown t a) = some s')
      (hc : (system ι P).StepsMeet C (h ++ [.shutdown t a])), C s (.shutdown t a) = true →
      motive h s hr hc.of_append → motive (h ++ [.shutdown t a]) s' (run_step hr hs) hc)
    (worker : ∀ h s s' a (hr : (system ι P).Run h s) (hs : step P s (.worker a) = some s')
      (hc : (system ι P).StepsMeet C (h ++ [.worker a])), C s (.worker a) = true →
      motive h s hr hc.of_append → motive (h ++ [.worker a]) s' (run_step hr hs) hc)
    (tick : ∀ h s s' now (hr : (system ι P).Run h s) (hs : step P s (.tick now) = some s')
      (hc : (system ι P).StepsMeet C (h ++ [.tick now])), C s (.tick now) = true →
      motive h s hr hc.of_append → motive (h ++ [.tick now]) s' (run_step hr hs) hc)
    (hr : (system ι P).Run h s) (hc : (system ι P).StepsMeet C h) : motive h s hr hc := by
  induction hr, hc using Lts.run_induction_where with
  | nil hc => exact nil hc
  | concat h a s s' hr hs hc hC ih =>
    cases a with
    | onEnd t a => exact onEnd h s s' t a hr hs hc hC ih
    | forceFlush t a => exact forceFlush h s s' t a hr hs hc hC ih
    | shutdown t a => exact shutdown h s s' t a hr hs hc hC ih
    | worker a => exact worker h s s' a hr hs hc hC ih
    | tick now => exact tick h s s' now hr hs hc hC ih

/-- Induction over the runs of the processor, with the kinds of steps taken together. -/
theorem run_induction_step {motive : ∀ h s, (system ι P).Run h s → Prop}
    (nil : motive [] initial (Lts.run_nil _))
    (concat : ∀ h a s s' (hr : (system ι P).Run h s) (hs : step P s a = some s'),
      motive h s hr → motive (h ++ [a]) s' (run_step hr hs))
    (hr : (system ι P).Run h s) : motive h s hr :=
  Lts.run_induction nil concat hr

/-- Induction over the runs of the processor, one case for each kind of step. -/
theorem run_induction {motive : ∀ h s, (system ι P).Run h s → Prop}
    (nil : motive [] initial (Lts.run_nil _))
    (onEnd : ∀ h s s' t a (hr : (system ι P).Run h s) (hs : step P s (.onEnd t a) = some s'),
      motive h s hr → motive (h ++ [.onEnd t a]) s' (run_step hr hs))
    (forceFlush : ∀ h s s' t a (hr : (system ι P).Run h s)
      (hs : step P s (.forceFlush t a) = some s'),
      motive h s hr → motive (h ++ [.forceFlush t a]) s' (run_step hr hs))
    (shutdown : ∀ h s s' t a (hr : (system ι P).Run h s)
      (hs : step P s (.shutdown t a) = some s'),
      motive h s hr → motive (h ++ [.shutdown t a]) s' (run_step hr hs))
    (worker : ∀ h s s' a (hr : (system ι P).Run h s) (hs : step P s (.worker a) = some s'),
      motive h s hr → motive (h ++ [.worker a]) s' (run_step hr hs))
    (tick : ∀ h s s' now (hr : (system ι P).Run h s) (hs : step P s (.tick now) = some s'),
      motive h s hr → motive (h ++ [.tick now]) s' (run_step hr hs))
    (hr : (system ι P).Run h s) : motive h s hr := by
  induction hr using run_induction_step with
  | nil => exact nil
  | concat h a s s' hr hs ih =>
    cases a with
    | onEnd t a => exact onEnd h s s' t a hr hs ih
    | forceFlush t a => exact forceFlush h s s' t a hr hs ih
    | shutdown t a => exact shutdown h s s' t a hr hs ih
    | worker a => exact worker h s s' a hr hs ih
    | tick now => exact tick h s s' now hr hs ih

end Induction

/-! ### What the histories record -/

section History

/-- The sampled spans thread `t` gave to `onEnd`, in order. -/
def given (P : Processor α) (t : ι) (h : List (Act ι α)) : List α :=
  h.filterMap fun
    | .onEnd t' (.call span) => if t' = t ∧ P.sampled span then some span else none
    | _ => none

/-- The spans of thread `t` that were accepted, in order. -/
def accepted (t : ι) (h : List (Act ι α)) : List α :=
  h.filterMap fun
    | .onEnd t' (.enqueue span _ true) => if t' = t then some span else none
    | _ => none

/-- The spans of thread `t` that were counted in `droppedSpans`, in order. -/
def dropped (t : ι) (h : List (Act ι α)) : List α :=
  h.filterMap fun
    | .onEnd t' (.drop span) => if t' = t then some span else none
    | _ => none

/-- The spans of thread `t` that were rejected because of a shutdown request, in order. -/
def rejected (t : ι) (h : List (Act ι α)) : List α :=
  h.filterMap fun
    | .onEnd t' (.closedSub span) => if t' = t then some span else none
    | _ => none

/-- The batches handed to `exportSpans`, in order. -/
def exportCalls (h : List (Act ι α)) : List (List (ι × α)) :=
  h.filterMap fun
    | .worker (.callExport _ batch) => some batch
    | _ => none

/-- The answers of the completed `exportSpans` calls, in order. -/
def exportAnswers (h : List (Act ι α)) : List ExportResult :=
  h.filterMap fun
    | .worker (.exportReturn _ _ result) => some result
    | _ => none

/-- The spans of thread `t` handed to `exportSpans`, in order. -/
def exported (t : ι) (h : List (Act ι α)) : List α :=
  ProducerQueue.ofProducer t (exportCalls h).flatten

end History

end GalayTracing
