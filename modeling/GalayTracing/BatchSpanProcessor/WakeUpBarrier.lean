import GalayTracing.BatchSpanProcessor.Conservation
import GalayTracing.BatchSpanProcessor.FlushBarrier

/-!
# A wake-up of the worker is a barrier

When the flush interval elapses the worker exports everything it finds, down to the last span, and
so it does after every wake-up in the mode `kOnEnd`.  A span that was accepted before such a wake-up
has therefore been handed to the exporter by the time the worker waits again, whichever way it
takes: through the ordinary drain, through the drains of flush requests, or through the shutdown
branch (`accepted_exported_of_wakeUp`).  Only a flush request whose deadline passes while the worker
drains for it sends the worker back to wait with spans left over.

From the wake-up on, the worker either owes a drain that can only end with a look at an empty queue,
or has already come by such a look.
-/

namespace GalayTracing

variable {ι α : Type}

/-- The main loop wakes up to a complete drain: because the interval has elapsed, or because every
wake-up drains completely. -/
def wakesCompletely (P : Processor α) : Act ι α → Bool
  | .worker .waitTimeout => true
  | .worker .waitAcquire => P.config.scheduleMode == .kOnEnd
  | _ => false

/-- A drain ends because its deadline has passed. -/
def drainExpires : Act ι α → Bool
  | .worker (.drainClock _ _ false) => true
  | _ => false

/-- The loop goes on until it finds the queue empty. -/
def PopSite.owing : PopSite → Bool
  | .ready drainPartial => drainPartial
  | .drain _ _ _ => true

/-- The worker cannot get back to wait without finding the queue empty, or a drain running out of
time. -/
def WorkerPc.owing (P : Processor α) : WorkerPc ι α → Bool
  | .clearPending => P.config.scheduleMode == .kOnEnd
  | .loadShutdown intervalElapsed | .dequeueRequest (.head intervalElapsed _) false =>
    intervalElapsed || P.config.scheduleMode == .kOnEnd
  | .readyCount drainPartial => drainPartial
  | .readyEmpty => true
  | .popLoad site | .popDequeue site | .popRelease site _ | .callExport site _
  | .inExport site _ => site.owing
  | .drainClock _ _ | .drainEmpty _ _ _ | .drainWait _ _ | .drainClear _ _ => true
  | _ => false

lemma owing_afterExport (P : Processor α) (success : Bool) (site : PopSite) :
    (site.afterExport success : WorkerPc ι α).owing P = site.owing := by
  cases site <;> rfl

variable [DecidableEq ι] [DecidableEq α] {P : Processor α} {s s' : State ι α}
  {h h₁ : List (Act ι α)}

/-- Everything accepted in `h₁` has been handed to the exporter. -/
def Covers (h₁ h : List (Act ι α)) : Prop := ∀ t, accepted t h₁ <+: exported t h

omit [DecidableEq α] in
/-- What was covered stays covered. -/
lemma Covers.concat (hC : Covers h₁ h) (a : Act ι α) : Covers h₁ (h ++ [a]) := by
  intro t
  rw [exported_append]
  exact (hC t).trans (List.prefix_append _ _)

/-- A worker without a batch that finds the queue empty has exported everything accepted so far. -/
lemma covers_of_empty (hexp : P.exporter = true) (hr : (system ι P).Run (h₁ ++ h) s)
    (hbatch : s.worker.holdsBatch = false) (hspans : s.sh.spans = []) : Covers h₁ (h₁ ++ h) := by
  intro t
  have haccepted := accepted_eq_of_run hexp hr t
  rw [WorkerPc.batch_eq_nil hbatch, hspans, accepted_append] at haccepted
  refine ⟨accepted t h, ?_⟩
  rw [haccepted]
  simp

variable [Fintype ι]

/-- The worker pays what it owes with a look at an empty queue. -/
lemma owing_worker {a : WorkerAct ι α} (hledger : Ledger P s)
    (hs : step P s (.worker a) = some s') (hexpires : drainExpires (Act.worker (ι := ι) a) = false)
    (howing : s.worker.owing P = true) :
    s'.worker.owing P = true ∨ s.worker.holdsBatch = false ∧ s.sh.spans = [] := by
  obtain ⟨hsource, hg, rfl⟩ := step_worker_iff.mp hs
  have hempty : s.sh.size = 0 → s.sh.spans = [] := fun h => (hledger.empty_of_size_eq_zero h).1
  rw [hsource] at howing ⊢
  clear hs hsource
  cases a with
  | noRequest site any =>
    rcases site with ⟨elapsed, requested⟩ | ok | ok
    case head =>
      cases any with
      | true => cases howing
      | false =>
        refine Or.inl ?_
        cases requested with
        | true => rfl
        | false =>
          have hdrain : (elapsed || P.config.scheduleMode == .kOnEnd) = true := howing
          simp only [workerCommand, FlushSite.afterRequests, ordinaryDrain, hdrain, if_true,
            Bool.false_eq_true, if_false]
          rfl
    all_goals cases howing
  | loadShutdown elapsed value => exact Or.inl howing
  | clearPending =>
    have hmode : (P.config.scheduleMode == .kOnEnd) = true := howing
    exact Or.inl (by simp only [workerCommand, WorkerPc.owing, hmode, Bool.or_true])
  | dequeueRequest site any caller request => exact Or.inl rfl
  | readyCount drainPartial count =>
    obtain rfl : drainPartial = true := howing
    simp only [workerCommand]
    split_ifs <;> exact Or.inl rfl
  | readyEmpty value =>
    cases value with
    | true => exact Or.inr ⟨rfl, hempty (beq_iff_eq.mp (beq_iff_eq.mp hg))⟩
    | false => exact Or.inl rfl
  | popLoad site count =>
    simp only [workerCommand]
    split_ifs with hzero
    · exact Or.inr ⟨rfl, hempty ((beq_iff_eq.mp hg).trans hzero)⟩
    · exact Or.inl howing
  | popNone site => exact Or.inr ⟨rfl, List.isEmpty_iff.mp hg⟩
  | popRelease site batch =>
    simp only [workerCommand]
    split_ifs
    · exact Or.inl howing
    · exact Or.inl ((owing_afterExport P true site).trans howing)
  | exportReturn site batch result => exact Or.inl ((owing_afterExport P _ site).trans howing)
  | drainClock site ok value =>
    cases value with
    | true => exact Or.inl rfl
    | false => cases hexpires
  | drainEmpty site ok any value =>
    cases value with
    | true => exact Or.inr ⟨rfl, hempty (beq_iff_eq.mp (beq_iff_eq.mp hg))⟩
    | false => cases any <;> exact Or.inl rfl
  | drainResult site ok value => cases howing
  | loadCount count | loadActive ok count | exitEmpty ok value => cases howing
  | _ => first | exact Or.inl howing | exact Or.inl rfl | cases howing

/-- From a wake-up on, the worker owes a complete drain or has exported everything accepted
before. -/
theorem covers_or_owing (hexp : P.exporter = true) {wake : Act ι α}
    (hwake : wakesCompletely P wake = true)
    (hr : (system ι P).Run ((h₁ ++ [wake]) ++ h) s)
    (hexpires : ∀ a ∈ h, drainExpires a = false) :
    Covers h₁ ((h₁ ++ [wake]) ++ h) ∨ s.worker.owing P = true := by
  induction hr using Lts.run_induction_from with
  | nil s hr =>
    rw [List.append_nil] at hr
    obtain ⟨s₀, -, hs⟩ := run_step_iff.mp hr
    refine Or.inr ?_
    rcases wake with _ | _ | _ | a | _
    case worker =>
      obtain ⟨-, -, rfl⟩ := step_worker_iff.mp hs
      cases a with
      | waitTimeout => rfl
      | waitAcquire => exact hwake
      | _ => cases hwake
    all_goals cases hwake
  | concat h a s s' hr hs ih =>
    replace hs : step P s a = some s' := hs
    rw [← List.append_assoc]
    rcases ih fun b hb => hexpires b (List.mem_append_left _ hb) with hcovers | howing
    · exact Or.inl (hcovers.concat a)
    · by_cases ha : ∃ b, a = .worker b
      · obtain ⟨b, rfl⟩ := ha
        rcases owing_worker (ledger_of_run hr) hs (hexpires _ (by simp)) howing with
          hstill | ⟨hbatch, hspans⟩
        · exact Or.inr hstill
        · refine Or.inl (Covers.concat ?_ _)
          rw [List.append_assoc] at hr ⊢
          exact covers_of_empty hexp hr hbatch hspans
      · refine Or.inr ?_
        have hsame : s'.worker = s.worker := by
          rcases a with ⟨t, a⟩ | ⟨t, a⟩ | ⟨t, a⟩ | a | now
          · exact (onEnd_frame hs).worker
          · exact (forceFlush_frame hs).worker
          · exact (shutdown_frame hs).worker
          · exact absurd ⟨a, rfl⟩ ha
          · obtain ⟨-, rfl⟩ := step_tick_iff.mp hs
            rfl
        rwa [hsame]

/-- With an exporter, a wake-up of the worker is a barrier: every span that was accepted before the
interval elapsed (in the mode `kOnEnd`, before any wake-up) has been handed to it when the worker
waits again or has stopped, unless a drain ran out of time on the way. -/
theorem accepted_exported_of_wakeUp (hexp : P.exporter = true) {wake : Act ι α}
    (hwake : wakesCompletely P wake = true)
    (hr : (system ι P).Run ((h₁ ++ [wake]) ++ h) s)
    (hexpires : ∀ a ∈ h, drainExpires a = false)
    (hwaits : s.worker = .wait ∨ s.worker = .stopped) (t : ι) :
    accepted t h₁ <+: exported t ((h₁ ++ [wake]) ++ h) := by
  rcases covers_or_owing hexp hwake hr hexpires with hcovers | howing
  · exact hcovers t
  · rcases hwaits with hw | hw <;> rw [hw] at howing <;> cases howing

/-- The round of a worker that finds one span when the interval elapses. -/
def timedRound : List (Act Thread ℕ) :=
  [.worker (.loadShutdown true false), .worker (.noRequest (.head true false) false),
    .worker (.readyCount true 1), .worker (.popLoad (.ready true) 1),
    .worker (.popBatch (.ready true) [(.t₁, 5)]), .worker (.popRelease (.ready true) [(.t₁, 5)]),
    .worker (.callExport (.ready true) [(.t₁, 5)]),
    .worker (.exportReturn (.ready true) [(.t₁, 5)] .kSuccess), .worker (.readyCount true 0),
    .worker (.readyEmpty true)]

/-- One span is accepted, the interval elapses, and the worker exports the span and waits again. -/
theorem accepted_exported_timedRound :
    accepted .t₁ flushAfterPush_before <+:
      exported .t₁ ((flushAfterPush_before ++ [.worker .waitTimeout]) ++ timedRound) := by
  obtain ⟨s, hr, hwaits⟩ := Lts.exists_run_of_any (L := system Thread (smallProcessor .kTimed 2 1))
    (h := (flushAfterPush_before ++ [.worker .waitTimeout]) ++ timedRound)
    (p := fun s => decide (s.worker = .wait)) (by decide)
  exact accepted_exported_of_wakeUp rfl rfl hr (by decide) (Or.inl (of_decide_eq_true hwaits)) .t₁

end GalayTracing
