import GalayTracing.BatchSpanProcessor.Frames

/-!
# The wake-up channel of the worker

Callers wake the worker by releasing the semaphore `signal`, and the worker acquires it in its
main loop and in the inner wait of a drain.  A caller that is bound to release the semaphore
counts as a wake-up that is on its way; `wakeUps w` adds such callers, weighted by `w`, to the
permits of the semaphore, and the lemmas of the first part say how a step changes the sum.

`notify` releases the semaphore only when it is the one that sets `signalPending`, and otherwise
relies on whoever has set it before.  The channel invariant is what makes this sound: while the
flag is set, the semaphore has a permit, or a caller is about to release one, or the worker has
just taken one and is about to clear the flag.
-/

namespace GalayTracing

variable {ι α : Type}

/-! ### Permits -/

/-- The permits an operation of `onEnd` releases. -/
def OnEndAct.releases : OnEndAct α → ℕ
  | .releaseSignal => 1
  | _ => 0

/-- The permits an operation of `forceFlush` releases. -/
def ForceFlushAct.releases : ForceFlushAct → ℕ
  | .leaveRelease _ | .notifyRelease _ => 1
  | _ => 0

/-- The permits an operation of `shutdown` releases. -/
def ShutdownAct.releases : ShutdownAct → ℕ
  | .notifyRelease _ => 1
  | _ => 0

/-- The permits an operation of the worker acquires. -/
def WorkerAct.acquires : WorkerAct ι α → ℕ
  | .waitAcquire | .drainAcquire _ _ => 1
  | _ => 0

variable [DecidableEq ι] [DecidableEq α] {P : Processor α} {s s' : State ι α}
  {h : List (Act ι α)} {t : ι}

lemma signal_onEnd {a : OnEndAct α} (hs : step P s (.onEnd t a) = some s') :
    s'.sh.signal = s.sh.signal + a.releases := by
  obtain ⟨-, -, rfl⟩ := step_onEnd_iff.mp hs
  rcases a with _ | _ | _ | _ | _ | ⟨_, _, _ | _⟩ | _ | _ | _ | _ <;> rfl

lemma signal_forceFlush {a : ForceFlushAct} (hs : step P s (.forceFlush t a) = some s') :
    s'.sh.signal = s.sh.signal + a.releases := by
  obtain ⟨-, -, rfl⟩ := step_forceFlush_iff.mp hs
  rcases a with _ | _ | _ | _ | _ | ⟨_, _ | _⟩ | _ | _ | _ | _ | _ | _ | _ | _ | _ | _ <;> rfl

lemma signal_shutdown {a : ShutdownAct} (hs : step P s (.shutdown t a) = some s') :
    s'.sh.signal = s.sh.signal + a.releases := by
  obtain ⟨-, -, rfl⟩ := step_shutdown_iff.mp hs
  cases a <;> rfl

lemma signal_worker {a : WorkerAct ι α} (hs : step P s (.worker a) = some s') :
    s.sh.signal = s'.sh.signal + a.acquires := by
  obtain ⟨-, hg, rfl⟩ := step_worker_iff.mp hs
  cases a with
  | waitAcquire => exact (Nat.sub_add_cancel (of_decide_eq_true hg)).symm
  | drainAcquire site ok => exact (Nat.sub_add_cancel (of_decide_eq_true hg)).symm
  | _ => rfl

/-! ### Wake-ups that are there or on their way -/

variable [Fintype ι]

/-- The permits of the semaphore, and the callers, weighted by `w`. -/
def wakeUps (w : CallerPc α → ℕ) (s : State ι α) : ℕ := s.sh.signal + poolSum w s.pc

variable {w : CallerPc α → ℕ}

lemma wakeUps_onEnd {a : OnEndAct α} (hs : step P s (.onEnd t a) = some s') :
    wakeUps w s' + w (onEndCommand P t a).source =
      wakeUps w s + a.releases + w (onEndCommand P t a).target := by
  have hsum := poolSum_update w s.pc t (onEndCommand P t a).target
  rw [← onEnd_pc_eq hs, (step_onEnd_iff.mp hs).1] at hsum
  have hsignal := signal_onEnd hs
  unfold wakeUps
  omega

lemma wakeUps_forceFlush {a : ForceFlushAct} (hs : step P s (.forceFlush t a) = some s') :
    wakeUps w s' + w (forceFlushCommand (ι := ι) t a).source =
      wakeUps w s + a.releases + w (forceFlushCommand (ι := ι) t a).target := by
  have hsum := poolSum_update w s.pc t (forceFlushCommand (ι := ι) t a).target
  rw [← forceFlush_pc_eq hs, (step_forceFlush_iff.mp hs).1] at hsum
  have hsignal := signal_forceFlush hs
  unfold wakeUps
  omega

lemma wakeUps_shutdown {a : ShutdownAct} (hs : step P s (.shutdown t a) = some s') :
    wakeUps w s' + w (shutdownCommand (ι := ι) P a).source =
      wakeUps w s + a.releases + w (shutdownCommand (ι := ι) P a).target := by
  have hsum := poolSum_update w s.pc t (shutdownCommand (ι := ι) P a).target
  rw [← shutdown_pc_eq hs, (step_shutdown_iff.mp hs).1] at hsum
  have hsignal := signal_shutdown hs
  unfold wakeUps
  omega

lemma wakeUps_worker {a : WorkerAct ι α} (hs : step P s (.worker a) = some s') :
    wakeUps w s = wakeUps w s' + a.acquires := by
  have hsignal := signal_worker hs
  unfold wakeUps
  rw [(worker_frame hs).pc]
  omega

lemma wakeUps_tick {now : ℤ} (hs : step P s (.tick now) = some s') :
    wakeUps w s' = wakeUps w s := by
  obtain ⟨-, rfl⟩ := step_tick_iff.mp hs
  rfl

omit [DecidableEq ι] [DecidableEq α] in
/-- Points that weigh more under `w'` than under `w` make for more wake-ups. -/
lemma wakeUps_le_wakeUps {w' : CallerPc α → ℕ} (hw : ∀ p, w p ≤ w' p) (s : State ι α) :
    wakeUps w s ≤ wakeUps w' s :=
  Nat.add_le_add_left (Finset.sum_le_sum fun t _ => hw (s.pc t)) _

/-! ### The channel -/

/-- The caller is about to release the semaphore. -/
def CallerPc.releasing : CallerPc α → ℕ
  | .onEnd .releaseSignal | .forceFlush (.leaveRelease _) | .forceFlush (.notifyRelease _)
  | .shutdown (.notifyRelease _) => 1
  | _ => 0

/-- The worker has taken a permit and is about to clear the flag. -/
def WorkerPc.clearing : WorkerPc ι α → ℕ
  | .clearPending | .drainClear _ _ => 1
  | _ => 0

/-- While the flag is set, a permit is there or on its way, or the flag is about to be cleared. -/
def Channel (s : State ι α) : Prop :=
  s.sh.signalPending = true → 1 ≤ wakeUps CallerPc.releasing s + s.worker.clearing

/-- The caller of `onEnd` that sets the flag releases the semaphore next. -/
lemma Channel.onEnd {a : OnEndAct α} (hC : Channel s) (hs : step P s (.onEnd t a) = some s') :
    Channel s' := by
  have hw := wakeUps_onEnd (w := CallerPc.releasing) hs
  have hworker := (onEnd_frame hs).worker
  obtain ⟨-, hg, hs'⟩ := step_onEnd_iff.mp hs
  intro hpending
  by_cases hold : s.sh.signalPending = true
  · have hpermit := hC hold
    have hle : (onEndCommand P t a).source.releasing ≤
        a.releases + (onEndCommand P t a).target.releasing := by
      rcases a with _ | _ | _ | _ | _ | ⟨_, _, _ | _⟩ | _ | _ | _ | _ <;>
        first | exact Nat.zero_le _ | exact Nat.le_add_right 1 _
    rw [hworker]
    omega
  · have hset : (onEndCommand P t a).target = .onEnd .releaseSignal := by
      rw [hs'] at hpending
      rcases a with _ | _ | _ | _ | _ | ⟨_, _, _ | _⟩ | _ | _ | old | _
      case exchangePending =>
        have hfalse : old = false := by
          rw [← beq_iff_eq.mp hg]
          exact Bool.eq_false_iff.mpr hold
        rw [hfalse]
        rfl
      all_goals exact absurd hpending hold
    have hsource : (onEndCommand P t a).source.releasing = 0 := by
      rcases a with _ | _ | _ | _ | _ | ⟨_, _, _ | _⟩ | _ | _ | _ | _ <;>
        first | rfl | cases hset
    rw [hset, hsource] at hw
    simp only [CallerPc.releasing] at hw
    omega

/-- The caller of `forceFlush` that sets the flag releases the semaphore next. -/
lemma Channel.forceFlush {a : ForceFlushAct} (hC : Channel s)
    (hs : step P s (.forceFlush t a) = some s') : Channel s' := by
  have hw := wakeUps_forceFlush (w := CallerPc.releasing) hs
  have hworker := (forceFlush_frame hs).worker
  obtain ⟨-, -, hs'⟩ := step_forceFlush_iff.mp hs
  intro hpending
  by_cases hset : (∃ exit, a = .leaveStore exit) ∨ ∃ request, a = .notifyStore request
  · obtain ⟨exit, rfl⟩ | ⟨request, rfl⟩ := hset <;>
      simp only [forceFlushCommand, CallerPc.releasing, ForceFlushAct.releases] at hw <;> omega
  · rw [not_or] at hset
    have hold : s.sh.signalPending = true := by
      rw [hs'] at hpending
      rcases a with _ | _ | _ | _ | _ | ⟨_, _ | _⟩ | _ | _ | exit | _ | _ | request | _ | _ | _ | _
      case leaveStore => exact absurd ⟨exit, rfl⟩ hset.1
      case notifyStore => exact absurd ⟨request, rfl⟩ hset.2
      all_goals exact hpending
    have hpermit := hC hold
    have hle : (forceFlushCommand (ι := ι) (α := α) t a).source.releasing ≤
        a.releases + (forceFlushCommand (ι := ι) (α := α) t a).target.releasing := by
      rcases a with _ | _ | _ | _ | _ | ⟨_, _ | _⟩ | _ | _ | _ | _ | _ | _ | _ | _ | _ | _ <;>
        simp only [forceFlushCommand, CallerPc.releasing, ForceFlushAct.releases] <;> omega
    rw [hworker]
    omega

/-- The caller of `shutdown` that sets the flag releases the semaphore next. -/
lemma Channel.shutdown {a : ShutdownAct} (hC : Channel s)
    (hs : step P s (.shutdown t a) = some s') : Channel s' := by
  have hw := wakeUps_shutdown (w := CallerPc.releasing) hs
  have hworker := (shutdown_frame hs).worker
  obtain ⟨-, -, hs'⟩ := step_shutdown_iff.mp hs
  intro hpending
  by_cases hset : ∃ deadline, a = .notifyStore deadline
  · obtain ⟨deadline, rfl⟩ := hset
    simp only [shutdownCommand, CallerPc.releasing, ShutdownAct.releases] at hw
    omega
  · have hold : s.sh.signalPending = true := by
      rw [hs'] at hpending
      cases a with
      | notifyStore deadline => exact absurd ⟨deadline, rfl⟩ hset
      | _ => exact hpending
    have hpermit := hC hold
    have hle : (shutdownCommand (ι := ι) P a).source.releasing ≤
        a.releases + (shutdownCommand (ι := ι) P a).target.releasing := by
      cases a <;> simp only [shutdownCommand, CallerPc.releasing, ShutdownAct.releases] <;> omega
    rw [hworker]
    omega

/-- The worker clears the flag after each acquisition. -/
lemma Channel.worker {a : WorkerAct ι α} (hC : Channel s)
    (hs : step P s (.worker a) = some s') : Channel s' := by
  have hw := wakeUps_worker (w := CallerPc.releasing) hs
  obtain ⟨hsource, -, hs'⟩ := step_worker_iff.mp hs
  intro hpending
  rw [hs'] at hpending
  cases a with
  | waitAcquire => simp [hs', workerCommand, WorkerPc.clearing]
  | drainAcquire site ok => simp [hs', workerCommand, WorkerPc.clearing]
  | clearPending => cases hpending
  | drainClear site ok => cases hpending
  | _ =>
    have hpermit := hC hpending
    rw [hsource] at hpermit
    simp only [WorkerAct.acquires, workerCommand, WorkerPc.clearing] at hw hpermit
    omega

/-- The channel works in every reachable state. -/
theorem channel_of_run (hr : (system ι P).Run h s) : Channel s := by
  induction hr using run_induction with
  | nil =>
    intro hpending
    cases hpending
  | onEnd h s s' t a hr hs ih => exact ih.onEnd hs
  | forceFlush h s s' t a hr hs ih => exact ih.forceFlush hs
  | shutdown h s s' t a hr hs ih => exact ih.shutdown hs
  | worker h s s' a hr hs ih => exact ih.worker hs
  | tick h s s' now hr hs ih =>
    intro hpending
    rw [wakeUps_tick hs]
    obtain ⟨-, rfl⟩ := step_tick_iff.mp hs
    exact ih hpending

/-! ### Waiting -/

/-- The thread is inside a call of `onEnd` or `forceFlush`. -/
def CallerPc.recording : CallerPc α → Bool
  | .onEnd _ | .forceFlush _ => true
  | _ => false

/-- No call of `onEnd` or `forceFlush` is in progress. -/
def Quiet (s : State ι α) : Prop := ∀ t, (s.pc t).recording = false

/-- The worker is blocked in the wait of the main loop: the semaphore is at zero and the interval
has not elapsed. -/
def Blocked (s : State ι α) : Prop := s.worker = .wait ∧ s.sh.signal = 0

instance (s : State ι α) : Decidable (Quiet s) :=
  inferInstanceAs (Decidable (∀ t, (s.pc t).recording = false))

instance (s : State ι α) : Decidable (Blocked s) :=
  inferInstanceAs (Decidable (s.worker = .wait ∧ s.sh.signal = 0))

omit [DecidableEq ι] [DecidableEq α] in
/-- A blocked worker has no wake-up to wait for when no caller carries one. -/
lemma wakeUps_eq_zero (hw : ∀ t, w (s.pc t) = 0) (hblocked : Blocked s) : wakeUps w s = 0 := by
  have hsum : poolSum w s.pc = 0 := (poolSum_eq_zero_iff w s.pc).mpr hw
  rw [wakeUps, hblocked.2, hsum]

end GalayTracing
