import GalayTracing.BatchSpanProcessor.System

/-!
# What each kind of step leaves alone

The members of the shared memory have few writers.  The frame lemmas record, for each of the three
functions a caller can be in and for the worker, which members an operation does not change, so
that an invariant only has to be checked against the operations that write what it speaks about.
-/

namespace GalayTracing

variable {ι α : Type} [DecidableEq ι] [DecidableEq α] {P : Processor α} {s s' : State ι α}
  {t : ι}

/-! ### The enabled steps -/

/-- When an operation of `onEnd` is enabled, and what it leads to. -/
lemma step_onEnd_iff {a : OnEndAct α} :
    step P s (.onEnd t a) = some s' ↔ s.pc t = (onEndCommand P t a).source ∧
      (onEndCommand P t a).guard s.sh = true ∧
      s' = { s with
        sh := (onEndCommand P t a).update s.sh
        pc := Function.update s.pc t (onEndCommand P t a).target } :=
  Pool.threadStep_eq_some

/-- When an operation of `forceFlush` is enabled, and what it leads to. -/
lemma step_forceFlush_iff {a : ForceFlushAct} :
    step P s (.forceFlush t a) = some s' ↔ s.pc t = (forceFlushCommand (ι := ι) t a).source ∧
      (forceFlushCommand (α := α) t a).guard s.sh = true ∧
      s' = { s with
        sh := (forceFlushCommand (α := α) t a).update s.sh
        pc := Function.update s.pc t (forceFlushCommand (ι := ι) t a).target } :=
  Pool.threadStep_eq_some

/-- When an operation of `shutdown` is enabled, and what it leads to. -/
lemma step_shutdown_iff {a : ShutdownAct} :
    step P s (.shutdown t a) = some s' ↔ s.pc t = (shutdownCommand (ι := ι) P a).source ∧
      (shutdownCommand (ι := ι) P a).guard s.sh = true ∧
      s' = { s with
        sh := (shutdownCommand (ι := ι) P a).update s.sh
        pc := Function.update s.pc t (shutdownCommand (ι := ι) P a).target } :=
  Pool.threadStep_eq_some

/-- When an operation of the worker is enabled, and what it leads to. -/
lemma step_worker_iff {a : WorkerAct ι α} :
    step P s (.worker a) = some s' ↔ s.worker = (workerCommand P a).source ∧
      (workerCommand P a).guard s.sh = true ∧
      s' = { s with
        sh := (workerCommand P a).update s.sh
        worker := (workerCommand P a).target } :=
  Pool.workerStep_eq_some

/-- After a step of a thread, the program points are the old ones, updated at that thread. -/
lemma onEnd_pc_eq {a : OnEndAct α} (hs : step P s (.onEnd t a) = some s') :
    s'.pc = Function.update s.pc t (onEndCommand P t a).target := by
  obtain ⟨-, -, rfl⟩ := step_onEnd_iff.mp hs
  rfl

@[inherit_doc onEnd_pc_eq]
lemma forceFlush_pc_eq {a : ForceFlushAct} (hs : step P s (.forceFlush t a) = some s') :
    s'.pc = Function.update s.pc t (forceFlushCommand (ι := ι) t a).target := by
  obtain ⟨-, -, rfl⟩ := step_forceFlush_iff.mp hs
  rfl

@[inherit_doc onEnd_pc_eq]
lemma shutdown_pc_eq {a : ShutdownAct} (hs : step P s (.shutdown t a) = some s') :
    s'.pc = Function.update s.pc t (shutdownCommand (ι := ι) P a).target := by
  obtain ⟨-, -, rfl⟩ := step_shutdown_iff.mp hs
  rfl

/-- A later reading of the clock changes nothing else. -/
lemma step_tick_iff {now : ℤ} :
    step P s (.tick now) = some s' ↔ (s.sh.now ≤ now ∧ now ≤ timePointMax) ∧
      s' = { s with sh := { s.sh with now := now } } := by
  rw [step]
  split_ifs with h
  · simp [h, eq_comm]
  · simp [h]

/-! ### Frames -/

/-- What an operation of `onEnd` by thread `t` leaves alone. -/
structure OnEndFrame (t : ι) (s s' : State ι α) : Prop where
  worker : s'.worker = s.worker
  others : ∀ t', t' ≠ t → s'.pc t' = s.pc t'
  shutdownRequested : s'.sh.shutdownRequested = s.sh.shutdownRequested
  workerStopped : s'.sh.workerStopped = s.sh.workerStopped
  exporterShutdown : s'.sh.exporterShutdown = s.sh.exporterShutdown
  shutdownDrainOk : s'.sh.shutdownDrainOk = s.sh.shutdownDrainOk
  activeFlushCallers : s'.sh.activeFlushCallers = s.sh.activeFlushCallers
  flushRequests : s'.sh.flushRequests = s.sh.flushRequests
  requests : s'.sh.requests = s.sh.requests
  created : s'.sh.created = s.sh.created
  now : s'.sh.now = s.sh.now

/-- An operation of `onEnd` meets its frame. -/
lemma onEnd_frame {a : OnEndAct α} (hs : step P s (.onEnd t a) = some s') :
    OnEndFrame t s s' := by
  obtain ⟨-, -, rfl⟩ := step_onEnd_iff.mp hs
  have hother : ∀ t', t' ≠ t →
      Function.update s.pc t (onEndCommand P t a).target t' = s.pc t' :=
    fun t' ht => Function.update_of_ne ht _ _
  rcases a with _ | _ | _ | _ | _ | ⟨_, _, _ | _⟩ | _ | _ | _ | _ <;>
    exact ⟨rfl, hother, rfl, rfl, rfl, rfl, rfl, rfl, rfl, rfl, rfl⟩

/-- What an operation of `forceFlush` by thread `t` leaves alone. -/
structure ForceFlushFrame (t : ι) (s s' : State ι α) : Prop where
  worker : s'.worker = s.worker
  others : ∀ t', t' ≠ t → s'.pc t' = s.pc t'
  size : s'.sh.size = s.sh.size
  spans : s'.sh.spans = s.sh.spans
  droppedSpans : s'.sh.droppedSpans = s.sh.droppedSpans
  shutdownRequested : s'.sh.shutdownRequested = s.sh.shutdownRequested
  workerStopped : s'.sh.workerStopped = s.sh.workerStopped
  exporterShutdown : s'.sh.exporterShutdown = s.sh.exporterShutdown
  shutdownDrainOk : s'.sh.shutdownDrainOk = s.sh.shutdownDrainOk
  now : s'.sh.now = s.sh.now

/-- An operation of `forceFlush` meets its frame. -/
lemma forceFlush_frame {a : ForceFlushAct} (hs : step P s (.forceFlush t a) = some s') :
    ForceFlushFrame t s s' := by
  obtain ⟨-, -, rfl⟩ := step_forceFlush_iff.mp hs
  have hother : ∀ t', t' ≠ t →
      Function.update s.pc t (forceFlushCommand (ι := ι) t a).target t' = s.pc t' :=
    fun t' ht => Function.update_of_ne ht _ _
  rcases a with _ | _ | _ | _ | _ | ⟨_, _ | _⟩ | _ | _ | _ | _ | _ | _ | _ | _ | _ | _ <;>
    exact ⟨rfl, hother, rfl, rfl, rfl, rfl, rfl, rfl, rfl, rfl⟩

/-- What an operation of `shutdown` by thread `t` leaves alone. -/
structure ShutdownFrame (t : ι) (s s' : State ι α) : Prop where
  worker : s'.worker = s.worker
  others : ∀ t', t' ≠ t → s'.pc t' = s.pc t'
  size : s'.sh.size = s.sh.size
  spans : s'.sh.spans = s.sh.spans
  droppedSpans : s'.sh.droppedSpans = s.sh.droppedSpans
  workerStopped : s'.sh.workerStopped = s.sh.workerStopped
  shutdownDrainOk : s'.sh.shutdownDrainOk = s.sh.shutdownDrainOk
  activeFlushCallers : s'.sh.activeFlushCallers = s.sh.activeFlushCallers
  flushRequests : s'.sh.flushRequests = s.sh.flushRequests
  requests : s'.sh.requests = s.sh.requests
  created : s'.sh.created = s.sh.created
  now : s'.sh.now = s.sh.now

/-- An operation of `shutdown` meets its frame. -/
lemma shutdown_frame {a : ShutdownAct} (hs : step P s (.shutdown t a) = some s') :
    ShutdownFrame t s s' := by
  obtain ⟨-, -, rfl⟩ := step_shutdown_iff.mp hs
  have hother : ∀ t', t' ≠ t →
      Function.update s.pc t (shutdownCommand (ι := ι) P a).target t' = s.pc t' :=
    fun t' ht => Function.update_of_ne ht _ _
  cases a <;> exact ⟨rfl, hother, rfl, rfl, rfl, rfl, rfl, rfl, rfl, rfl, rfl, rfl⟩

/-- What an operation of the worker leaves alone. -/
structure WorkerFrame (s s' : State ι α) : Prop where
  pc : s'.pc = s.pc
  droppedSpans : s'.sh.droppedSpans = s.sh.droppedSpans
  shutdownRequested : s'.sh.shutdownRequested = s.sh.shutdownRequested
  exporterShutdown : s'.sh.exporterShutdown = s.sh.exporterShutdown
  activeFlushCallers : s'.sh.activeFlushCallers = s.sh.activeFlushCallers
  created : s'.sh.created = s.sh.created
  now : s'.sh.now = s.sh.now

/-- An operation of the worker meets its frame. -/
lemma worker_frame {a : WorkerAct ι α} (hs : step P s (.worker a) = some s') :
    WorkerFrame s s' := by
  obtain ⟨-, -, rfl⟩ := step_worker_iff.mp hs
  cases a <;> exact ⟨rfl, rfl, rfl, rfl, rfl, rfl, rfl⟩

/-- What a step leaves alone that is not the worker's. -/
structure OutsideFrame (s s' : State ι α) : Prop where
  worker : s'.worker = s.worker
  workerStopped : s'.sh.workerStopped = s.sh.workerStopped
  shutdownDrainOk : s'.sh.shutdownDrainOk = s.sh.shutdownDrainOk

/-- Induction over the runs of the processor, for what the worker's steps decide. -/
theorem run_induction_worker {motive : ∀ h s, (system ι P).Run h s → Prop}
    (nil : motive [] initial (Lts.run_nil _))
    (outside : ∀ h s s' a (hr : (system ι P).Run h s) (hs : step P s a = some s'),
      (∀ b, a ≠ .worker b) → OutsideFrame s s' → motive h s hr →
      motive (h ++ [a]) s' (run_step hr hs))
    (worker : ∀ h s s' a (hr : (system ι P).Run h s) (hs : step P s (.worker a) = some s'),
      motive h s hr → motive (h ++ [.worker a]) s' (run_step hr hs))
    {h : List (Act ι α)} {s : State ι α} (hr : (system ι P).Run h s) : motive h s hr := by
  induction hr using run_induction with
  | nil => exact nil
  | onEnd h s s' t a hr hs ih =>
    have hf := onEnd_frame hs
    apply outside h s s' _ hr hs (by rintro b ⟨⟩) _ ih
    exact ⟨hf.worker, hf.workerStopped, hf.shutdownDrainOk⟩
  | forceFlush h s s' t a hr hs ih =>
    have hf := forceFlush_frame hs
    apply outside h s s' _ hr hs (by rintro b ⟨⟩) _ ih
    exact ⟨hf.worker, hf.workerStopped, hf.shutdownDrainOk⟩
  | shutdown h s s' t a hr hs ih =>
    have hf := shutdown_frame hs
    apply outside h s s' _ hr hs (by rintro b ⟨⟩) _ ih
    exact ⟨hf.worker, hf.workerStopped, hf.shutdownDrainOk⟩
  | worker h s s' a hr hs ih => exact worker h s s' a hr hs ih
  | tick h s s' now hr hs ih =>
    apply outside h s s' _ hr hs (by rintro b ⟨⟩) _ ih
    obtain ⟨-, rfl⟩ := step_tick_iff.mp hs
    exact ⟨rfl, rfl, rfl⟩

/-! ### The clock -/

/-- The clock stays within the range of its time points. -/
theorem now_le_of_run {h : List (Act ι α)} (hr : (system ι P).Run h s) :
    s.sh.now ≤ timePointMax := by
  induction hr using run_induction with
  | nil =>
    have hzero : (0 : ℤ) ≤ timePointMax := by decide
    exact hzero
  | onEnd h s s' t a hr hs ih => exact (onEnd_frame hs).now ▸ ih
  | forceFlush h s s' t a hr hs ih => exact (forceFlush_frame hs).now ▸ ih
  | shutdown h s s' t a hr hs ih => exact (shutdown_frame hs).now ▸ ih
  | worker h s s' a hr hs ih => exact (worker_frame hs).now ▸ ih
  | tick h s s' now hr hs ih =>
    obtain ⟨⟨-, hle⟩, rfl⟩ := step_tick_iff.mp hs
    exact hle

/-! ### Program points -/

/-- A thread that performs an operation of `onEnd` starts and ends outside or inside `onEnd`. -/
lemma onEnd_pc {a : OnEndAct α} (hs : step P s (.onEnd t a) = some s') :
    (s.pc t = .idle ∨ ∃ p, s.pc t = .onEnd p) ∧ (s'.pc t = .idle ∨ ∃ p, s'.pc t = .onEnd p) := by
  obtain ⟨hpc, -, rfl⟩ := step_onEnd_iff.mp hs
  rw [hpc]
  rcases a with _ | _ | _ | _ | _ | ⟨_, _, _ | _⟩ | _ | _ | _ | _ <;>
    simp only [onEndCommand, Function.update_self] <;> try split_ifs
  all_goals simp

/-- A thread that performs an operation of `forceFlush` starts and ends outside or inside
`forceFlush`. -/
lemma forceFlush_pc {a : ForceFlushAct} (hs : step P s (.forceFlush t a) = some s') :
    (s.pc t = .idle ∨ ∃ p, s.pc t = .forceFlush p) ∧
      (s'.pc t = .idle ∨ ∃ p, s'.pc t = .forceFlush p) := by
  obtain ⟨hpc, -, rfl⟩ := step_forceFlush_iff.mp hs
  have hnext : ∀ exit : FlushExit, (exit.next : CallerPc α) = .idle ∨
      ∃ p, (exit.next : CallerPc α) = .forceFlush p := by
    rintro (_ | _ | _) <;> simp [FlushExit.next]
  rw [hpc]
  rcases a with _ | _ | _ | _ | _ | ⟨_, _ | _⟩ | _ | _ | _ | _ | _ | _ | _ | _ | _ | _ <;>
    simp only [forceFlushCommand, Function.update_self] <;> try split_ifs
  all_goals simp [hnext]

/-- A thread that performs an operation of `shutdown` starts and ends outside or inside
`shutdown`. -/
lemma shutdown_pc {a : ShutdownAct} (hs : step P s (.shutdown t a) = some s') :
    (s.pc t = .idle ∨ ∃ p, s.pc t = .shutdown p) ∧
      (s'.pc t = .idle ∨ ∃ p, s'.pc t = .shutdown p) := by
  obtain ⟨hpc, -, rfl⟩ := step_shutdown_iff.mp hs
  rw [hpc]
  cases a <;> simp only [shutdownCommand, Function.update_self] <;> try split_ifs
  all_goals simp

/-! ### The thread that moves -/

/-- The thread that performs the step. -/
def Act.caller : Act ι α → Option ι
  | .onEnd t _ | .forceFlush t _ | .shutdown t _ => some t
  | .worker _ | .tick _ => none

variable {a : Act ι α}

/-- A step of others leaves a thread where it is. -/
lemma pc_of_caller_ne (hs : step P s a = some s') (ha : a.caller ≠ some t) : s'.pc t = s.pc t := by
  rcases a with ⟨t', a⟩ | ⟨t', a⟩ | ⟨t', a⟩ | a | now
  · exact Pool.threadStep_pc_of_ne (fun ht => ha (congrArg some ht)) hs
  · exact Pool.threadStep_pc_of_ne (fun ht => ha (congrArg some ht)) hs
  · exact Pool.threadStep_pc_of_ne (fun ht => ha (congrArg some ht)) hs
  · rw [(worker_frame hs).pc]
  · obtain ⟨-, rfl⟩ := step_tick_iff.mp hs
    rfl

/-- A thread that starts or ends inside `forceFlush` performs an operation of `forceFlush`. -/
lemma forceFlush_of_caller (hs : step P s a = some s') (ha : a.caller = some t)
    (hinside : (∃ pc, s.pc t = .forceFlush pc) ∨ ∃ pc, s'.pc t = .forceFlush pc) :
    ∃ b, a = .forceFlush t b := by
  rcases a with ⟨_, b⟩ | ⟨_, b⟩ | ⟨_, b⟩ | b | now <;> cases ha
  · obtain ⟨hbefore, hafter⟩ := onEnd_pc hs
    rcases hinside with ⟨pc, hpc⟩ | ⟨pc, hpc⟩
    · simp [hpc] at hbefore
    · simp [hpc] at hafter
  · exact ⟨b, rfl⟩
  · obtain ⟨hbefore, hafter⟩ := shutdown_pc hs
    rcases hinside with ⟨pc, hpc⟩ | ⟨pc, hpc⟩
    · simp [hpc] at hbefore
    · simp [hpc] at hafter

/-- What a thread inside `forceFlush` performs, and where it goes on. -/
lemma exists_forceFlush_of_caller {pc : ForceFlushPc} (hs : step P s a = some s')
    (hpc : s.pc t = .forceFlush pc) (ha : a.caller = some t) :
    ∃ b, a = .forceFlush t b ∧ (forceFlushCommand (ι := ι) (α := α) t b).source = .forceFlush pc ∧
      s'.pc t = (forceFlushCommand (ι := ι) t b).target := by
  obtain ⟨b, rfl⟩ := forceFlush_of_caller hs ha (Or.inl ⟨pc, hpc⟩)
  exact ⟨b, rfl, (step_forceFlush_iff.mp hs).1.symm.trans hpc, Pool.threadStep_pc_self hs⟩

/-- What a thread inside `shutdown` performs, and where it goes on. -/
lemma exists_shutdown_of_caller {pc : ShutdownPc} (hs : step P s a = some s')
    (hpc : s.pc t = .shutdown pc) (ha : a.caller = some t) :
    ∃ b, a = .shutdown t b ∧ (shutdownCommand (ι := ι) P b).source = .shutdown pc ∧
      s'.pc t = (shutdownCommand (ι := ι) P b).target := by
  rcases a with ⟨_, b⟩ | ⟨_, b⟩ | ⟨_, b⟩ | b | now <;> cases ha
  · obtain ⟨hbefore, -⟩ := onEnd_pc hs
    simp [hpc] at hbefore
  · obtain ⟨hbefore, -⟩ := forceFlush_pc hs
    simp [hpc] at hbefore
  · exact ⟨b, rfl, (step_shutdown_iff.mp hs).1.symm.trans hpc, Pool.threadStep_pc_self hs⟩

/-! ### Weights of program points -/

variable [Fintype ι] {w : CallerPc α → ℕ}

omit [DecidableEq α] in
/-- A step of one thread between points of the same weight leaves the total weight alone. -/
lemma poolSum_eq_of_same {pc pc' : ι → CallerPc α} (hother : ∀ t', t' ≠ t → pc' t' = pc t')
    (hw : w (pc' t) = w (pc t)) : poolSum w pc' = poolSum w pc := by
  refine Finset.sum_congr rfl fun t' _ => ?_
  by_cases h : t' = t
  · rw [h, hw]
  · rw [hother t' h]

/-- `onEnd` does not change a total weight that ignores it. -/
lemma poolSum_onEnd {a : OnEndAct α} (hs : step P s (.onEnd t a) = some s')
    (hidle : w .idle = 0) (hw : ∀ p, w (.onEnd p) = 0) :
    poolSum w s'.pc = poolSum w s.pc := by
  refine poolSum_eq_of_same (onEnd_frame hs).others ?_
  obtain ⟨h | ⟨p, h⟩, h' | ⟨p', h'⟩⟩ := onEnd_pc hs <;> simp [h, h', hidle, hw]

/-- `forceFlush` does not change a total weight that ignores it. -/
lemma poolSum_forceFlush {a : ForceFlushAct} (hs : step P s (.forceFlush t a) = some s')
    (hidle : w .idle = 0) (hw : ∀ p, w (.forceFlush p) = 0) :
    poolSum w s'.pc = poolSum w s.pc := by
  refine poolSum_eq_of_same (forceFlush_frame hs).others ?_
  obtain ⟨h | ⟨p, h⟩, h' | ⟨p', h'⟩⟩ := forceFlush_pc hs <;> simp [h, h', hidle, hw]

/-- `shutdown` does not change a total weight that ignores it. -/
lemma poolSum_shutdown {a : ShutdownAct} (hs : step P s (.shutdown t a) = some s')
    (hidle : w .idle = 0) (hw : ∀ p, w (.shutdown p) = 0) :
    poolSum w s'.pc = poolSum w s.pc := by
  refine poolSum_eq_of_same (shutdown_frame hs).others ?_
  obtain ⟨h | ⟨p, h⟩, h' | ⟨p', h'⟩⟩ := shutdown_pc hs <;> simp [h, h', hidle, hw]

end GalayTracing
