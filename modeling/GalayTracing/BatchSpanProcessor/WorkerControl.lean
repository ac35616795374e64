import GalayTracing.BatchSpanProcessor.Frames

/-!
# The wake-up channel by itself

`notify`, `forceNotify` and `waitFor` of `WorkerControl`, called in any order by any number of
threads and one worker.  A notification is a flag and a permit that are set and cleared one after
the other, so for a while the flag is set without a permit; the invariant says whose step is
outstanding then.  The last part connects the channel with the processor: what the processor does
to the flag and the semaphore are calls of these three functions.
-/

namespace GalayTracing

namespace WorkerControl

variable {ι : Type}

/-- The members of `WorkerControl` that make up the channel. -/
structure Signal where
  /-- `signalPending`. -/
  signalPending : Bool := false
  /-- The permits of `signal`. -/
  signal : ℕ := 0
  deriving DecidableEq

/-- The program points of a thread that calls `notify` and `forceNotify`. -/
inductive CallPc
  /-- Outside both. -/
  | idle
  /-- `signalPending.exchange(true)` of `notify`. -/
  | exchange
  /-- `signalPending.store(true)` of `forceNotify`. -/
  | store
  /-- `signal.release()` of either. -/
  | release
  deriving DecidableEq

/-- The program points of the worker that calls `waitFor`. -/
inductive WaitPc
  /-- Outside. -/
  | idle
  /-- `signal.try_acquire_for(timeout)`. -/
  | acquire
  /-- `signalPending.store(false)`. -/
  | clear
  deriving DecidableEq

/-- The atomic operations of a calling thread. -/
inductive CallAct
  /-- The call `notify()`. -/
  | notify
  /-- The call `forceNotify()`. -/
  | forceNotify
  /-- `signalPending.exchange(true)` returns `old`; with `true`, the call is complete. -/
  | exchange (old : Bool)
  /-- `signalPending.store(true)`. -/
  | store
  /-- `signal.release()`; the call is complete. -/
  | release
  deriving DecidableEq

/-- The atomic operations of the worker. -/
inductive WaitAct
  /-- The call `waitFor(timeout)`. -/
  | waitFor
  /-- `signal.try_acquire_for(timeout)` acquires a permit. -/
  | acquire
  /-- `signal.try_acquire_for(timeout)` times out; the call returns `false`. -/
  | timeout
  /-- `signalPending.store(false)`; the call returns `true`. -/
  | clear
  deriving DecidableEq

/-- The operations of a calling thread. -/
def callCommand : CallAct → Command Signal CallPc
  | .notify =>
    { source := .idle
      guard := fun _ => true
      update := id
      target := .exchange }
  | .forceNotify =>
    { source := .idle
      guard := fun _ => true
      update := id
      target := .store }
  | .exchange old =>
    { source := .exchange
      guard := fun sh => sh.signalPending == old
      update := fun sh => { sh with signalPending := true }
      target := if old then .idle else .release }
  | .store =>
    { source := .store
      guard := fun _ => true
      update := fun sh => { sh with signalPending := true }
      target := .release }
  | .release =>
    { source := .release
      guard := fun _ => true
      update := fun sh => { sh with signal := sh.signal + 1 }
      target := .idle }

/-- The operations of the worker. -/
def waitCommand : WaitAct → Command Signal WaitPc
  | .waitFor =>
    { source := .idle
      guard := fun _ => true
      update := id
      target := .acquire }
  | .acquire =>
    { source := .acquire
      guard := fun sh => decide (0 < sh.signal)
      update := fun sh => { sh with signal := sh.signal - 1 }
      target := .clear }
  | .timeout =>
    { source := .acquire
      guard := fun _ => true
      update := id
      target := .idle }
  | .clear =>
    { source := .clear
      guard := fun _ => true
      update := fun sh => { sh with signalPending := false }
      target := .idle }

/-- One step of the channel: an operation of a thread or of the worker. -/
inductive Act (ι : Type)
  /-- Thread `t` performs an operation. -/
  | call (t : ι) (a : CallAct)
  /-- The worker performs an operation. -/
  | wait (a : WaitAct)
  deriving DecidableEq

/-- The states of the channel with calling threads `ι`. -/
abbrev State (ι : Type) := Pool ι Signal CallPc WaitPc

variable [DecidableEq ι]

/-- The successor of a state under one step. -/
def step (s : State ι) : Act ι → Option (State ι)
  | .call t a => s.threadStep t (callCommand a)
  | .wait a => s.workerStep (waitCommand a)

/-- The channel, used by the threads `ι` and the worker. -/
def channel (ι : Type) [DecidableEq ι] : Lts (State ι) (Act ι) where
  init := { sh := {}, pc := fun _ => .idle, worker := .idle }
  step := step

/-- A permit is there, or a thread has set the flag and not yet released the semaphore, or the
worker has acquired a permit and not yet cleared the flag. -/
def Outstanding (s : State ι) : Prop :=
  0 < s.sh.signal ∨ (∃ t, s.pc t = .release) ∨ s.worker = .clear

/-- No notification is lost: while the flag is set, something is outstanding. -/
def Kept (s : State ι) : Prop := s.sh.signalPending = true → Outstanding s

/-- The operation completes a call of `notify` or `forceNotify` of thread `t`. -/
def Completes (t : ι) (a : Act ι) : Prop := a = .call t (.exchange true) ∨ a = .call t .release

variable {s s' : State ι} {h : List (Act ι)} {t : ι}

/-- When an operation of a thread is enabled, and what it leads to. -/
lemma step_call_iff {a : CallAct} : step s (.call t a) = some s' ↔
    s.pc t = (callCommand a).source ∧ (callCommand a).guard s.sh = true ∧
      s' = { s with
        sh := (callCommand a).update s.sh
        pc := Function.update s.pc t (callCommand a).target } :=
  Pool.threadStep_eq_some

/-- When an operation of the worker is enabled, and what it leads to. -/
lemma step_wait_iff {a : WaitAct} : step s (.wait a) = some s' ↔
    s.worker = (waitCommand a).source ∧ (waitCommand a).guard s.sh = true ∧
      s' = { s with sh := (waitCommand a).update s.sh, worker := (waitCommand a).target } :=
  Pool.workerStep_eq_some

/-- What is outstanding remains so when a thread moves that is not about to release. -/
lemma Outstanding.update {sh : Signal} {p : CallPc} (ho : Outstanding s)
    (hsignal : s.sh.signal ≤ sh.signal) (ht : s.pc t ≠ .release) :
    Outstanding { s with sh := sh, pc := Function.update s.pc t p } := by
  rcases ho with hpermit | ⟨t', ht'⟩ | hworker
  · exact Or.inl (Nat.lt_of_lt_of_le hpermit hsignal)
  · have hne : t' ≠ t := by
      rintro rfl
      exact ht ht'
    exact Or.inr (Or.inl ⟨t', (Function.update_of_ne hne _ _).trans ht'⟩)
  · exact Or.inr (Or.inr hworker)

omit [DecidableEq ι] in
/-- What is outstanding remains so when the worker moves that is not about to clear the flag. -/
lemma Outstanding.wait {p : WaitPc} (ho : Outstanding s) (hworker : s.worker ≠ .clear) :
    Outstanding { s with worker := p } := by
  rcases ho with hpermit | hrelease | hclear
  · exact Or.inl hpermit
  · exact Or.inr (Or.inl hrelease)
  · exact absurd hclear hworker

/-- A thread that is about to release the semaphore is outstanding. -/
lemma outstanding_of_update {sh : Signal} :
    Outstanding { s with sh := sh, pc := Function.update s.pc t .release } :=
  Or.inr (Or.inl ⟨t, Function.update_self t _ _⟩)

/-- An operation of a thread loses no notification. -/
lemma Kept.call {a : CallAct} (hk : Kept s) (hs : step s (.call t a) = some s') : Kept s' := by
  obtain ⟨hpc, hguard, rfl⟩ := step_call_iff.mp hs
  intro hpending
  match a with
  | .notify => exact (hk hpending).update (Nat.le_refl _) (by rw [hpc]; decide)
  | .forceNotify => exact (hk hpending).update (Nat.le_refl _) (by rw [hpc]; decide)
  | .exchange true =>
    -- The flag was set before, so the call relies on what is outstanding already.
    exact (hk (beq_iff_eq.mp hguard)).update (Nat.le_refl _) (by rw [hpc]; decide)
  | .exchange false => exact outstanding_of_update
  | .store => exact outstanding_of_update
  | .release => exact Or.inl (Nat.succ_pos _)

/-- An operation of the worker loses no notification. -/
lemma Kept.wait {a : WaitAct} (hk : Kept s) (hs : step s (.wait a) = some s') : Kept s' := by
  obtain ⟨hworker, -, rfl⟩ := step_wait_iff.mp hs
  intro hpending
  match a with
  | .waitFor => exact (hk hpending).wait (by rw [hworker]; decide)
  | .acquire => exact Or.inr (Or.inr rfl)
  | .timeout => exact (hk hpending).wait (by rw [hworker]; decide)
  | .clear => cases hpending

/-- Thread `t` is inside a call and has not set the flag yet. -/
def Entered (t : ι) (s : State ι) : Prop := s.pc t = .exchange ∨ s.pc t = .store

/-- A thread that has entered a call sets the flag with its next operation, and completes nothing
before. -/
lemma Entered.step {a : Act ι} (he : Entered t s) (hs : step s a = some s') :
    (Entered t s' ∧ ¬Completes t a) ∨ s'.sh.signalPending = true := by
  match a with
  | .wait a =>
    obtain ⟨-, -, rfl⟩ := step_wait_iff.mp hs
    refine Or.inl ⟨he, ?_⟩
    rintro (heq | heq) <;> cases heq
  | .call t' a =>
    obtain ⟨hpc, -, rfl⟩ := step_call_iff.mp hs
    by_cases ht : t' = t
    · subst ht
      rw [Entered, hpc] at he
      match a with
      | .notify | .forceNotify | .release => rcases he with he | he <;> cases he
      | .exchange _ | .store => exact Or.inr rfl
    · have hsame : ∀ p, Function.update s.pc t' p t = s.pc t := fun p =>
        Function.update_of_ne (Ne.symm ht) _ _
      refine Or.inl ⟨he.imp (hsame _).trans (hsame _).trans, ?_⟩
      rintro (heq | heq)
      · exact ht (Act.call.inj heq).1
      · exact ht (Act.call.inj heq).1

section Processor

variable {α : Type}

/-- The program point of a caller of the processor, as far as the channel is concerned. -/
def ofCaller : CallerPc α → CallPc
  | .onEnd .releaseSignal => .release
  | .forceFlush (.leaveRelease _) => .release
  | .forceFlush (.notifyRelease _) => .release
  | .shutdown (.notifyRelease _) => .release
  | _ => .idle

/-- The program point of the processor's worker, as far as the channel is concerned. -/
def ofWorker : WorkerPc ι α → WaitPc
  | .clearPending => .clear
  | .drainClear _ _ => .clear
  | _ => .idle

/-- The channel in a state of the processor. -/
def ofState (s : GalayTracing.State ι α) : State ι where
  sh := { signalPending := s.sh.signalPending, signal := s.sh.signal }
  pc := fun t => ofCaller (s.pc t)
  worker := ofWorker s.worker

/-- What an operation of the processor does to the channel. -/
def ofAct : GalayTracing.Act ι α → List (Act ι)
  | .onEnd t (.exchangePending old) => [.call t .notify, .call t (.exchange old)]
  | .onEnd t .releaseSignal => [.call t .release]
  | .forceFlush t (.leaveStore _) => [.call t .forceNotify, .call t .store]
  | .forceFlush t (.leaveRelease _) => [.call t .release]
  | .forceFlush t (.notifyStore _) => [.call t .forceNotify, .call t .store]
  | .forceFlush t (.notifyRelease _) => [.call t .release]
  | .shutdown t (.notifyStore _) => [.call t .forceNotify, .call t .store]
  | .shutdown t (.notifyRelease _) => [.call t .release]
  | .worker .waitAcquire => [.wait .waitFor, .wait .acquire]
  | .worker .waitTimeout => [.wait .waitFor, .wait .timeout]
  | .worker .clearPending => [.wait .clear]
  | .worker (.drainAcquire _ _) => [.wait .waitFor, .wait .acquire]
  | .worker (.drainTimeout _ _) => [.wait .waitFor, .wait .timeout]
  | .worker (.drainClear _ _) => [.wait .clear]
  | _ => []

/-- Two steps, one after the other. -/
lemma exec_two {a b : Act ι} {mid : State ι} (ha : step s a = some mid)
    (hb : step mid b = some s') : (channel ι).exec s [a, b] = some s' := by
  have hmid : (channel ι).step s a = some mid := ha
  have hlast : (channel ι).step mid b = some s' := hb
  rw [Lts.exec_cons_of_step hmid, Lts.exec_cons_of_step hlast]
  rfl

/-- One step. -/
lemma exec_one {a : Act ι} (ha : step s a = some s') : (channel ι).exec s [a] = some s' := by
  have hstep : (channel ι).step s a = some s' := ha
  exact Lts.exec_cons_of_step hstep []

/-- A whole call of `notify` up to the exchange. -/
lemma exec_notify {old : Bool} (hpc : s.pc t = .idle) (hold : s.sh.signalPending = old) :
    (channel ι).exec s [.call t .notify, .call t (.exchange old)] =
      some { s with
        sh := { s.sh with signalPending := true }
        pc := Function.update s.pc t (if old then .idle else .release) } := by
  refine exec_two (step_call_iff.mpr ⟨hpc, rfl, rfl⟩) (step_call_iff.mpr ⟨?_, ?_, ?_⟩)
  · exact Function.update_self t _ _
  · exact beq_iff_eq.mpr hold
  · simp [callCommand]

/-- A whole call of `forceNotify` up to the store. -/
lemma exec_forceNotify (hpc : s.pc t = .idle) :
    (channel ι).exec s [.call t .forceNotify, .call t .store] =
      some { s with
        sh := { s.sh with signalPending := true }
        pc := Function.update s.pc t .release } := by
  refine exec_two (step_call_iff.mpr ⟨hpc, rfl, rfl⟩) (step_call_iff.mpr ⟨?_, rfl, ?_⟩)
  · exact Function.update_self t _ _
  · simp [callCommand]

/-- A call of `waitFor` up to the acquisition. -/
lemma exec_acquire (hworker : s.worker = .idle) (hsignal : 0 < s.sh.signal) :
    (channel ι).exec s [.wait .waitFor, .wait .acquire] =
      some { s with sh := { s.sh with signal := s.sh.signal - 1 }, worker := .clear } :=
  exec_two (step_wait_iff.mpr ⟨hworker, rfl, rfl⟩)
    (step_wait_iff.mpr ⟨rfl, decide_eq_true hsignal, rfl⟩)

/-- A call of `waitFor` that times out. -/
lemma exec_timeout (hworker : s.worker = .idle) :
    (channel ι).exec s [.wait .waitFor, .wait .timeout] = some s := by
  obtain ⟨sh, pc, worker⟩ := s
  obtain rfl : worker = .idle := hworker
  exact exec_two (step_wait_iff.mpr ⟨rfl, rfl, rfl⟩) (step_wait_iff.mpr ⟨rfl, rfl, rfl⟩)

variable {P : Processor α} {u u' : GalayTracing.State ι α}

/-- A move of a caller, seen from the channel. -/
lemma ofState_update (sh : Shared ι α) (p : CallerPc α) :
    ofState { u with sh := sh, pc := Function.update u.pc t p } =
      { ofState u with
        sh := { signalPending := sh.signalPending, signal := sh.signal }
        pc := Function.update (ofState u).pc t (ofCaller p) } := by
  have hpc : (fun t' => ofCaller (Function.update u.pc t p t')) =
      Function.update (fun t' => ofCaller (u.pc t')) t (ofCaller p) :=
    Function.comp_update ofCaller u.pc t p
  simp only [ofState, hpc]

/-- A move of a caller that the channel does not see. -/
lemma ofState_update_eq {sh : Shared ι α} {p : CallerPc α}
    (hpending : sh.signalPending = u.sh.signalPending) (hsignal : sh.signal = u.sh.signal)
    (hpc : ofCaller p = ofCaller (u.pc t)) :
    ofState { u with sh := sh, pc := Function.update u.pc t p } = ofState u := by
  rw [ofState_update, hpending, hsignal, hpc]
  exact congrArg (fun pc => { ofState u with pc := pc }) (Function.update_eq_self t (ofState u).pc)

variable [DecidableEq α]

/-- An operation of `onEnd` is what it does to the channel. -/
lemma exec_ofAct_onEnd {a : OnEndAct α} (hs : GalayTracing.step P u (.onEnd t a) = some u') :
    (channel ι).exec (ofState u) (ofAct (.onEnd t a)) = some (ofState u') := by
  obtain ⟨hpc, hguard, rfl⟩ := step_onEnd_iff.mp hs
  have hidle : ofCaller (onEndCommand P t a).source = .idle → (ofState u).pc t = .idle := by
    intro hsource
    rw [← hsource, ← hpc]
    rfl
  match a with
  | .exchangePending old =>
    have hnotify := exec_notify (hidle rfl) (beq_iff_eq.mp hguard)
    rw [ofAct, hnotify, ofState_update]
    cases old <;> rfl
  | .releaseSignal =>
    have hrelease : (ofState u).pc t = .release := congrArg ofCaller hpc
    rw [ofAct, exec_one (step_call_iff.mpr ⟨hrelease, rfl, rfl⟩), ofState_update]
    rfl
  | .call span | .fetchAdd span previous | .fullSub span | .loadShutdown span previous value
  | .closedSub span | .enqueue span previous true | .enqueue span previous false
  | .failedSub span | .drop span =>
    refine congrArg some (ofState_update_eq rfl rfl ?_).symm
    rw [hpc]
    simp only [onEndCommand]
    try split_ifs
    all_goals rfl

omit [DecidableEq α] in
/-- The program points after `activeFlushCallers` has been left. -/
lemma ofCaller_next (exit : FlushExit) : ofCaller (exit.next : CallerPc α) = .idle := by
  cases exit <;> rfl

/-- An operation of `forceFlush` is what it does to the channel. -/
lemma exec_ofAct_forceFlush {a : ForceFlushAct}
    (hs : GalayTracing.step P u (.forceFlush t a) = some u') :
    (channel ι).exec (ofState u) (ofAct (α := α) (.forceFlush t a)) = some (ofState u') := by
  obtain ⟨hpc, hguard, rfl⟩ := step_forceFlush_iff.mp hs
  match a with
  | .leaveStore exit | .notifyStore request =>
    have hidle : (ofState u).pc t = .idle := congrArg ofCaller hpc
    rw [ofAct, exec_forceNotify hidle, ofState_update]
    rfl
  | .leaveRelease exit =>
    have hrelease : (ofState u).pc t = .release := congrArg ofCaller hpc
    rw [ofAct, exec_one (step_call_iff.mpr ⟨hrelease, rfl, rfl⟩), ofState_update]
    simp only [forceFlushCommand, ofCaller_next]
    rfl
  | .notifyRelease request =>
    have hrelease : (ofState u).pc t = .release := congrArg ofCaller hpc
    rw [ofAct, exec_one (step_call_iff.mpr ⟨hrelease, rfl, rfl⟩), ofState_update]
    rfl
  | .call timeout | .announce timeout | .loadShutdown timeout value | .loadStopped timeout value
  | .create timeout request | .enqueue request true | .enqueue request false
  | .leave exit previous | .leaveLoad exit value | .readEmpty value | .acquireDone request
  | .timeoutDone request | .loadOk request value =>
    refine congrArg some (ofState_update_eq rfl rfl ?_).symm
    rw [hpc]
    simp only [forceFlushCommand]
    try split_ifs
    all_goals first | rfl | exact ofCaller_next _

/-- An operation of `shutdown` is what it does to the channel. -/
lemma exec_ofAct_shutdown {a : ShutdownAct}
    (hs : GalayTracing.step P u (.shutdown t a) = some u') :
    (channel ι).exec (ofState u) (ofAct (α := α) (.shutdown t a)) = some (ofState u') := by
  obtain ⟨hpc, hguard, rfl⟩ := step_shutdown_iff.mp hs
  match a with
  | .notifyStore deadline =>
    have hidle : (ofState u).pc t = .idle := congrArg ofCaller hpc
    rw [ofAct, exec_forceNotify hidle, ofState_update]
    rfl
  | .notifyRelease deadline =>
    have hrelease : (ofState u).pc t = .release := congrArg ofCaller hpc
    rw [ofAct, exec_one (step_call_iff.mpr ⟨hrelease, rfl, rfl⟩), ofState_update]
    rfl
  | .call timeout deadline | .storeRequested deadline | .claimJoin deadline old | .join deadline
  | .waitStopped deadline value | .waitClock deadline value | .loadStopped deadline value
  | .loadDrainOk deadline ok value | .claimExporter deadline ok old | .callExporter deadline ok
  | .exporterReturn deadline ok answer | .ret deadline ok inTime =>
    refine congrArg some (ofState_update_eq rfl rfl ?_).symm
    rw [hpc]
    simp only [shutdownCommand]
    try split_ifs
    all_goals rfl

omit [DecidableEq ι] [DecidableEq α] in
/-- The program points after a batch was not found. -/
lemma ofWorker_afterNone (site : PopSite) :
    ofWorker (site.afterNone : WorkerPc ι α) = .idle := by
  cases site <;> rfl

omit [DecidableEq ι] [DecidableEq α] in
/-- The program points after a batch was exported. -/
lemma ofWorker_afterExport (success : Bool) (site : PopSite) :
    ofWorker (site.afterExport success : WorkerPc ι α) = .idle := by
  cases site <;> rfl

omit [DecidableEq ι] [DecidableEq α] in
/-- The program points after the flush requests were served. -/
lemma ofWorker_afterRequests (P : Processor α) (completedAny : Bool) (site : FlushSite) :
    ofWorker (site.afterRequests P completedAny : WorkerPc ι α) = .idle := by
  cases site <;> simp only [FlushSite.afterRequests, ordinaryDrain] <;> try split_ifs
  all_goals rfl

omit [DecidableEq ι] [DecidableEq α] in
/-- The program points after a drain. -/
lemma ofWorker_afterDrain (P : Processor α) (ok : Bool) (site : DrainSite) :
    ofWorker (site.afterDrain P ok : WorkerPc ι α) = .idle := by
  cases site <;> simp only [DrainSite.afterDrain] <;> try split_ifs
  all_goals rfl

/-- An operation of the worker is what it does to the channel. -/
lemma exec_ofAct_worker {a : WorkerAct ι α}
    (hs : GalayTracing.step P u (.worker a) = some u') :
    (channel ι).exec (ofState u) (ofAct (.worker a)) = some (ofState u') := by
  obtain ⟨hworker, hguard, rfl⟩ := step_worker_iff.mp hs
  have hof : (ofState u).worker = ofWorker (workerCommand P a).source := congrArg ofWorker hworker
  -- What the worker does elsewhere leaves the channel alone, and it stays outside `waitFor`.
  have hstutter : ∀ {sh : Shared ι α} {p : WorkerPc ι α},
      sh.signalPending = u.sh.signalPending → sh.signal = u.sh.signal → ofWorker p = .idle →
      ofWorker (workerCommand P a).source = .idle →
      ofState { u with sh := sh, worker := p } = ofState u := by
    intro sh p hpending hsignal hp hsource
    have hsame : ofWorker p = ofWorker u.worker := by rw [hp, hworker, hsource]
    rw [ofState, ofState, hpending, hsignal, hsame]
  match a with
  | .waitAcquire | .drainAcquire site ok =>
    rw [ofAct, exec_acquire hof (of_decide_eq_true hguard)]
    rfl
  | .waitTimeout | .drainTimeout site ok =>
    rw [ofAct, exec_timeout hof]
    exact congrArg some (hstutter rfl rfl rfl rfl).symm
  | .clearPending | .drainClear site ok => exact exec_one (step_wait_iff.mpr ⟨hof, rfl, rfl⟩)
  | .loadShutdown intervalElapsed value | .dequeueRequest site completedAny caller request
  | .popBatch site batch | .callExport site batch | .flushReturn site request ok answer
  | .callFlush site request ok remaining | .storeOk site request ok | .releaseDone site request
  | .callFinalFlush shutdownOk | .finalFlushReturn shutdownOk answer | .storeDrainOk shutdownOk
  | .storeStopped =>
    refine congrArg some (hstutter ?_ ?_ ?_ ?_).symm
    all_goals rfl
  | .loadCount count | .readyCount drainPartial count | .readyEmpty value
  | .drainClock site ok value | .drainEmpty site ok exportedAny value | .loadActive shutdownOk count
  | .exitEmpty shutdownOk value =>
    refine congrArg some (hstutter rfl rfl ?_ rfl).symm
    simp only [workerCommand]
    split_ifs
    all_goals rfl
  | .noRequest site completedAny =>
    exact congrArg some (hstutter rfl rfl (ofWorker_afterRequests P completedAny site) rfl).symm
  | .popLoad site count =>
    refine congrArg some (hstutter rfl rfl ?_ rfl).symm
    simp only [workerCommand]
    split_ifs
    · exact ofWorker_afterNone site
    · rfl
  | .popNone site => exact congrArg some (hstutter rfl rfl (ofWorker_afterNone site) rfl).symm
  | .popRelease site batch =>
    refine congrArg some (hstutter ?_ ?_ ?_ ?_).symm
    · rfl
    · rfl
    · simp only [workerCommand]
      split_ifs
      · rfl
      · exact ofWorker_afterExport true site
    · rfl
  | .exportReturn site batch result =>
    exact congrArg some (hstutter rfl rfl (ofWorker_afterExport _ site) rfl).symm
  | .drainResult site ok value =>
    exact congrArg some (hstutter rfl rfl (ofWorker_afterDrain P _ site) rfl).symm

/-- What the processor does to the flag and the semaphore are calls of the three functions: every
step of the processor is a sequence of steps of the channel. -/
theorem exec_ofAct {a : GalayTracing.Act ι α} (hs : GalayTracing.step P u a = some u') :
    (channel ι).exec (ofState u) (ofAct a) = some (ofState u') := by
  match a with
  | .onEnd t a => exact exec_ofAct_onEnd hs
  | .forceFlush t a => exact exec_ofAct_forceFlush hs
  | .shutdown t a => exact exec_ofAct_shutdown hs
  | .worker a => exact exec_ofAct_worker hs
  | .tick now =>
    obtain ⟨-, rfl⟩ := step_tick_iff.mp hs
    rfl

/-- Every run of the processor is a run of the channel. -/
theorem run_ofAct {h : List (GalayTracing.Act ι α)} (hr : (system ι P).Run h u) :
    (channel ι).Run (h.flatMap ofAct) (ofState u) := by
  induction hr using run_induction_step with
  | nil => exact (channel ι).run_nil
  | concat h a u u' _ hs ih =>
    rw [List.flatMap_append, Lts.Run, Lts.exec_append, Option.bind_eq_some_iff]
    refine ⟨ofState u, ih, ?_⟩
    rw [List.flatMap_singleton]
    exact exec_ofAct hs

end Processor

end WorkerControl

end GalayTracing
