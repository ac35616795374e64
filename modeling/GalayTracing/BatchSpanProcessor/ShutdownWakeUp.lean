import GalayTracing.BatchSpanProcessor.FlushRequests
import GalayTracing.BatchSpanProcessor.Ledger

/-!
# The wake-up for a shutdown

`shutdown` releases the semaphore after it has set `shutdownRequested`, so that the worker does not
sleep through a shutdown.  The inner wait of a drain takes permits of the same semaphore.  For the
drain of the shutdown branch this does no harm: the branch is only left with the counter at zero,
and whoever makes it start over will wake the worker again.  But the drain of a flush request that
began before the shutdown swallows the permit, and the worker goes back to its long wait without
having read `shutdownRequested` (`swallowedWakeUp_sleeps`).  If the drains of flush requests take
no permit without another one to come, the wake-up is never lost, `wakesForShutdown_of_run`.

The invariant says for each phase of the worker which wake-ups there have to be.
-/

namespace GalayTracing

variable {ι α : Type}

/-! ### Wake-ups for a shutdown -/

/-- The caller will release the semaphore, whatever it reads. -/
def CallerPc.bound : CallerPc α → ℕ
  | .onEnd .releaseSignal => 1
  | .forceFlush (.leave (.queued _)) | .forceFlush (.leaveLoad (.queued _))
  | .forceFlush (.leaveStore (.queued _)) | .forceFlush (.leaveRelease (.queued _))
  | .forceFlush (.notifyStore _) | .forceFlush (.notifyRelease _) => 1
  | .shutdown (.notifyStore _) | .shutdown (.notifyRelease _) => 1
  | _ => 0

/-- The caller was the last to leave `activeFlushCallers`, and releases the semaphore if a shutdown
has been requested. -/
def CallerPc.lastOut : CallerPc α → ℕ
  | .forceFlush (.leaveLoad _) | .forceFlush (.leaveStore _) | .forceFlush (.leaveRelease _) => 1
  | _ => 0

/-- The permits the caller will release when a shutdown has been requested. -/
def CallerPc.bringing (p : CallerPc α) : ℕ := p.bound + p.lastOut

/-- The caller is pushing a span and will find the processor closed, or has found it so, and
notifies the worker unless that has been done. -/
def CallerPc.turnedAway : CallerPc α → ℕ
  | .onEnd (.loadShutdown _ _) | .onEnd (.closedSub _) | .onEnd .exchangePending => 1
  | _ => 0

lemma bound_next (exit : FlushExit) :
    (exit.next : CallerPc α).bound = (CallerPc.forceFlush (.leave exit) : CallerPc α).bound := by
  cases exit <;> rfl

lemma bringing_next (exit : FlushExit) : (exit.next : CallerPc α).bringing =
    (CallerPc.forceFlush (.leave exit) : CallerPc α).bringing := by
  cases exit <;> rfl

lemma releasing_le_bringing (p : CallerPc α) : p.releasing ≤ p.bringing := by
  rcases p with _ | p | p | p
  · exact Nat.zero_le _
  all_goals cases p <;> first | exact Nat.zero_le _ | exact Nat.le_add_left 1 _

variable [DecidableEq ι] [DecidableEq α] [Fintype ι] {P : Processor α} {s s' : State ι α}
  {h : List (Act ι α)} {t : ι}

/-- The wake-ups that are there or on their way when a shutdown has been requested; the callers
announced in `activeFlushCallers` bring one, when the last of them leaves. -/
def comingWakeUps (s : State ι α) : ℕ :=
  wakeUps CallerPc.bringing s + min s.sh.activeFlushCallers 1

/-- The callers of `onEnd` that are being turned away. -/
def turnedAway (s : State ι α) : ℕ := poolSum CallerPc.turnedAway s.pc

/-- Whether a flush request is queued. -/
def queuedRequest (s : State ι α) : ℕ := min s.sh.flushRequests.length 1

/-- Another wake-up comes, possibly from a caller of `onEnd` that is being turned away. -/
def Hopeful (s : State ι α) : Prop := 1 ≤ comingWakeUps s + turnedAway s

instance (s : State ι α) : Decidable (Hopeful s) :=
  inferInstanceAs (Decidable (1 ≤ comingWakeUps s + turnedAway s))

omit [DecidableEq ι] [DecidableEq α] in
lemma wakeUps_bound_le (s : State ι α) : wakeUps CallerPc.bound s ≤ comingWakeUps s :=
  (wakeUps_le_wakeUps (fun p => Nat.le_add_right p.bound p.lastOut) s).trans (Nat.le_add_right _ _)

omit [DecidableEq ι] [DecidableEq α] in
/-- A set flag stands for a wake-up, unless the worker is about to clear it. -/
lemma Channel.one_le_comingWakeUps (hC : Channel s) (hclearing : s.worker.clearing = 0)
    (hpending : s.sh.signalPending = true) : 1 ≤ comingWakeUps s := by
  have hpermit := hC hpending
  have hle := wakeUps_le_wakeUps releasing_le_bringing s
  unfold comingWakeUps
  omega

/-! ### The phases of the worker -/

/-- The phases of the worker, by the wake-ups it depends on. -/
inductive Phase
  /-- Waiting, or about to wait after an ordinary drain. -/
  | resting
  /-- About to look for flush requests, after reading the shutdown request or about to read it. -/
  | woken
  /-- Completing flush requests, and about to wait after that. -/
  | inService
  /-- After the drain of the shutdown branch has found the counter at zero. -/
  | emptied
  /-- In the exit test. -/
  | testing
  /-- In no need of a wake-up. -/
  | free
  deriving DecidableEq

/-- The phase in which the flush requests of a call site are completed. -/
def FlushSite.phase : FlushSite → Phase
  | .head _ _ | .exitTest _ => .inService
  | .drained _ => .emptied

/-- The phase of a drain. -/
def DrainSite.phase : DrainSite → Phase
  | .request site _ => site.phase
  | .shutdown => .free

/-- The phase of a loop that pops batches. -/
def PopSite.phase : PopSite → Phase
  | .ready _ => .resting
  | .drain site _ _ => site.phase

/-- The phase of the worker. -/
def WorkerPc.phase : WorkerPc ι α → Phase
  | .wait | .loadCount | .readyCount _ | .readyEmpty => .resting
  | .clearPending | .loadShutdown _ => .woken
  | .dequeueRequest (.head _ true) false | .dequeueRequest (.exitTest _) false => .woken
  | .dequeueRequest site _ | .callFlush site _ _ | .inFlush site _ _ | .storeOk site _ _
  | .releaseDone site _ => site.phase
  | .popLoad site | .popDequeue site | .popRelease site _ | .callExport site _
  | .inExport site _ => site.phase
  | .drainClock site _ | .drainEmpty site _ _ | .drainWait site _ => site.phase
  | .drainResult (.request site _) _ => site.phase
  | .drainResult .shutdown _ => .emptied
  | .loadActive _ | .exitEmpty _ => .testing
  | _ => .free

/-- What each phase requires. -/
def Phase.Holds (s : State ι α) : Phase → Prop
  | .resting => (s.sh.shutdownRequested = false →
      queuedRequest s ≤ wakeUps CallerPc.bound s) ∧
    (s.sh.shutdownRequested = true → queuedRequest s + 1 ≤ comingWakeUps s ∨
      queuedRequest s = 0 ∧ Hopeful s)
  | .woken => s.sh.shutdownRequested = true → queuedRequest s ≤ comingWakeUps s
  | .inService => s.sh.shutdownRequested = true → Hopeful s
  | .emptied => s.sh.size = 0 ∨ Hopeful s
  | .testing => (s.sh.size = 0 ∨ Hopeful s) ∧ 2 * queuedRequest s ≤ comingWakeUps s
  | .free => True

/-- The worker has the wake-ups its phase requires. -/
def Alerted (s : State ι α) : Prop := s.worker.phase.Holds s

/-! ### Steps of the callers -/

/-- What a step of a caller does to the wake-ups for a shutdown. -/
structure CallerProgress (s s' : State ι α) : Prop where
  worker : s'.worker = s.worker
  requested : s.sh.shutdownRequested = true → s'.sh.shutdownRequested = true
  bound : wakeUps CallerPc.bound s ≤ wakeUps CallerPc.bound s'
  coming : s.sh.shutdownRequested = true → comingWakeUps s ≤ comingWakeUps s'
  first : s.sh.shutdownRequested = false → s'.sh.shutdownRequested = true →
    wakeUps CallerPc.bound s + 1 ≤ comingWakeUps s'
  queued : queuedRequest s' ≤ queuedRequest s ∨ 1 ≤ comingWakeUps s ∧
    comingWakeUps s + 1 ≤ comingWakeUps s' ∧
    wakeUps CallerPc.bound s + 1 ≤ wakeUps CallerPc.bound s'
  hopeful : s.sh.shutdownRequested = true → s.worker.clearing = 0 → Hopeful s → Hopeful s'
  size : s.sh.shutdownRequested = true → s.sh.size = 0 → s'.sh.size = 0 ∨ Hopeful s'

/-- The callers of `onEnd` that are turned away notify the worker, or find that this has been
done. -/
lemma callerProgress_onEnd {a : OnEndAct α} (hledger : Ledger P s) (hC : Channel s')
    (hs : step P s (.onEnd t a) = some s') : CallerProgress s s' := by
  have hbound := wakeUps_onEnd (w := CallerPc.bound) hs
  have hbringing := wakeUps_onEnd (w := CallerPc.bringing) hs
  have haway := poolSum_update CallerPc.turnedAway s.pc t (onEndCommand P t a).target
  rw [(step_onEnd_iff.mp hs).1, ← onEnd_pc_eq hs] at haway
  have hdecrement := hledger.sizeDecrement_le hs
  have hf := onEnd_frame hs
  obtain ⟨-, hg, hs'⟩ := step_onEnd_iff.mp hs
  have hqueue : queuedRequest s' = queuedRequest s := by rw [queuedRequest, hf.flushRequests]; rfl
  have hcarry : (onEndCommand P t a).source.bound ≤
        a.releases + (onEndCommand P t a).target.bound ∧
      (onEndCommand P t a).source.bringing ≤
        a.releases + (onEndCommand P t a).target.bringing := by
    rcases a with _ | _ | _ | _ | _ | ⟨_, _, _ | _⟩ | _ | _ | _ | _ <;>
      exact ⟨by first | exact Nat.zero_le _ | exact Nat.le_add_right 1 _,
        by first | exact Nat.zero_le _ | exact Nat.le_add_right 1 _⟩
  have hcoming : comingWakeUps s ≤ comingWakeUps s' := by
    unfold comingWakeUps
    rw [hf.activeFlushCallers]
    omega
  refine ⟨hf.worker, fun hreq => hf.shutdownRequested.trans hreq, by omega, fun _ => hcoming,
    fun hunset hset => ?_, Or.inl hqueue.le, fun hreq hclearing hhopeful => ?_, fun _ hempty => ?_⟩
  · rw [hf.shutdownRequested, hunset] at hset
    cases hset
  · unfold Hopeful turnedAway at hhopeful ⊢
    cases a with
    | loadShutdown span previous value =>
      obtain rfl : true = value := hreq.symm.trans (beq_iff_eq.mp hg)
      simp only [onEndCommand, if_true, CallerPc.turnedAway] at haway
      omega
    | exchangePending old =>
      -- the flag is set now, so there is a permit, or a caller that is about to release one
      have hone := hC.one_le_comingWakeUps (hf.worker ▸ hclearing) (by rw [hs']; rfl)
      omega
    | enqueue span previous success =>
      cases success <;> simp only [onEndCommand, CallerPc.turnedAway] at haway <;> omega
    | _ =>
      simp only [onEndCommand] at haway
      (try split_ifs at haway) <;> simp only [CallerPc.turnedAway] at haway <;> omega
  · cases a with
    | fetchAdd span previous =>
      have hprevious : previous = 0 := (beq_iff_eq.mp hg).symm.trans hempty
      have hroom : ¬P.config.queueCapacity ≤ previous := by
        have hone := P.config.one_le_maxBatchSize
        have hfits := P.config.maxBatchSize_le
        omega
      simp only [onEndCommand, if_neg hroom, CallerPc.turnedAway] at haway
      right
      unfold Hopeful turnedAway
      omega
    | fullSub span => simp only [sizeDecrement] at hdecrement; omega
    | closedSub span => simp only [sizeDecrement] at hdecrement; omega
    | failedSub span => simp only [sizeDecrement] at hdecrement; omega
    | enqueue span previous success =>
      left
      rw [hs']
      cases success <;> exact hempty
    | _ =>
      left
      rw [hs']
      exact hempty

/-- `forceFlush` is bound to notify the worker from its request on. -/
lemma wakeUps_bound_forceFlush {a : ForceFlushAct} (hs : step P s (.forceFlush t a) = some s') :
    wakeUps CallerPc.bound s ≤ wakeUps CallerPc.bound s' := by
  have hbound := wakeUps_forceFlush (w := CallerPc.bound) hs
  have hcarry : (forceFlushCommand (ι := ι) (α := α) t a).source.bound ≤
      a.releases + (forceFlushCommand (ι := ι) (α := α) t a).target.bound := by
    rcases a with _ | _ | _ | _ | _ | ⟨_, _ | _⟩ | ⟨exit, _⟩ | ⟨exit, _⟩ | exit | exit | _ | _ | _ |
        _ | _ | _ <;>
      simp only [forceFlushCommand] <;> (try split_ifs) <;> (try rw [bound_next]) <;>
      (try cases exit) <;> simp only [CallerPc.bound, ForceFlushAct.releases] <;> omega
  omega

/-- During a shutdown the last caller to leave `activeFlushCallers` brings the wake-up the announced
callers stand for. -/
lemma comingWakeUps_forceFlush {a : ForceFlushAct}
    (hactive : s.sh.activeFlushCallers = poolSum CallerPc.announced s.pc)
    (hs : step P s (.forceFlush t a) = some s') (hreq : s.sh.shutdownRequested = true) :
    comingWakeUps s ≤ comingWakeUps s' := by
  have hbringing := wakeUps_forceFlush (w := CallerPc.bringing) hs
  have hannounced := le_poolSum CallerPc.announced s.pc t
  rw [← hactive] at hannounced
  obtain ⟨hpc, hg, hs'⟩ := step_forceFlush_iff.mp hs
  rw [hpc] at hannounced
  have hcounter : s'.sh.activeFlushCallers =
      ((forceFlushCommand (α := α) t a).update s.sh).activeFlushCallers := by rw [hs']
  unfold comingWakeUps
  rw [hcounter]
  clear hs hs' hcounter hpc
  rcases a with _ | timeout | _ | _ | _ | ⟨_, _ | _⟩ | ⟨exit, previous⟩ | ⟨exit, value⟩ | exit |
    exit | _ | _ | _ | _ | _ | _
  case announce =>
    simp only [forceFlushCommand, CallerPc.bringing, CallerPc.bound, CallerPc.lastOut,
      ForceFlushAct.releases] at hbringing ⊢
    omega
  case leave =>
    have hprevious : s.sh.activeFlushCallers = previous := beq_iff_eq.mp hg
    simp only [forceFlushCommand, CallerPc.announced] at hannounced
    simp only [forceFlushCommand, ForceFlushAct.releases] at hbringing ⊢
    rw [fetchSub_of_le hannounced]
    split_ifs at hbringing with hlast
    · have hnext : (CallerPc.forceFlush (.leaveLoad exit) : CallerPc α).bringing =
          (CallerPc.forceFlush (.leave exit) : CallerPc α).bringing + 1 := by cases exit <;> rfl
      omega
    · rw [bringing_next] at hbringing
      omega
  case leaveLoad =>
    obtain rfl : true = value := hreq.symm.trans (beq_iff_eq.mp hg)
    have hsame : (CallerPc.forceFlush (.leaveStore exit) : CallerPc α).bringing =
        (CallerPc.forceFlush (.leaveLoad exit) : CallerPc α).bringing := by cases exit <;> rfl
    simp only [forceFlushCommand, if_true, ForceFlushAct.releases, id] at hbringing ⊢
    omega
  case leaveStore =>
    have hsame : (CallerPc.forceFlush (.leaveRelease exit) : CallerPc α).bringing =
        (CallerPc.forceFlush (.leaveStore exit) : CallerPc α).bringing := by cases exit <;> rfl
    simp only [forceFlushCommand, ForceFlushAct.releases] at hbringing ⊢
    omega
  case leaveRelease =>
    have hlast : (CallerPc.forceFlush (.leaveRelease exit) : CallerPc α).bringing =
        (CallerPc.forceFlush (.leave exit) : CallerPc α).bringing + 1 := by cases exit <;> rfl
    simp only [forceFlushCommand, ForceFlushAct.releases] at hbringing ⊢
    rw [bringing_next] at hbringing
    omega
  all_goals
    simp only [forceFlushCommand, ForceFlushAct.releases] at hbringing ⊢
    (try split_ifs at hbringing) <;>
      simp only [CallerPc.bringing, CallerPc.bound, CallerPc.lastOut, id] at hbringing ⊢ <;> omega

/-- A caller of `forceFlush` that enqueues a request is announced, and bound to notify the worker
after that. -/
lemma queuedRequest_forceFlush {a : ForceFlushAct}
    (hactive : s.sh.activeFlushCallers = poolSum CallerPc.announced s.pc)
    (hs : step P s (.forceFlush t a) = some s') :
    queuedRequest s' ≤ queuedRequest s ∨ 1 ≤ comingWakeUps s ∧
      comingWakeUps s + 1 ≤ comingWakeUps s' ∧
      wakeUps CallerPc.bound s + 1 ≤ wakeUps CallerPc.bound s' := by
  by_cases henqueue : ∃ request, a = .enqueue request true
  · obtain ⟨request, rfl⟩ := henqueue
    have hbound := wakeUps_forceFlush (w := CallerPc.bound) hs
    have hbringing := wakeUps_forceFlush (w := CallerPc.bringing) hs
    have hannounced := le_poolSum CallerPc.announced s.pc t
    obtain ⟨hpc, -, hs'⟩ := step_forceFlush_iff.mp hs
    rw [← hactive, hpc] at hannounced
    have hcounter : s'.sh.activeFlushCallers = s.sh.activeFlushCallers := by rw [hs']; rfl
    simp only [forceFlushCommand, CallerPc.bringing, CallerPc.bound, CallerPc.lastOut,
      CallerPc.announced, ForceFlushAct.releases] at hbound hbringing hannounced
    unfold comingWakeUps
    rw [hcounter]
    exact Or.inr ⟨by omega, by omega, by omega⟩
  · left
    obtain ⟨-, -, rfl⟩ := step_forceFlush_iff.mp hs
    rcases a with _ | _ | _ | _ | _ | ⟨request, _ | _⟩ | _ | _ | _ | _ | _ | _ | _ | _ | _ | _
    case enqueue.true => exact absurd ⟨request, rfl⟩ henqueue
    all_goals exact Nat.le_refl _

/-- `forceFlush` takes no wake-up away. -/
lemma callerProgress_forceFlush {a : ForceFlushAct}
    (hactive : s.sh.activeFlushCallers = poolSum CallerPc.announced s.pc)
    (hs : step P s (.forceFlush t a) = some s') : CallerProgress s s' := by
  have haway : turnedAway s' = turnedAway s := poolSum_forceFlush hs rfl fun _ => rfl
  have hcoming := comingWakeUps_forceFlush hactive hs
  have hf := forceFlush_frame hs
  refine ⟨hf.worker, fun hreq => hf.shutdownRequested.trans hreq, wakeUps_bound_forceFlush hs,
    hcoming, fun hunset hset => ?_, queuedRequest_forceFlush hactive hs,
    fun hreq _ hhopeful => ?_, fun _ hempty => Or.inl (hf.size.trans hempty)⟩
  · rw [hf.shutdownRequested, hunset] at hset
    cases hset
  · have hle := hcoming hreq
    unfold Hopeful at hhopeful ⊢
    omega

/-- `shutdown` brings a wake-up with its request. -/
lemma callerProgress_shutdown {a : ShutdownAct} (hs : step P s (.shutdown t a) = some s') :
    CallerProgress s s' := by
  have hbound := wakeUps_shutdown (w := CallerPc.bound) hs
  have hbringing := wakeUps_shutdown (w := CallerPc.bringing) hs
  have haway : turnedAway s' = turnedAway s := poolSum_shutdown hs rfl fun _ => rfl
  have hle := wakeUps_bound_le s
  have hf := shutdown_frame hs
  obtain ⟨-, -, hs'⟩ := step_shutdown_iff.mp hs
  have hcarry : (shutdownCommand (ι := ι) P a).source.bound ≤
        a.releases + (shutdownCommand (ι := ι) P a).target.bound ∧
      (shutdownCommand (ι := ι) P a).source.bringing ≤
        a.releases + (shutdownCommand (ι := ι) P a).target.bringing := by
    cases a <;> simp only [shutdownCommand] <;> (try split_ifs) <;>
      simp only [CallerPc.bringing, CallerPc.bound, CallerPc.lastOut, ShutdownAct.releases] <;>
      omega
  have hcoming : comingWakeUps s ≤ comingWakeUps s' := by
    unfold comingWakeUps
    rw [hf.activeFlushCallers]
    omega
  refine ⟨hf.worker, shutdownRequested_mono hs, by omega, fun _ => hcoming, fun hunset hset => ?_,
    Or.inl ?_, fun _ _ hhopeful => ?_, fun _ hempty => Or.inl (hf.size.trans hempty)⟩
  · obtain ⟨deadline, rfl⟩ : ∃ deadline, a = .storeRequested deadline := by
      rw [hs'] at hset
      cases a with
      | storeRequested deadline => exact ⟨deadline, rfl⟩
      | _ =>
        rw [show s.sh.shutdownRequested = true from hset] at hunset
        cases hunset
    simp only [shutdownCommand, CallerPc.bringing, CallerPc.bound, CallerPc.lastOut,
      ShutdownAct.releases] at hbringing
    unfold comingWakeUps at hle ⊢
    rw [hf.activeFlushCallers]
    omega
  · rw [queuedRequest, hf.flushRequests]
    exact Nat.le_refl _
  · unfold Hopeful at hhopeful ⊢
    omega

/-! ### The phases across the steps -/

omit [DecidableEq ι] [DecidableEq α] [Fintype ι] in
/-- Where a phase relies on a caller that is being turned away, the worker is not about to clear
the flag. -/
lemma clearing_eq_zero_of_phase {pc : WorkerPc ι α} (hfree : pc.phase ≠ .free)
    (hwoken : pc.phase ≠ .woken) : pc.clearing = 0 := by
  cases pc <;> first | rfl | exact absurd rfl hwoken | exact absurd rfl hfree

omit [DecidableEq ι] [DecidableEq α] [Fintype ι] in
/-- The shutdown branch is entered with the flag read as set. -/
lemma sawShutdown_of_phase {pc : WorkerPc ι α}
    (hphase : pc.phase = .emptied ∨ pc.phase = .testing) : pc.sawShutdown = true := by
  have hflush : ∀ site : FlushSite, site.phase = .emptied ∨ site.phase = .testing →
      site.sawShutdown = true := by
    rintro (_ | _ | _) (hsite | hsite) <;> first | rfl | cases hsite
  have hdrain : ∀ site : DrainSite, site.phase = .emptied ∨ site.phase = .testing →
      site.sawShutdown = true := by
    rintro (⟨site, _⟩ | _) hsite
    · exact hflush site hsite
    · rfl
  have hpop : ∀ site : PopSite, site.phase = .emptied ∨ site.phase = .testing →
      site.sawShutdown = true := by
    rintro (_ | ⟨site, _, _⟩) hsite
    · rcases hsite with hsite | hsite <;> cases hsite
    · exact hdrain site hsite
  cases pc with
  | dequeueRequest site any =>
    rcases site with ⟨_, _ | _⟩ | _ | _ <;> cases any <;>
      first | rfl | (rcases hphase with hphase | hphase <;> cases hphase)
  | drainResult site ok =>
    rcases site with ⟨site, _⟩ | _
    · exact hflush site hphase
    · rfl
  | _ =>
    first
    | rfl
    | exact hflush _ hphase
    | exact hdrain _ hphase
    | exact hpop _ hphase
    | (rcases hphase with hphase | hphase <;> cases hphase)

omit [DecidableEq ι] [DecidableEq α] in
/-- The callers take no wake-up away that the worker depends on. -/
lemma Alerted.caller (hA : Alerted s) (hseen : ShutdownSeen s) (hstep : CallerProgress s s') :
    Alerted s' := by
  have hclearing : s.worker.phase ≠ .free → s.worker.phase ≠ .woken → s.worker.clearing = 0 :=
    clearing_eq_zero_of_phase
  have hsaw : s.worker.phase = .emptied ∨ s.worker.phase = .testing →
      s.sh.shutdownRequested = true := fun hphase => hseen.worker (sawShutdown_of_phase hphase)
  have hunset : s'.sh.shutdownRequested = false → s.sh.shutdownRequested = false := fun hunset =>
    Bool.eq_false_iff.mpr fun hset => absurd (hstep.requested hset) (by rw [hunset]; nofun)
  have hhopeful : s.sh.shutdownRequested = true → s.worker.clearing = 0 →
      s.sh.size = 0 ∨ Hopeful s → s'.sh.size = 0 ∨ Hopeful s' := fun hreq hclear hor =>
    hor.elim (hstep.size hreq) fun hhope => Or.inr (hstep.hopeful hreq hclear hhope)
  have hbound := hstep.bound
  have hqueued := hstep.queued
  have hle : queuedRequest s' ≤ 1 := Nat.min_le_right _ _
  unfold Alerted at hA ⊢
  rw [hstep.worker]
  cases hphase : s.worker.phase <;> rw [hphase] at hA hclearing hsaw
  case resting =>
    obtain ⟨hbefore, hafter⟩ := hA
    refine ⟨fun hunset' => ?_, fun hreq' => ?_⟩
    · have hold := hbefore (hunset hunset')
      omega
    · cases hreq : s.sh.shutdownRequested with
      | false =>
        have hold := hbefore hreq
        have hfirst := hstep.first hreq hreq'
        exact Or.inl (by omega)
      | true =>
        have hcoming := hstep.coming hreq
        rcases hafter hreq with hold | ⟨hnone, hhope⟩
        · exact Or.inl (by omega)
        · rcases hqueued with hsame | hnew
          · exact Or.inr ⟨by omega, hstep.hopeful hreq (hclearing (by decide) (by decide)) hhope⟩
          · exact Or.inl (by omega)
  case woken =>
    intro hreq'
    cases hreq : s.sh.shutdownRequested with
    | false =>
      have hfirst := hstep.first hreq hreq'
      omega
    | true =>
      have hcoming := hstep.coming hreq
      have hold := hA hreq
      omega
  case inService =>
    intro hreq'
    cases hreq : s.sh.shutdownRequested with
    | false =>
      have hfirst := hstep.first hreq hreq'
      unfold Hopeful
      omega
    | true => exact hstep.hopeful hreq (hclearing (by decide) (by decide)) (hA hreq)
  case emptied => exact hhopeful (hsaw (Or.inl rfl)) (hclearing (by decide) (by decide)) hA
  case testing =>
    have hreq := hsaw (Or.inr rfl)
    have hcoming := hstep.coming hreq
    refine ⟨hhopeful hreq (hclearing (by decide) (by decide)) hA.1, ?_⟩
    have hold := hA.2
    omega
  case free => trivial

/-- The drain of a flush request clears the flag after it has taken a permit only if another
wake-up comes, once a shutdown has been requested; a drain after that of the shutdown branch may
also do so with the counter at zero. -/
def keepsWakeUp (s : State ι α) : Act ι α → Bool
  | .worker (.drainClear (.request (.drained _) _) _) => decide (s.sh.size = 0 ∨ Hopeful s)
  | .worker (.drainClear (.request _ _) _) =>
    decide (s.sh.shutdownRequested = true → Hopeful s)
  | _ => true

omit [Fintype ι] in
/-- A request that is dequeued was queued. -/
lemma flushRequests_dequeue {site : FlushSite} {any : Bool} {caller : ι} {request : ℕ}
    (hs : step P s (.worker (.dequeueRequest site any caller request)) = some s') :
    s.sh.flushRequests.length = s'.sh.flushRequests.length + 1 := by
  obtain ⟨-, hg, rfl⟩ := step_worker_iff.mp hs
  obtain ⟨rest, hrest⟩ := Option.isSome_iff_exists.mp hg
  have hlength := (ProducerQueue.dequeue_perm hrest).length_eq
  simpa [workerCommand, hrest] using hlength

/-- What a step of the worker does to the wake-ups for a shutdown. -/
structure WorkerProgress (a : WorkerAct ι α) (s s' : State ι α) : Prop where
  requested : s'.sh.shutdownRequested = s.sh.shutdownRequested
  bound : wakeUps CallerPc.bound s = wakeUps CallerPc.bound s' + a.acquires
  coming : comingWakeUps s = comingWakeUps s' + a.acquires
  hopeful : a.acquires = 0 → (Hopeful s ↔ Hopeful s')
  queued : queuedRequest s' ≤ queuedRequest s
  size : s.sh.size = 0 → s'.sh.size = 0

/-- The worker takes permits, and enqueues nothing. -/
lemma workerProgress {a : WorkerAct ι α} (hledger : Ledger P s)
    (hs : step P s (.worker a) = some s') : WorkerProgress a s s' := by
  have hf := worker_frame hs
  have haway : turnedAway s' = turnedAway s := by rw [turnedAway, hf.pc]; rfl
  have hcoming : comingWakeUps s = comingWakeUps s' + a.acquires := by
    have hbringing := wakeUps_worker (w := CallerPc.bringing) hs
    unfold comingWakeUps
    rw [hf.activeFlushCallers, hbringing]
    omega
  refine ⟨hf.shutdownRequested, wakeUps_worker hs, hcoming, fun hacquires => ?_, ?_,
    fun hzero => ?_⟩
  · unfold Hopeful
    omega
  · by_cases hdequeue : ∃ site any caller request, a = .dequeueRequest site any caller request
    · obtain ⟨site, any, caller, request, rfl⟩ := hdequeue
      have hlength := flushRequests_dequeue hs
      unfold queuedRequest
      omega
    · obtain ⟨-, -, rfl⟩ := step_worker_iff.mp hs
      cases a with
      | dequeueRequest site any caller request =>
        exact absurd ⟨site, any, caller, request, rfl⟩ hdequeue
      | _ => exact Nat.le_refl _
  · have hdecrement := hledger.sizeDecrement_le hs
    obtain ⟨-, -, rfl⟩ := step_worker_iff.mp hs
    cases a with
    | popRelease site batch =>
      simp only [sizeDecrement] at hdecrement
      simp only [workerCommand]
      rw [fetchSub_of_le hdecrement]
      omega
    | _ => exact hzero

omit [DecidableEq ι] [DecidableEq α] in
/-- A step of the worker that takes no permit keeps what a phase requires. -/
lemma Phase.Holds.worker {a : WorkerAct ι α} {phase : Phase} (hH : phase.Holds s)
    (hstep : WorkerProgress a s s') (hacquires : a.acquires = 0) : phase.Holds s' := by
  have hbound := hstep.bound
  have hcoming := hstep.coming
  have hqueued := hstep.queued
  have hhopeful := hstep.hopeful hacquires
  have hor : s.sh.size = 0 ∨ Hopeful s → s'.sh.size = 0 ∨ Hopeful s' :=
    Or.imp hstep.size hhopeful.mp
  cases phase with
  | resting =>
    refine ⟨fun hunset => ?_, fun hset => ?_⟩
    · have hold := hH.1 (hstep.requested ▸ hunset)
      omega
    · refine (hH.2 (hstep.requested ▸ hset)).imp (fun hold => by omega) fun hold => ?_
      exact ⟨by omega, hhopeful.mp hold.2⟩
  | woken =>
    intro hset
    have hold := hH (hstep.requested ▸ hset)
    omega
  | inService => exact fun hset => hhopeful.mp (hH (hstep.requested ▸ hset))
  | emptied => exact hor hH
  | testing =>
    have hold := hH.2
    exact ⟨hor hH.1, by omega⟩
  | free => trivial

omit [DecidableEq ι] [DecidableEq α] in
/-- With no request queued, the worker may wait again if another wake-up comes. -/
lemma resting_of_hopeful (hnone : s.sh.flushRequests = [])
    (hhope : s.sh.shutdownRequested = true → Hopeful s) : Phase.resting.Holds s := by
  have hzero : queuedRequest s = 0 := by rw [queuedRequest, hnone]; rfl
  exact ⟨fun _ => by omega, fun hset => Or.inr ⟨hzero, hhope hset⟩⟩

omit [DecidableEq ι] [DecidableEq α] [Fintype ι] in
lemma phase_afterNone (site : PopSite) : (site.afterNone : WorkerPc ι α).phase = site.phase := by
  cases site <;> rfl

omit [DecidableEq ι] [DecidableEq α] [Fintype ι] in
lemma phase_afterExport (success : Bool) (site : PopSite) :
    (site.afterExport success : WorkerPc ι α).phase = site.phase := by
  cases site <;> rfl

/-- The worker moves on to a phase whose wake-ups are there. -/
lemma Alerted.worker {a : WorkerAct ι α} (hnow : s.sh.now ≤ timePointMax) (hledger : Ledger P s)
    (hseen : ShutdownSeen s) (hA : Alerted s) (hkeeps : keepsWakeUp s (Act.worker a) = true)
    (hs : step P s (.worker a) = some s') : Alerted s' := by
  have hstep := workerProgress hledger hs
  have hsaw := hseen.worker
  obtain ⟨hsource, hg, hs'⟩ := step_worker_iff.mp hs
  have htarget : s'.worker = (workerCommand P a).target := by rw [hs']
  unfold Alerted at hA ⊢
  rw [hsource] at hA hsaw
  rw [htarget]
  have hkeep : a.acquires = 0 →
      (workerCommand P a).target.phase = (workerCommand P a).source.phase →
      (workerCommand P a).target.phase.Holds s' := by
    intro hacquires hphase
    rw [hphase]
    exact hA.worker hstep hacquires
  cases a with
  | waitAcquire =>
    intro hset
    have hcoming := hstep.coming
    have hqueued := hstep.queued
    simp only [WorkerAct.acquires] at hcoming
    rcases hA.2 (hstep.requested ▸ hset) with hold | ⟨hnone, -⟩ <;> omega
  | waitTimeout =>
    intro hset
    have hcoming := hstep.coming
    have hqueued := hstep.queued
    simp only [WorkerAct.acquires] at hcoming
    rcases hA.2 (hstep.requested ▸ hset) with hold | ⟨hnone, -⟩ <;> omega
  | loadShutdown elapsed value =>
    cases value with
    | true => exact hkeep rfl rfl
    | false =>
      intro hset
      rw [hstep.requested, show s.sh.shutdownRequested = false from beq_iff_eq.mp hg] at hset
      cases hset
  | dequeueRequest site any caller request =>
    -- the request that is dequeued has brought the wake-up the worker needs after serving it
    have hserve : Phase.woken.Holds s → Phase.inService.Holds s' := by
      intro hwoken hset
      have hlength := flushRequests_dequeue hs
      have hold := hwoken (hstep.requested ▸ hset)
      have hcoming := hstep.coming
      simp only [WorkerAct.acquires] at hcoming
      unfold queuedRequest at hold
      unfold Hopeful
      omega
    rcases site with ⟨elapsed, _ | _⟩ | ok | ok <;> cases any <;>
      first | exact hkeep rfl rfl | exact hserve hA
  | noRequest site any =>
    have hnone : s'.sh.flushRequests = [] := by
      rw [hs']
      exact List.isEmpty_iff.mp hg
    have hwait : Phase.inService.Holds s → Phase.resting.Holds s' := fun hservice =>
      resting_of_hopeful hnone fun hset =>
        (hstep.hopeful rfl).mp (hservice (hstep.requested ▸ hset))
    cases site with
    | head elapsed requested =>
      cases any with
      | true => cases requested <;> exact hwait hA
      | false =>
        cases requested with
        | true => trivial
        | false =>
          have hphase : (ordinaryDrain P.config elapsed : WorkerPc ι α).phase = .resting := by
            unfold ordinaryDrain
            split_ifs <;> rfl
          have htarget' : (workerCommand P (.noRequest (ι := ι) (α := α) (.head elapsed false)
              false)).target = ordinaryDrain P.config elapsed := rfl
          rw [htarget', hphase]
          exact hwait hA
    | drained ok =>
      have hzero : queuedRequest s' = 0 := by rw [queuedRequest, hnone]; rfl
      exact ⟨hA.imp hstep.size (hstep.hopeful rfl).mp, by omega⟩
    | exitTest ok =>
      cases any with
      | true => exact hwait hA
      | false =>
        simp only [workerCommand, FlushSite.afterRequests, Bool.false_eq_true, if_false]
        split_ifs <;> trivial
  | popLoad site count =>
    refine hkeep rfl ?_
    simp only [workerCommand]
    split_ifs
    · exact phase_afterNone site
    · rfl
  | popNone site => exact hkeep rfl (phase_afterNone site)
  | popRelease site batch =>
    refine hkeep rfl ?_
    simp only [workerCommand]
    split_ifs
    · rfl
    · exact phase_afterExport _ site
  | exportReturn site batch result => exact hkeep rfl (phase_afterExport _ site)
  | drainClock site ok value =>
    cases value with
    | true => exact hkeep rfl rfl
    | false =>
      cases site with
      | request site id => exact hkeep rfl rfl
      | shutdown =>
        -- the deadline of the shutdown drain cannot pass
        have hpassed : ¬s.sh.now ≤ timePointMax := of_decide_eq_false (beq_iff_eq.mp hg)
        exact absurd hnow hpassed
  | drainEmpty site ok any value =>
    cases value with
    | true =>
      cases site with
      | request site id => exact hkeep rfl rfl
      | shutdown => exact Or.inl (hstep.size (beq_iff_eq.mp (beq_iff_eq.mp hg)))
    | false => cases any <;> exact hkeep rfl rfl
  | drainAcquire site ok => trivial
  | drainClear site ok =>
    rcases site with ⟨site | site | site, id⟩ | _
    · exact fun hset => (hstep.hopeful rfl).mp (of_decide_eq_true hkeeps (hstep.requested ▸ hset))
    · exact (of_decide_eq_true hkeeps).imp hstep.size (hstep.hopeful rfl).mp
    · exact fun hset => (hstep.hopeful rfl).mp (of_decide_eq_true hkeeps (hstep.requested ▸ hset))
    · trivial
  | drainResult site ok value =>
    cases site with
    | request site id =>
      refine hkeep rfl ?_
      simp only [workerCommand, DrainSite.afterDrain]
      split_ifs <;> rfl
    | shutdown => exact hkeep rfl rfl
  | loadActive ok count =>
    by_cases hzero : count = 0
    · refine hkeep rfl ?_
      simp only [workerCommand, if_pos hzero]
      rfl
    · -- the last of the announced callers will wake the worker again
      have hactive : s.sh.activeFlushCallers = count := beq_iff_eq.mp hg
      have hset := hsaw rfl
      have hold : Phase.resting.Holds s := by
        refine ⟨fun hunset => absurd (hset.symm.trans hunset) (by decide), fun _ => Or.inl ?_⟩
        have hbusy : 1 ≤ comingWakeUps s := by
          unfold comingWakeUps
          omega
        have hqueued := hA.2
        have hle : queuedRequest s ≤ 1 := Nat.min_le_right _ _
        omega
      simp only [workerCommand, if_neg hzero]
      exact hold.worker hstep rfl
  | exitEmpty ok value =>
    have hqueued := hA.2
    have hset := hsaw rfl
    cases value with
    | true =>
      have hold : Phase.woken.Holds s := fun _ => by omega
      exact hold.worker hstep rfl
    | false =>
      have hread : (s.sh.size == 0) = false := beq_iff_eq.mp hg
      have hsize : s.sh.size ≠ 0 := fun hzero => by
        rw [hzero] at hread
        cases hread
      have hold : Phase.resting.Holds s := by
        refine ⟨fun hunset => absurd (hset.symm.trans hunset) (by decide), fun _ => ?_⟩
        by_cases hnone : queuedRequest s = 0
        · exact Or.inr ⟨hnone, hA.1.resolve_left hsize⟩
        · exact Or.inl (by omega)
      exact hold.worker hstep rfl
  | releaseDone site request => rcases site with ⟨_, _ | _⟩ | _ | _ <;> exact hkeep rfl rfl
  | _ =>
    refine hkeep rfl ?_
    simp only [workerCommand]
    (try split_ifs) <;> rfl

/-- In a run in which every drain of a flush request keeps a wake-up for the shutdown, the worker
always has the wake-ups its phase requires. -/
theorem alerted_of_run (hr : (system ι P).Run h s)
    (hc : (system ι P).StepsMeet keepsWakeUp h) : Alerted s := by
  induction hr, hc using run_induction_where with
  | nil hc => exact resting_of_hopeful rfl fun hset => by cases hset
  | onEnd h s s' t a hr hs hc hC ih =>
    have hr' : (system ι P).Run (h ++ [.onEnd t a]) s' := hr.concat hs
    exact ih.caller (shutdownSeen_of_run hr)
      (callerProgress_onEnd (ledger_of_run hr) (channel_of_run hr') hs)
  | forceFlush h s s' t a hr hs hc hC ih =>
    exact ih.caller (shutdownSeen_of_run hr)
      (callerProgress_forceFlush (activeFlushCallers_eq_of_run hr) hs)
  | shutdown h s s' t a hr hs hc hC ih =>
    exact ih.caller (shutdownSeen_of_run hr) (callerProgress_shutdown hs)
  | worker h s s' a hr hs hc hkeeps ih =>
    exact ih.worker (now_le_of_run hr) (ledger_of_run hr) (shutdownSeen_of_run hr) hkeeps hs
  | tick h s s' now hr hs hc hC ih =>
    obtain ⟨-, rfl⟩ := step_tick_iff.mp hs
    exact ih

/-! ### The wake-up is not lost -/

/-- The caller has requested the shutdown and has not completed `forceNotify`. -/
def CallerPc.notifying : CallerPc α → Bool
  | .shutdown (.notifyStore _) | .shutdown (.notifyRelease _) => true
  | _ => false

/-- Once a shutdown has been requested and the worker has been notified of it, and no call of
`onEnd` or `forceFlush` is in progress, a worker in the wait of the main loop finds a permit. -/
def WakesForShutdown (s : State ι α) : Prop :=
  s.sh.shutdownRequested = true → (∀ t, (s.pc t).notifying = false) → Quiet s →
    s.worker = .wait → 0 < s.sh.signal

/-- The worker never sleeps through a shutdown, in every run in which the drains of flush requests
keep a wake-up for it. -/
theorem wakesForShutdown_of_run (hr : (system ι P).Run h s)
    (hc : (system ι P).StepsMeet keepsWakeUp h) : WakesForShutdown s := by
  intro hset hnotified hquiet hwait
  have halerted := alerted_of_run hr hc
  rw [Alerted, hwait] at halerted
  have hcallers : ∀ t,
      (s.pc t).bringing = 0 ∧ (s.pc t).turnedAway = 0 ∧ (s.pc t).announced = 0 := by
    intro t
    have hoff := hquiet t
    have hnot := hnotified t
    cases hpc : s.pc t with
    | idle => exact ⟨rfl, rfl, rfl⟩
    | onEnd p => rw [hpc] at hoff; cases hoff
    | forceFlush p => rw [hpc] at hoff; cases hoff
    | shutdown p =>
      rw [hpc] at hnot
      cases p <;> first | exact ⟨rfl, rfl, rfl⟩ | cases hnot
  have haway : turnedAway s = 0 :=
    (poolSum_eq_zero_iff _ s.pc).mpr fun t => (hcallers t).2.1
  have hbringing : poolSum CallerPc.bringing s.pc = 0 :=
    (poolSum_eq_zero_iff _ s.pc).mpr fun t => (hcallers t).1
  have hactive : s.sh.activeFlushCallers = 0 := by
    rw [activeFlushCallers_eq_of_run hr]
    exact (poolSum_eq_zero_iff _ s.pc).mpr fun t => (hcallers t).2.2
  have hcoming : comingWakeUps s = s.sh.signal := by
    rw [comingWakeUps, wakeUps, hbringing, hactive]
    rfl
  rcases halerted.2 hset with hone | ⟨-, hhope⟩
  · omega
  · unfold Hopeful at hhope
    omega

/-- A caller requests the shutdown while the worker waits. -/
def shutdownWhileWaiting : List (Act Thread ℕ) :=
  [.shutdown .t₁ (.call 1 1000000), .shutdown .t₁ (.storeRequested 1000000),
    .shutdown .t₁ (.notifyStore 1000000), .shutdown .t₁ (.notifyRelease 1000000)]

/-- The worker finds the permit the caller has released. -/
theorem wakesForShutdown_shutdownWhileWaiting :
    ∃ s, (system Thread (smallProcessor .kTimed 1 1)).Run shutdownWhileWaiting s ∧
      WakesForShutdown s := by
  obtain ⟨s, hr, -⟩ := Lts.exists_run_of_any (L := system Thread (smallProcessor .kTimed 1 1))
    (h := shutdownWhileWaiting) (p := fun _ => true) (by decide)
  exact ⟨s, hr, wakesForShutdown_of_run hr (by decide)⟩

/-- The worker drains the queue for a flush request whose deadline has passed meanwhile, and finds
it empty; then a push is counted, a caller requests the shutdown, and the drain takes the permit
that was to tell the worker about it. -/
def swallowedWakeUp : List (Act Thread ℕ) :=
  [.onEnd .t₁ (.call 5), .forceFlush .t₂ (.call 1), .forceFlush .t₂ (.announce 1),
    .forceFlush .t₂ (.loadShutdown 1 false), .forceFlush .t₂ (.loadStopped 1 false),
    .forceFlush .t₂ (.create 1 0), .forceFlush .t₂ (.enqueue 0 true),
    .forceFlush .t₂ (.leave (.queued 0) 1), .forceFlush .t₂ (.leaveLoad (.queued 0) false),
    .forceFlush .t₂ (.notifyStore 0), .forceFlush .t₂ (.notifyRelease 0),
    .shutdown .t₃ (.call 100 100000000), .worker .waitAcquire, .worker .clearPending,
    .worker (.loadShutdown false false), .worker (.dequeueRequest (.head false false) false .t₂ 0),
    .worker (.drainClock (.request (.head false false) 0) true true), .tick 1000001,
    .forceFlush .t₂ (.timeoutDone 0),
    .worker (.popLoad (.drain (.request (.head false false) 0) true false) 0),
    .onEnd .t₁ (.fetchAdd 5 0), .onEnd .t₁ (.loadShutdown 5 0 false),
    .onEnd .t₁ (.enqueue 5 0 true), .shutdown .t₃ (.storeRequested 100000000),
    .shutdown .t₃ (.notifyStore 100000000), .shutdown .t₃ (.notifyRelease 100000000),
    .worker (.drainEmpty (.request (.head false false) 0) true false false),
    .worker (.drainAcquire (.request (.head false false) 0) true),
    .worker (.drainClear (.request (.head false false) 0) true),
    .worker (.drainClock (.request (.head false false) 0) true false),
    .worker (.drainResult (.request (.head false false) 0) true false),
    .worker (.callFlush (.head false false) 0 false 0),
    .worker (.flushReturn (.head false false) 0 false true),
    .worker (.storeOk (.head false false) 0 false), .worker (.releaseDone (.head false false) 0),
    .worker (.noRequest (.head false false) true)]

/-- The worker is blocked in its long wait although the shutdown has been requested and the caller
has notified it. -/
theorem swallowedWakeUp_sleeps :
    ∃ s, (system Thread (smallProcessor .kTimed 1 1)).Run swallowedWakeUp s ∧
      ¬WakesForShutdown s := by
  obtain ⟨s, hr, hs⟩ := Lts.exists_run_of_any (L := system Thread (smallProcessor .kTimed 1 1))
    (h := swallowedWakeUp) (p := fun s => decide (s.sh.shutdownRequested = true ∧
      (∀ t, (s.pc t).notifying = false) ∧ Quiet s ∧ Blocked s)) (by decide)
  obtain ⟨hset, hnotified, hquiet, hwait, hsignal⟩ := of_decide_eq_true hs
  refine ⟨s, hr, fun hwakes => ?_⟩
  have hpermit := hwakes hset hnotified hquiet hwait
  omega

end GalayTracing
