import GalayTracing.BatchSpanProcessor.Conservation
import GalayTracing.BatchSpanProcessor.Signal

/-!
# Scheduling by `onEnd`

In the mode `kOnEnd` every accepted span wakes the worker.  The wake-up can be merged into that of
a flush request, and the worker that has served a request goes back to waiting without an ordinary
drain; the span then depends on the drain of the request.  When that drain stops at its deadline
before it has emptied the queue, the span is stranded until the flush interval elapses
(`mergedWakeUp_strands`).  If no drain stops so, no span is ever stranded, `notStranded_of_run`.
-/

namespace GalayTracing

variable {ι α : Type}

/-- The caller is bound to release the semaphore, or relies on a permit that is already there. -/
def CallerPc.waking : CallerPc α → ℕ
  | .onEnd .exchangePending | .onEnd .releaseSignal => 1
  | .forceFlush (.leave (.queued _)) | .forceFlush (.leaveLoad (.queued _))
  | .forceFlush (.leaveStore _) | .forceFlush (.leaveRelease _)
  | .forceFlush (.notifyStore _) | .forceFlush (.notifyRelease _) => 1
  | .shutdown (.notifyStore _) | .shutdown (.notifyRelease _) => 1
  | _ => 0

/-- The loop pops until it finds the queue empty. -/
def PopSite.untilEmpty : PopSite → ℕ
  | .ready drainPartial => drainPartial.toNat
  | .drain _ _ _ => 1

/-- The worker is awake and will look at the queue before it waits again. -/
def WorkerPc.attentive : WorkerPc ι α → ℕ
  | .clearPending | .loadShutdown _ | .dequeueRequest (.head _ _) false | .readyEmpty => 1
  | .readyCount drainPartial => drainPartial.toNat
  | .popLoad site | .popDequeue site | .popRelease site _ | .callExport site _
  | .inExport site _ => site.untilEmpty
  | .drainClock _ _ | .drainEmpty _ _ _ | .drainWait _ _ | .drainClear _ _ => 1
  | _ => 0

lemma releasing_le_waking (p : CallerPc α) : p.releasing ≤ p.waking := by
  rcases p with _ | p | p | p
  · exact Nat.zero_le _
  all_goals cases p <;> first | exact Nat.zero_le _ | exact Nat.le_refl 1

lemma waking_next (exit : FlushExit) :
    (exit.next : CallerPc α).waking = (CallerPc.forceFlush (.leave exit) : CallerPc α).waking := by
  cases exit <;> rfl

lemma attentive_afterExport (success : Bool) (site : PopSite) :
    (site.afterExport success : WorkerPc ι α).attentive = site.untilEmpty := by
  cases site <;> rfl

variable [DecidableEq ι] [DecidableEq α] [Fintype ι] {P : Processor α} {s s' : State ι α}
  {h : List (Act ι α)} {t : ι}

/-- The queue is empty, or a wake-up is there or on its way, or the worker will look at it. -/
def Attended (s : State ι α) : Prop :=
  s.sh.spans = [] ∨ 1 ≤ wakeUps CallerPc.waking s + s.worker.attentive

omit [DecidableEq ι] [DecidableEq α] in
/-- A set flag stands for a wake-up. -/
lemma Channel.wakeUps_waking (hC : Channel s) (hpending : s.sh.signalPending = true) :
    1 ≤ wakeUps CallerPc.waking s + s.worker.attentive := by
  have hpermit := hC hpending
  have hle := wakeUps_le_wakeUps releasing_le_waking s
  have hclearing : s.worker.clearing ≤ s.worker.attentive := by
    cases s.worker <;> first | exact Nat.zero_le _ | exact Nat.le_refl 1
  omega

/-- `onEnd` does not leave a span unattended: the push that enqueues it goes on to `notify`, which
sets the flag or finds it set. -/
lemma Attended.onEnd {a : OnEndAct α} (hmode : P.config.scheduleMode = .kOnEnd)
    (hA : Attended s) (hC : Channel s') (hs : step P s (.onEnd t a) = some s') : Attended s' := by
  have hw := wakeUps_onEnd (w := CallerPc.waking) hs
  have hworker := (onEnd_frame hs).worker
  obtain ⟨-, -, hs'⟩ := step_onEnd_iff.mp hs
  cases a with
  | exchangePending old =>
    refine Or.inr (hC.wakeUps_waking ?_)
    rw [hs']
    rfl
  | enqueue span previous success =>
    cases success with
    | true =>
      have hnotify : shouldNotify P.config (previous + 1) = true := by
        rw [shouldNotify, hmode]
      simp only [onEndCommand, hnotify, if_true, CallerPc.waking] at hw
      exact Or.inr (by omega)
    | false =>
      refine hA.imp (fun hempty => by rw [hs']; exact hempty) fun hattended => ?_
      simp only [onEndCommand, CallerPc.waking, OnEndAct.releases] at hw
      rw [hworker]
      omega
  | _ =>
    refine hA.imp (fun hempty => by rw [hs']; exact hempty) fun hattended => ?_
    rw [hworker]
    simp only [onEndCommand, OnEndAct.releases] at hw
    (try split_ifs at hw) <;> simp only [CallerPc.waking] at hw <;> omega

/-- `forceFlush` carries its wake-up from the enqueued request to the released permit. -/
lemma Attended.forceFlush {a : ForceFlushAct} (hA : Attended s)
    (hs : step P s (.forceFlush t a) = some s') : Attended s' := by
  have hw := wakeUps_forceFlush (w := CallerPc.waking) hs
  have hf := forceFlush_frame hs
  refine hA.imp (fun hempty => hf.spans.trans hempty) fun hattended => ?_
  have hle : (forceFlushCommand (ι := ι) (α := α) t a).source.waking ≤
      a.releases + (forceFlushCommand (ι := ι) (α := α) t a).target.waking := by
    rcases a with _ | _ | _ | _ | _ | ⟨_, _ | _⟩ | ⟨exit, _⟩ | ⟨exit, _⟩ | exit | exit | _ | _ | _ |
        _ | _ | _ <;>
      simp only [forceFlushCommand] <;> (try split_ifs) <;> (try rw [waking_next]) <;>
      (try cases exit) <;> simp only [CallerPc.waking, ForceFlushAct.releases] <;> omega
  rw [hf.worker]
  omega

/-- `shutdown` carries its wake-up to the released permit. -/
lemma Attended.shutdown {a : ShutdownAct} (hA : Attended s)
    (hs : step P s (.shutdown t a) = some s') : Attended s' := by
  have hw := wakeUps_shutdown (w := CallerPc.waking) hs
  have hf := shutdown_frame hs
  refine hA.imp (fun hempty => hf.spans.trans hempty) fun hattended => ?_
  have hle : (shutdownCommand (ι := ι) P a).source.waking ≤
      a.releases + (shutdownCommand (ι := ι) P a).target.waking := by
    cases a <;> simp only [shutdownCommand] <;> (try split_ifs) <;>
      simp only [CallerPc.waking, ShutdownAct.releases] <;> omega
  rw [hf.worker]
  omega

/-- A drain that stops at its deadline leaves the queue empty or finds another wake-up. -/
def drainExpiresAttended (s : State ι α) : Act ι α → Bool
  | .worker (.drainClock _ _ false) =>
    s.sh.spans.isEmpty || decide (1 ≤ wakeUps CallerPc.waking s)
  | _ => true

/-- The worker turns its attention away only from an empty queue, or with a wake-up to come. -/
lemma Attended.worker {a : WorkerAct ι α} (hmode : P.config.scheduleMode = .kOnEnd)
    (hledger : Ledger P s) (hA : Attended s)
    (hexpires : drainExpiresAttended s (Act.worker a) = true)
    (hs : step P s (.worker a) = some s') : Attended s' := by
  have hw := wakeUps_worker (w := CallerPc.waking) hs
  have hspans := worker_spans hs
  have hpop : ∀ site batch, a = .popBatch site batch →
      s'.sh.spans.length + batch.length = s.sh.spans.length := by
    rintro site batch rfl
    have hlen := ProducerQueue.dequeueBulk_length (step_popBatch hs).2.2.2.2.2
    omega
  obtain ⟨hsource, hg, hs'⟩ := step_worker_iff.mp hs
  have hsource' : s'.worker = (workerCommand P a).target := by rw [hs']
  have hawake : (workerCommand P a).target.attentive = 1 → Attended s' :=
    fun hone => Or.inr (by rw [hsource', hone]; exact Nat.le_add_left 1 _)
  -- a step that takes no permit keeps the attention when it does not lower it
  have hkeep : a.acquires = 0 → a.pops = false →
      (workerCommand P a).source.attentive ≤ (workerCommand P a).target.attentive →
      Attended s' := by
    intro hacquires hpops hle
    rw [← hsource, ← hsource'] at hle
    rcases hA with hempty | hattended
    · exact Or.inl ((hspans hpops).trans hempty)
    · exact Or.inr (by omega)
  have hempty : s.sh.size = 0 → a.pops = false → Attended s' :=
    fun hzero hpops => Or.inl ((hspans hpops).trans (hledger.empty_of_size_eq_zero hzero).1)
  cases a with
  | waitAcquire => exact hawake rfl
  | waitTimeout => exact hawake rfl
  | clearPending => exact hawake rfl
  | loadShutdown elapsed value => exact hawake rfl
  | dequeueRequest site any caller request => exact hawake rfl
  | noRequest site any =>
    cases site with
    | head elapsed requested =>
      cases any with
      | true => exact hkeep rfl rfl (Nat.zero_le _)
      | false =>
        refine hawake ?_
        cases requested with
        | true => rfl
        | false =>
          have hdrain : (ordinaryDrain P.config elapsed : WorkerPc ι α) = .readyCount true := by
            rw [ordinaryDrain, hmode]
            exact if_pos (Bool.or_true elapsed)
          exact congrArg WorkerPc.attentive hdrain
    | drained ok => exact hkeep rfl rfl (Nat.zero_le _)
    | exitTest ok => exact hkeep rfl rfl (Nat.zero_le _)
  | readyCount drainPartial count =>
    refine hkeep rfl rfl ?_
    cases drainPartial with
    | false => exact Nat.zero_le _
    | true =>
      simp only [workerCommand, if_true]
      split_ifs <;> exact Nat.le_refl 1
  | readyEmpty value =>
    cases value with
    | true => exact hempty (beq_iff_eq.mp (beq_iff_eq.mp hg)) rfl
    | false => exact hawake rfl
  | popLoad site count =>
    by_cases hzero : count = 0
    · exact hempty ((beq_iff_eq.mp hg).trans hzero) rfl
    · refine hkeep rfl rfl (le_of_eq ?_)
      simp only [workerCommand, if_neg hzero]
      rfl
  | popBatch site batch =>
    rcases hA with hnil | hattended
    · refine Or.inl (List.length_eq_zero_iff.mp ?_)
      have hlen := hpop site batch rfl
      rw [hnil, List.length_nil] at hlen
      omega
    · rw [hsource, hw] at hattended
      rw [Attended, hsource']
      exact Or.inr hattended
  | popNone site => exact Or.inl ((hspans rfl).trans (List.isEmpty_iff.mp hg))
  | popRelease site batch =>
    refine hkeep rfl rfl (le_of_eq ?_)
    simp only [workerCommand]
    split_ifs
    · rfl
    · exact (attentive_afterExport _ _).symm
  | callExport site batch => exact hkeep rfl rfl (Nat.le_refl _)
  | exportReturn site batch result =>
    exact hkeep rfl rfl (le_of_eq (attentive_afterExport _ _).symm)
  | drainClock site ok value =>
    cases value with
    | true => exact hawake rfl
    | false =>
      rcases Bool.or_eq_true_iff.mp hexpires with hnil | hcoming
      · exact Or.inl ((hspans rfl).trans (List.isEmpty_iff.mp hnil))
      · refine Or.inr (le_trans (of_decide_eq_true hcoming) ?_)
        rw [hw]
        exact Nat.le_add_right _ _
  | drainEmpty site ok exportedAny value =>
    cases value with
    | true => exact hempty (beq_iff_eq.mp (beq_iff_eq.mp hg)) rfl
    | false => cases exportedAny <;> exact hawake rfl
  | drainAcquire site ok => exact hawake rfl
  | drainTimeout site ok => exact hawake rfl
  | drainClear site ok => exact hawake rfl
  | _ => exact hkeep rfl rfl (Nat.zero_le _)

/-- In a run in which no drain stops at its deadline with spans queued and no wake-up to come,
the queue is attended to. -/
theorem attended_of_run (hmode : P.config.scheduleMode = .kOnEnd) (hr : (system ι P).Run h s)
    (hc : (system ι P).StepsMeet drainExpiresAttended h) : Attended s := by
  induction hr, hc using run_induction_where with
  | nil hc => exact Or.inl rfl
  | onEnd h s s' t a hr hs hc hexpires ih =>
    exact ih.onEnd hmode (channel_of_run (run_step hr hs)) hs
  | forceFlush h s s' t a hr hs hc hexpires ih => exact ih.forceFlush hs
  | shutdown h s s' t a hr hs hc hexpires ih => exact ih.shutdown hs
  | worker h s s' a hr hs hc hexpires ih => exact ih.worker hmode (ledger_of_run hr) hexpires hs
  | tick h s s' now hr hs hc hexpires ih =>
    have hw := wakeUps_tick (w := CallerPc.waking) hs
    obtain ⟨-, rfl⟩ := step_tick_iff.mp hs
    exact ih.imp_right fun hattended => by rw [hw]; exact hattended

/-- Before any shutdown, when no call of `onEnd` or `forceFlush` is in progress and the worker is
blocked, the queue is empty. -/
def NotStranded (s : State ι α) : Prop :=
  s.sh.shutdownRequested = false → Quiet s → Blocked s → s.sh.spans = []

/-- In the mode `kOnEnd` no span is left stranded, in every run in which no drain stops at its
deadline with spans queued and no wake-up to come. -/
theorem notStranded_of_run (hmode : P.config.scheduleMode = .kOnEnd)
    (hr : (system ι P).Run h s) (hc : (system ι P).StepsMeet drainExpiresAttended h) :
    NotStranded s := by
  intro hrequested hquiet hblocked
  have hcallers : ∀ t, (s.pc t).waking = 0 := by
    intro t
    have hseen := (shutdownSeen_of_run hr).caller t
    have hoff := hquiet t
    rw [hrequested] at hseen
    cases hpc : s.pc t with
    | idle => rfl
    | onEnd p => rw [hpc] at hoff; cases hoff
    | forceFlush p => rw [hpc] at hoff; cases hoff
    | shutdown p =>
      rw [hpc] at hseen
      cases p <;> first | rfl | exact absurd (hseen rfl) Bool.false_ne_true
  rcases attended_of_run hmode hr hc with hempty | hattended
  · exact hempty
  · rw [wakeUps_eq_zero hcallers hblocked, hblocked.1] at hattended
    exact absurd hattended (Nat.not_succ_le_zero 0)

/-- A span that is exported by the worker's ordinary drain. -/
def exportOne : List (Act Thread ℕ) :=
  [.onEnd .t₁ (.call 5), .onEnd .t₁ (.fetchAdd 5 0), .onEnd .t₁ (.loadShutdown 5 0 false),
    .onEnd .t₁ (.enqueue 5 0 true), .onEnd .t₁ (.exchangePending false), .onEnd .t₁ .releaseSignal,
    .worker .waitAcquire, .worker .clearPending, .worker (.loadShutdown false false),
    .worker (.noRequest (.head false false) false), .worker (.readyCount true 1),
    .worker (.popLoad (.ready true) 1), .worker (.popBatch (.ready true) [(.t₁, 5)]),
    .worker (.popRelease (.ready true) [(.t₁, 5)]), .worker (.callExport (.ready true) [(.t₁, 5)]),
    .worker (.exportReturn (.ready true) [(.t₁, 5)] .kSuccess), .worker (.readyCount true 0),
    .worker (.readyEmpty true)]

/-- After an ordinary drain nothing is stranded. -/
theorem notStranded_exportOne :
    ∃ s, (system Thread (smallProcessor .kOnEnd 1 1)).Run exportOne s ∧ NotStranded s := by
  obtain ⟨s, hr, -⟩ := Lts.exists_run_of_any (L := system Thread (smallProcessor .kOnEnd 1 1))
    (h := exportOne) (p := fun _ => true) (by decide)
  exact ⟨s, hr, notStranded_of_run rfl hr (by decide)⟩

/-- The wake-up for the span `5` is merged into that of a flush request whose deadline passes
before the worker serves it. -/
def mergedWakeUp : List (Act Thread ℕ) :=
  [.onEnd .t₁ (.call 5), .onEnd .t₁ (.fetchAdd 5 0), .onEnd .t₁ (.loadShutdown 5 0 false),
    .onEnd .t₁ (.enqueue 5 0 true), .forceFlush .t₂ (.call 1), .forceFlush .t₂ (.announce 1),
    .forceFlush .t₂ (.loadShutdown 1 false), .forceFlush .t₂ (.loadStopped 1 false),
    .forceFlush .t₂ (.create 1 0), .forceFlush .t₂ (.enqueue 0 true),
    .forceFlush .t₂ (.leave (.queued 0) 1), .forceFlush .t₂ (.leaveLoad (.queued 0) false),
    .forceFlush .t₂ (.notifyStore 0), .onEnd .t₁ (.exchangePending true),
    .forceFlush .t₂ (.notifyRelease 0), .tick 1000001, .forceFlush .t₂ (.timeoutDone 0),
    .worker .waitAcquire, .worker .clearPending, .worker (.loadShutdown false false),
    .worker (.dequeueRequest (.head false false) false .t₂ 0),
    .worker (.drainClock (.request (.head false false) 0) true false),
    .worker (.drainResult (.request (.head false false) 0) true false),
    .worker (.callFlush (.head false false) 0 false 0),
    .worker (.flushReturn (.head false false) 0 false true),
    .worker (.storeOk (.head false false) 0 false), .worker (.releaseDone (.head false false) 0),
    .worker (.noRequest (.head false false) true)]

/-- A span is stranded in the mode `kOnEnd`: nobody is inside, the worker is blocked, and the
queue is not empty. -/
theorem mergedWakeUp_strands :
    ∃ s, (system Thread (smallProcessor .kOnEnd 1 1)).Run mergedWakeUp s ∧ ¬NotStranded s := by
  obtain ⟨s, hr, hs⟩ := Lts.exists_run_of_any (L := system Thread (smallProcessor .kOnEnd 1 1))
    (h := mergedWakeUp) (p := fun s => decide (s.sh.shutdownRequested = false ∧ Quiet s ∧
      Blocked s ∧ s.sh.spans ≠ [])) (by decide)
  obtain ⟨hrequested, hquiet, hblocked, hspans⟩ := of_decide_eq_true hs
  exact ⟨s, hr, fun hnot => hspans (hnot hrequested hquiet hblocked)⟩

end GalayTracing
