import GalayTracing.BatchSpanProcessor.Conservation
import GalayTracing.BatchSpanProcessor.FlushRequests

/-!
# Scheduling by batch size

In the mode `kBatchSize` the push that brings the size counter up to `maxBatchSize` wakes the
worker, and the pushes after it rely on that wake-up.  The counter also counts pushes that have
reserved a place and not yet enqueued their span.  A worker that pops the span of the crossing
push can therefore find the counter still at the threshold and the queue empty; it goes back to
waiting, and the pushes it has overtaken enqueue without waking it (`overtakenPush_strands`).
When every bulk pop that finds the queue empty is covered by the counter or by another wake-up,
no full batch is left stranded, `batchNotStranded_of_run`.
-/

namespace GalayTracing

variable {ι α : Type}

/-! ### Runs without flushes and shutdowns -/

/-- The step is not part of a call of `forceFlush` or `shutdown`. -/
def onlyOnEnd : Act ι α → Bool
  | .forceFlush _ _ | .shutdown _ _ => false
  | _ => true

variable [DecidableEq ι] [DecidableEq α] {P : Processor α} {s s' : State ι α}
  {h : List (Act ι α)} {t : ι}

/-- Only `onEnd` and the worker have ever acted, and the worker has never seen a flush request or
a shutdown request. -/
structure Unflushed (s : State ι α) : Prop where
  shutdownRequested : s.sh.shutdownRequested = false
  flushRequests : s.sh.flushRequests = []
  serving : s.worker.serving = none
  unserved : ∀ site, s.worker ≠ .dequeueRequest site true
  callers : ∀ t, s.pc t = .idle ∨ ∃ p, s.pc t = .onEnd p

/-- Without a flush request in the queue the worker serves none. -/
lemma Unflushed.worker {a : WorkerAct ι α} (hU : Unflushed s)
    (hs : step P s (.worker a) = some s') : Unflushed s' := by
  have hf := worker_frame hs
  have hserving := serving_of_step hs
  obtain ⟨hsource, hg, hs'⟩ := step_worker_iff.mp hs
  have hdequeue : ∀ site any caller id, a ≠ .dequeueRequest site any caller id := by
    rintro site any caller id rfl
    simp only [workerCommand, hU.flushRequests, ProducerQueue.dequeue_nil, Option.isSome_none] at hg
    cases hg
  have hrelease : ∀ site id, a ≠ .releaseDone site id := by
    rintro site id rfl
    have hnone := hU.serving
    rw [hsource] at hnone
    cases hnone
  refine
    { shutdownRequested := hf.shutdownRequested.trans hU.shutdownRequested
      flushRequests := ?_
      serving := (hserving hdequeue hrelease).trans hU.serving
      unserved := fun site hpc => ?_
      callers := by rw [hf.pc]; exact hU.callers }
  · rw [hs']
    cases a with
    | dequeueRequest site any caller id => exact absurd rfl (hdequeue site any caller id)
    | _ => exact hU.flushRequests
  · rw [hs'] at hpc
    clear hs hs' hserving
    cases a with
    | releaseDone site id => exact hrelease site id rfl
    | noRequest site any =>
      cases site <;> simp only [workerCommand, FlushSite.afterRequests, ordinaryDrain] at hpc
      all_goals (try split_ifs at hpc) <;> cases hpc
    | popNone site => cases site <;> cases hpc
    | exportReturn site batch result => cases site <;> cases hpc
    | drainResult site ok value =>
      cases site <;> simp only [workerCommand, DrainSite.afterDrain] at hpc
      all_goals (try split_ifs at hpc) <;> cases hpc
    | popLoad site count =>
      simp only [workerCommand] at hpc
      cases site <;> split_ifs at hpc <;> cases hpc
    | popRelease site batch =>
      simp only [workerCommand] at hpc
      cases site <;> split_ifs at hpc <;> cases hpc
    | _ =>
      simp only [workerCommand] at hpc
      (try split_ifs at hpc) <;> cases hpc

/-- In a run of `onEnd` calls and the worker alone there are no flush and shutdown requests. -/
theorem unflushed_of_run (hr : (system ι P).Run h s) (honly : ∀ a ∈ h, onlyOnEnd a = true) :
    Unflushed s := by
  have hc := Lts.stepsMeet_of_forall_mem (L := system ι P) honly
  clear honly
  induction hr, hc using run_induction_where with
  | nil hc => exact ⟨rfl, rfl, rfl, nofun, fun _ => Or.inl rfl⟩
  | onEnd h s s' t a hr hs hc honly ih =>
    have hf := onEnd_frame hs
    refine
      { shutdownRequested := hf.shutdownRequested.trans ih.shutdownRequested
        flushRequests := hf.flushRequests.trans ih.flushRequests
        serving := by rw [hf.worker]; exact ih.serving
        unserved := by rw [hf.worker]; exact ih.unserved
        callers := fun t' => ?_ }
    by_cases ht : t' = t
    · rw [ht]
      exact (onEnd_pc hs).2
    · rw [hf.others t' ht]
      exact ih.callers t'
  | forceFlush h s s' t a hr hs hc honly ih => cases honly
  | shutdown h s s' t a hr hs hc honly ih => cases honly
  | worker h s s' a hr hs hc honly ih => exact ih.worker hs
  | tick h s s' now hr hs hc honly ih =>
    obtain ⟨-, rfl⟩ := step_tick_iff.mp hs
    exact ⟨ih.shutdownRequested, ih.flushRequests, ih.serving, ih.unserved, ih.callers⟩

/-! ### The threshold -/

/-- The caller has brought the counter up to the threshold and is bound to wake the worker. -/
def CallerPc.crossing (maxBatchSize : ℕ) : CallerPc α → ℕ
  | .onEnd (.loadShutdown _ previous) | .onEnd (.enqueue _ previous) =>
    if previous + 1 = maxBatchSize then 1 else 0
  | .onEnd (.closedSub _) | .onEnd .exchangePending => 1
  | p => p.releasing

/-- The worker is not in the wait of the main loop. -/
def WorkerPc.awake : WorkerPc ι α → ℕ
  | .wait => 0
  | _ => 1

omit [DecidableEq α] in
lemma releasing_le_crossing (maxBatchSize : ℕ) (p : CallerPc α) :
    p.releasing ≤ p.crossing maxBatchSize := by
  rcases p with _ | p | p | p
  · exact Nat.zero_le _
  all_goals cases p <;> first | exact Nat.zero_le _ | exact Nat.le_refl _

variable [Fintype ι]

/-- The counter is below the threshold, or a wake-up is there or on its way, or the worker is
awake. -/
def Covered (P : Processor α) (s : State ι α) : Prop :=
  s.sh.size < P.config.maxBatchSize ∨
    1 ≤ wakeUps (CallerPc.crossing P.config.maxBatchSize) s + s.worker.awake

/-- A bulk pop that finds the queue empty finds the counter below the threshold or another wake-up
to come, and the push that crosses the threshold does not fail. -/
def thresholdKept (P : Processor α) (s : State ι α) : Act ι α → Bool
  | .worker (.popNone (.ready _)) => decide (s.sh.size < P.config.maxBatchSize) ||
    decide (1 ≤ wakeUps (CallerPc.crossing P.config.maxBatchSize) s)
  | .onEnd _ (.enqueue _ previous false) => decide (previous + 1 ≠ P.config.maxBatchSize)
  | _ => true

omit [DecidableEq ι] [DecidableEq α] in
/-- A set flag stands for a wake-up. -/
lemma Channel.covered (hC : Channel s) (hpending : s.sh.signalPending = true) : Covered P s := by
  have hpermit := hC hpending
  have hle := wakeUps_le_wakeUps (releasing_le_crossing P.config.maxBatchSize) s
  have hclearing : s.worker.clearing ≤ s.worker.awake := by
    cases s.worker <;> first | exact Nat.zero_le _ | exact Nat.le_refl 1
  exact Or.inr (by omega)

/-- `onEnd` keeps the threshold covered: the push that crosses it goes on to `notify`. -/
lemma Covered.onEnd {a : OnEndAct α} (hmode : P.config.scheduleMode = .kBatchSize)
    (hledger : Ledger P s) (hV : Covered P s) (hC : Channel s')
    (hkept : thresholdKept P s (.onEnd t a) = true) (hs : step P s (.onEnd t a) = some s') :
    Covered P s' := by
  have hw := wakeUps_onEnd (w := CallerPc.crossing P.config.maxBatchSize) hs
  have hworker := (onEnd_frame hs).worker
  have hdecrement := hledger.sizeDecrement_le hs
  obtain ⟨-, hg, hs'⟩ := step_onEnd_iff.mp hs
  -- a step that does not raise the counter and does not give up a wake-up
  have hkeep : s'.sh.size ≤ s.sh.size →
      CallerPc.crossing P.config.maxBatchSize (onEndCommand P t a).source ≤
        a.releases + CallerPc.crossing P.config.maxBatchSize (onEndCommand P t a).target →
      Covered P s' := by
    intro hsize hle
    refine hV.imp (fun hbelow => lt_of_le_of_lt hsize hbelow) fun hcovered => ?_
    rw [hworker]
    omega
  have hone := P.config.one_le_maxBatchSize
  have hfits := P.config.maxBatchSize_le
  cases a with
  | exchangePending old =>
    refine hC.covered ?_
    rw [hs']
    rfl
  | fetchAdd span previous =>
    have hsize : s.sh.size = previous := beq_iff_eq.mp hg
    have hsize' : s'.sh.size = previous + 1 := by
      rw [hs']
      exact congrArg (· + 1) hsize
    rcases hV with hbelow | hcovered
    · by_cases hcross : previous + 1 = P.config.maxBatchSize
      · have hroom : ¬P.config.queueCapacity ≤ previous := by omega
        simp only [onEndCommand, if_neg hroom, CallerPc.crossing, if_pos hcross,
          CallerPc.releasing] at hw
        exact Or.inr (by omega)
      · exact Or.inl (by omega)
    · simp only [onEndCommand, CallerPc.crossing, CallerPc.releasing] at hw
      exact Or.inr (by rw [hworker]; omega)
  | loadShutdown span previous value =>
    refine hkeep (by rw [hs']; exact Nat.le_refl _) ?_
    cases value with
    | true =>
      simp only [onEndCommand, if_true, CallerPc.crossing]
      split_ifs <;> omega
    | false => exact Nat.le_add_left _ _
  | enqueue span previous success =>
    cases success with
    | true =>
      refine hkeep (by rw [hs']; exact Nat.le_refl _) ?_
      by_cases hcross : previous + 1 = P.config.maxBatchSize
      · have hnotify : shouldNotify P.config (previous + 1) = true := by
          rw [shouldNotify, hmode]
          simp [← hcross]
        simp only [onEndCommand, hnotify, if_true, CallerPc.crossing, if_pos hcross]
        exact Nat.le_add_left _ _
      · simp only [onEndCommand, CallerPc.crossing, if_neg hcross]
        exact Nat.zero_le _
    | false =>
      have hcross : previous + 1 ≠ P.config.maxBatchSize := of_decide_eq_true hkept
      refine hkeep (by rw [hs']; exact Nat.le_refl _) ?_
      simp only [onEndCommand, CallerPc.crossing, if_neg hcross]
      exact Nat.zero_le _
  | fullSub span =>
    refine hkeep ?_ (Nat.zero_le _)
    rw [hs']
    exact (fetchSub_of_le hdecrement).le.trans (Nat.sub_le _ _)
  | closedSub span =>
    refine hkeep ?_ (Nat.le_add_left _ _)
    rw [hs']
    exact (fetchSub_of_le hdecrement).le.trans (Nat.sub_le _ _)
  | failedSub span =>
    refine hkeep ?_ (Nat.zero_le _)
    rw [hs']
    exact (fetchSub_of_le hdecrement).le.trans (Nat.sub_le _ _)
  | releaseSignal => exact hkeep (by rw [hs']; exact Nat.le_refl _) (Nat.le_add_right 1 _)
  | call span => exact hkeep (by rw [hs']; exact Nat.le_refl _) (Nat.zero_le _)
  | drop span => exact hkeep (by rw [hs']; exact Nat.le_refl _) (Nat.zero_le _)

/-- The worker goes back to waiting only below the threshold, or with a wake-up to come. -/
lemma Covered.worker {a : WorkerAct ι α} (hU : Unflushed s) (hseen : ShutdownSeen s)
    (hkept : thresholdKept P s (.worker a) = true) (hs : step P s (.worker a) = some s') :
    Covered P s' := by
  obtain ⟨hsource, hg, hs'⟩ := step_worker_iff.mp hs
  have hawake : (workerCommand P a).target.awake = 1 → Covered P s' :=
    fun hone => Or.inr (by rw [hs']; exact hone.ge.trans (Nat.le_add_left _ _))
  have hbelow : s'.sh.size < P.config.maxBatchSize → Covered P s' := Or.inl
  have hzero : s.sh.size = 0 → s'.sh.size = s.sh.size → Covered P s' :=
    fun hsize hsame => Or.inl (by rw [hsame, hsize]; exact P.config.one_le_maxBatchSize)
  have hnotSeen : s.worker.sawShutdown = false := by
    rw [← Bool.not_eq_true]
    intro hsaw
    exact Bool.false_ne_true (hU.shutdownRequested.symm.trans (hseen.worker hsaw))
  have hunserved := hU.unserved
  rw [hsource] at hnotSeen hunserved
  cases a with
  | noRequest site any =>
    cases site with
    | head elapsed requested =>
      obtain rfl : any = false := by
        rw [← Bool.not_eq_true]
        rintro rfl
        exact hunserved _ rfl
      obtain rfl : requested = false := hnotSeen
      refine hawake ?_
      simp only [workerCommand, FlushSite.afterRequests, ordinaryDrain]
      split_ifs <;> first | rfl | contradiction
    | drained ok => cases hnotSeen
    | exitTest ok => cases hnotSeen
  | loadCount count =>
    have hsize : s.sh.size = count := beq_iff_eq.mp hg
    by_cases hcount : count < P.config.maxBatchSize
    · exact hbelow (by rw [hs']; exact hsize.symm ▸ hcount)
    · refine hawake ?_
      simp only [workerCommand, if_neg hcount]
      rfl
  | readyCount drainPartial count =>
    have hsize : s.sh.size = count := beq_iff_eq.mp hg
    by_cases hcount : P.config.maxBatchSize ≤ count
    · refine hawake ?_
      simp only [workerCommand, if_pos hcount]
      rfl
    · exact hbelow (by rw [hs']; exact hsize.symm ▸ Nat.lt_of_not_le hcount)
  | readyEmpty value =>
    cases value with
    | true => exact hzero (beq_iff_eq.mp (beq_iff_eq.mp hg)) (by rw [hs']; rfl)
    | false => exact hawake rfl
  | popLoad site count =>
    by_cases hcount : count = 0
    · exact hzero ((beq_iff_eq.mp hg).trans hcount) (by rw [hs']; rfl)
    · refine hawake ?_
      simp only [workerCommand, if_neg hcount]
      rfl
  | popNone site =>
    cases site with
    | drain site ok any => exact hawake rfl
    | ready drainPartial =>
      rcases Bool.or_eq_true_iff.mp hkept with hlt | hcoming
      · exact hbelow (by rw [hs']; exact of_decide_eq_true hlt)
      · refine Or.inr (le_trans (of_decide_eq_true hcoming) ?_)
        have hw := wakeUps_worker (w := CallerPc.crossing P.config.maxBatchSize) hs
        rw [hw]
        exact Nat.le_add_right _ _
  | popRelease site batch =>
    refine hawake ?_
    simp only [workerCommand]
    cases site <;> split_ifs <;> rfl
  | exportReturn site batch result =>
    refine hawake ?_
    cases site <;> rfl
  | drainResult site ok value =>
    refine hawake ?_
    simp only [workerCommand]
    cases site with
    | request site request =>
      simp only [DrainSite.afterDrain]
      split_ifs <;> rfl
    | shutdown => rfl
  | loadActive ok count => cases hnotSeen
  | exitEmpty ok value => cases hnotSeen
  | _ =>
    refine hawake ?_
    simp only [workerCommand]
    (try split_ifs) <;> rfl

/-- In a run of `onEnd` calls and the worker alone whose steps keep the threshold, it is covered in
every state. -/
theorem covered_of_run (hmode : P.config.scheduleMode = .kBatchSize)
    (hr : (system ι P).Run h s) (honly : ∀ a ∈ h, onlyOnEnd a = true)
    (hc : (system ι P).StepsMeet (thresholdKept P) h) : Covered P s := by
  induction hr, hc using run_induction_where with
  | nil hc => exact Or.inl P.config.one_le_maxBatchSize
  | onEnd h s s' t a hr hs hc hkept ih =>
    exact (ih fun b hb => honly b (List.mem_append_left _ hb)).onEnd hmode (ledger_of_run hr)
      (channel_of_run (run_step hr hs)) hkept hs
  | forceFlush h s s' t a hr hs hc hkept ih =>
    exact absurd (honly (.forceFlush t a) (by simp)) Bool.false_ne_true
  | shutdown h s s' t a hr hs hc hkept ih =>
    exact absurd (honly (.shutdown t a) (by simp)) Bool.false_ne_true
  | worker h s s' a hr hs hc hkept ih =>
    have hU := unflushed_of_run hr fun b hb => honly b (List.mem_append_left _ hb)
    exact Covered.worker hU (shutdownSeen_of_run hr) hkept hs
  | tick h s s' now hr hs hc hkept ih =>
    have hw := wakeUps_tick (w := CallerPc.crossing P.config.maxBatchSize) hs
    obtain ⟨-, rfl⟩ := step_tick_iff.mp hs
    refine (ih fun b hb => honly b (List.mem_append_left _ hb)).imp_right fun hcovered => ?_
    rw [hw]
    exact hcovered

/-- When no call of `onEnd` is in progress and the worker is blocked, the queue holds less than a
full batch. -/
def BatchNotStranded (P : Processor α) (s : State ι α) : Prop :=
  Quiet s → Blocked s → s.sh.spans.length < P.config.maxBatchSize

/-- In the mode `kBatchSize` no full batch is left stranded, in every run of `onEnd` calls and the
worker in which a bulk pop finds the queue empty only below the threshold or with a wake-up to
come, and in which the push that crosses the threshold does not fail. -/
theorem batchNotStranded_of_run (hmode : P.config.scheduleMode = .kBatchSize)
    (hr : (system ι P).Run h s) (honly : ∀ a ∈ h, onlyOnEnd a = true)
    (hc : (system ι P).StepsMeet (thresholdKept P) h) : BatchNotStranded P s := by
  intro hquiet hblocked
  have hU := unflushed_of_run hr honly
  have hcallers : ∀ t, CallerPc.crossing P.config.maxBatchSize (s.pc t) = 0 := by
    intro t
    have hoff := hquiet t
    obtain hidle | ⟨p, hp⟩ := hU.callers t
    · rw [hidle]
      rfl
    · rw [hp] at hoff
      cases hoff
  have hsize : s.sh.spans.length ≤ s.sh.size := by
    have hledger := (ledger_of_run hr).size_eq
    unfold held at hledger
    omega
  rcases covered_of_run hmode hr honly hc with hbelow | hcovered
  · exact lt_of_le_of_lt hsize hbelow
  · rw [wakeUps_eq_zero hcallers hblocked, hblocked.1] at hcovered
    exact absurd hcovered (Nat.not_succ_le_zero 0)

/-- The only span is a full batch, and the worker exports it. -/
def exportFullBatch : List (Act Thread ℕ) :=
  [.onEnd .t₁ (.call 5), .onEnd .t₁ (.fetchAdd 5 0), .onEnd .t₁ (.loadShutdown 5 0 false),
    .onEnd .t₁ (.enqueue 5 0 true), .onEnd .t₁ (.exchangePending false), .onEnd .t₁ .releaseSignal,
    .worker .waitAcquire, .worker .clearPending, .worker (.loadShutdown false false),
    .worker (.noRequest (.head false false) false), .worker (.loadCount 1),
    .worker (.readyCount false 1), .worker (.popLoad (.ready false) 1),
    .worker (.popBatch (.ready false) [(.t₁, 5)]), .worker (.popRelease (.ready false) [(.t₁, 5)]),
    .worker (.callExport (.ready false) [(.t₁, 5)]),
    .worker (.exportReturn (.ready false) [(.t₁, 5)] .kSuccess), .worker (.readyCount false 0)]

/-- After the export of a full batch nothing is stranded. -/
theorem batchNotStranded_exportFullBatch :
    ∃ s, (system Thread (smallProcessor .kBatchSize 2 1)).Run exportFullBatch s ∧
      BatchNotStranded (smallProcessor .kBatchSize 2 1) s := by
  obtain ⟨s, hr, -⟩ :=
    Lts.exists_run_of_any (L := system Thread (smallProcessor .kBatchSize 2 1))
      (h := exportFullBatch) (p := fun _ => true) (by decide)
  exact ⟨s, hr, batchNotStranded_of_run rfl hr (by decide) (by decide)⟩

/-- The push of `6` reserves its place before the worker has exported `5`, and enqueues after the
worker has gone back to waiting. -/
def overtakenPush : List (Act Thread ℕ) :=
  [.onEnd .t₁ (.call 5), .onEnd .t₁ (.fetchAdd 5 0), .onEnd .t₁ (.loadShutdown 5 0 false),
    .onEnd .t₁ (.enqueue 5 0 true), .onEnd .t₁ (.exchangePending false), .onEnd .t₁ .releaseSignal,
    .onEnd .t₂ (.call 6), .onEnd .t₂ (.fetchAdd 6 1), .onEnd .t₂ (.loadShutdown 6 1 false),
    .worker .waitAcquire, .worker .clearPending, .worker (.loadShutdown false false),
    .worker (.noRequest (.head false false) false), .worker (.loadCount 2),
    .worker (.readyCount false 2), .worker (.popLoad (.ready false) 2),
    .worker (.popBatch (.ready false) [(.t₁, 5)]), .worker (.popRelease (.ready false) [(.t₁, 5)]),
    .worker (.callExport (.ready false) [(.t₁, 5)]),
    .worker (.exportReturn (.ready false) [(.t₁, 5)] .kSuccess), .worker (.readyCount false 1),
    .worker (.popLoad (.ready false) 1), .worker (.popNone (.ready false)),
    .onEnd .t₂ (.enqueue 6 1 true)]

/-- A full batch is stranded in the mode `kBatchSize`: no call is in progress, the worker is
blocked, and the queue holds `maxBatchSize` spans. -/
theorem overtakenPush_strands :
    ∃ s, (system Thread (smallProcessor .kBatchSize 2 1)).Run overtakenPush s ∧
      (∀ a ∈ overtakenPush, onlyOnEnd a = true) ∧
      ¬BatchNotStranded (smallProcessor .kBatchSize 2 1) s := by
  obtain ⟨s, hr, hs⟩ :=
    Lts.exists_run_of_any (L := system Thread (smallProcessor .kBatchSize 2 1))
      (h := overtakenPush) (p := fun s => decide (Quiet s ∧ Blocked s ∧ s.sh.spans.length = 1))
      (by decide)
  obtain ⟨hquiet, hblocked, hlen⟩ := of_decide_eq_true hs
  refine ⟨s, hr, by decide, fun hnot => ?_⟩
  exact absurd (hnot hquiet hblocked) (by rw [hlen]; exact Nat.lt_irrefl 1)

end GalayTracing
