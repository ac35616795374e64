import GalayTracing.BatchSpanProcessor.Frames

/-!
# The life cycle of the exporter

`shutdown` closes the exporter after it has joined the worker, and the flag `exporterShutdown`
lets only one caller do so.  A caller that does not get to join the worker waits for
`workerStopped` until its own deadline, and then goes on to the exporter whether or not the flag is
set; the exporter can then be shut down in the middle of an `exportSpans` call
(`earlyClose_not_last`).  When the exporter is only claimed after the worker has made its last call
of it, it is closed once and last, `exporterClosedLast_of_run`.
-/

namespace GalayTracing

variable {ι α : Type}

/-- The worker has made its last call of the exporter. -/
def WorkerPc.finished : WorkerPc ι α → Bool
  | .storeDrainOk _ | .storeStopped | .stopped => true
  | _ => false

/-- A call of `exportSpans` or of the exporter's `forceFlush` is in progress. -/
def WorkerPc.inExporter : WorkerPc ι α → Bool
  | .inExport _ _ | .inFlush _ _ _ | .inFinalFlush _ => true
  | _ => false

/-- The step starts a call of `exportSpans` or of the exporter's `forceFlush`. -/
def callsExporter : Act ι α → Bool
  | .worker (.callExport _ _) | .worker (.callFlush _ _ _ _) | .worker (.callFinalFlush _) => true
  | _ => false

/-- The step starts a call of the exporter's `shutdown`. -/
def closesExporter : Act ι α → Bool
  | .shutdown _ (.callExporter _ _) => true
  | _ => false

/-- The caller has claimed the exporter and is about to shut it down. -/
def CallerPc.closing : CallerPc α → ℕ
  | .shutdown (.callExporter _ _) => 1
  | _ => 0

variable [DecidableEq ι] [DecidableEq α] {P : Processor α} {s s' : State ι α}
  {h : List (Act ι α)} {t : ι}

/-- The exporter's `shutdown` is called at most once, and from then on no `exportSpans` and no
`forceFlush` call on the exporter is in progress or started. -/
def ExporterClosedLast (P : Processor α) (h : List (Act ι α)) : Prop :=
  h.countP closesExporter ≤ 1 ∧
    ∀ before t deadline ok after, h = before ++ .shutdown t (.callExporter deadline ok) :: after →
      (∀ s, (system ι P).Run before s → s.worker.inExporter = false) ∧
        ∀ a ∈ after, callsExporter a = false

/-- The exporter is claimed by a caller of `shutdown` only when the worker has made its last call
of it. -/
def claimsAfterWorker (s : State ι α) : Act ι α → Bool
  | .shutdown _ (.claimExporter _ _ false) => s.worker.finished
  | _ => true

/-- A worker that has made its last call of the exporter makes no other. -/
lemma finished_worker {a : WorkerAct ι α} (hs : step P s (.worker a) = some s')
    (hfinished : s.worker.finished = true) :
    s'.worker.finished = true ∧ callsExporter (Act.worker (ι := ι) a) = false := by
  obtain ⟨hsource, -, rfl⟩ := step_worker_iff.mp hs
  rw [hsource] at hfinished
  cases a <;> first | exact ⟨rfl, rfl⟩ | cases hfinished

/-- Once finished, the worker stays finished. -/
lemma finished_of_step {a : Act ι α} (hs : step P s a = some s')
    (hfinished : s.worker.finished = true) :
    s'.worker.finished = true ∧ callsExporter a = false := by
  rcases a with ⟨t, a⟩ | ⟨t, a⟩ | ⟨t, a⟩ | a | now
  · exact ⟨by rw [(onEnd_frame hs).worker, hfinished], rfl⟩
  · exact ⟨by rw [(forceFlush_frame hs).worker, hfinished], rfl⟩
  · exact ⟨by rw [(shutdown_frame hs).worker, hfinished], rfl⟩
  · exact finished_worker hs hfinished
  · obtain ⟨-, rfl⟩ := step_tick_iff.mp hs
    exact ⟨hfinished, rfl⟩

/-- After the worker has finished, no call of the exporter is started. -/
lemma not_callsExporter_of_finished {h₀ h : List (Act ι α)}
    (hfinished : ∀ s, (system ι P).Run h₀ s → s.worker.finished = true)
    (hr : (system ι P).Run (h₀ ++ h) s) :
    s.worker.finished = true ∧ ∀ a ∈ h, callsExporter a = false := by
  induction hr using Lts.run_induction_from with
  | nil s hr =>
    rw [List.append_nil] at hr
    exact ⟨hfinished s hr, fun a ha => absurd ha List.not_mem_nil⟩
  | concat h a s s' hr hs ih =>
    obtain ⟨hfin, hnone⟩ := ih
    obtain ⟨hfin', ha⟩ := finished_of_step hs hfin
    refine ⟨hfin', fun b hb => ?_⟩
    rcases List.mem_append.mp hb with hold | hnew
    · exact hnone b hold
    · rw [List.mem_singleton.mp hnew]
      exact ha

variable [Fintype ι]

/-- What the flag `exporterShutdown` stands for: the exporter has been, or is about to be, shut
down by one caller, and the worker has finished. -/
structure Claimed (h : List (Act ι α)) (s : State ι α) : Prop where
  count : h.countP closesExporter + poolSum CallerPc.closing s.pc ≤
    if s.sh.exporterShutdown = true then 1 else 0
  finished : s.sh.exporterShutdown = true → s.worker.finished = true

/-- A step that closes nothing and leaves the flag alone keeps what it stands for. -/
lemma Claimed.of_eq {a : Act ι α} (ih : Claimed h s) (hs : step P s a = some s')
    (hclose : closesExporter a = false)
    (hflag : s'.sh.exporterShutdown = s.sh.exporterShutdown)
    (hsum : poolSum CallerPc.closing s'.pc = poolSum CallerPc.closing s.pc) :
    Claimed (h ++ [a]) s' := by
  have hcount : (h ++ [a]).countP closesExporter = h.countP closesExporter := by
    rw [List.countP_append, List.countP_singleton, hclose]
    rfl
  refine ⟨by rw [hcount, hsum, hflag]; exact ih.count, fun hset => ?_⟩
  exact (finished_of_step hs (ih.finished (hflag ▸ hset))).1

/-- `shutdown` claims the exporter before it shuts it down. -/
lemma Claimed.shutdown {a : ShutdownAct} (ih : Claimed h s)
    (hclaims : claimsAfterWorker s (Act.shutdown t a) = true)
    (hs : step P s (.shutdown t a) = some s') : Claimed (h ++ [.shutdown t a]) s' := by
  have hsum := poolSum_update CallerPc.closing s.pc t (shutdownCommand (ι := ι) P a).target
  rw [(step_shutdown_iff.mp hs).1, ← shutdown_pc_eq hs] at hsum
  have hworker := (shutdown_frame hs).worker
  obtain ⟨-, hg, hs'⟩ := step_shutdown_iff.mp hs
  obtain ⟨hcount, hfinished⟩ := ih
  cases a with
  | claimExporter deadline ok old =>
    have hold : s.sh.exporterShutdown = old := beq_iff_eq.mp hg
    have hset : s'.sh.exporterShutdown = true := by rw [hs']; rfl
    have hnone : (h ++ [Act.shutdown (α := α) t (.claimExporter deadline ok old)]).countP
        closesExporter = h.countP closesExporter := by
      rw [List.countP_append, List.countP_singleton]
      rfl
    rw [hold] at hcount hfinished
    refine ⟨?_, fun _ => ?_⟩
    · rw [hnone, if_pos hset]
      cases old with
      | true =>
        simp only [shutdownCommand, if_true, CallerPc.closing] at hsum hcount
        omega
      | false =>
        simp only [shutdownCommand, Bool.false_eq_true, if_false, CallerPc.closing] at hsum hcount
        omega
    · rw [hworker]
      cases old with
      | true => exact hfinished rfl
      | false => exact hclaims
  | callExporter deadline ok =>
    have hflag : s'.sh.exporterShutdown = s.sh.exporterShutdown := by rw [hs']; rfl
    have hone : (h ++ [Act.shutdown (α := α) t (.callExporter deadline ok)]).countP
        closesExporter = h.countP closesExporter + 1 := by
      rw [List.countP_append, List.countP_singleton]
      rfl
    refine ⟨?_, fun hset => by rw [hworker]; exact hfinished (hflag ▸ hset)⟩
    rw [hone, hflag]
    simp only [shutdownCommand, CallerPc.closing] at hsum
    omega
  | loadDrainOk deadline ok value =>
    refine Claimed.of_eq ⟨hcount, hfinished⟩ hs rfl (by rw [hs']; rfl) ?_
    simp only [shutdownCommand] at hsum
    split_ifs at hsum <;> exact Nat.add_right_cancel hsum
  | _ =>
    refine Claimed.of_eq ⟨hcount, hfinished⟩ hs rfl (by rw [hs']; rfl) ?_
    simp only [shutdownCommand] at hsum
    (try split_ifs at hsum) <;> exact Nat.add_right_cancel hsum

/-- In a run in which the exporter is claimed only after the worker has finished, the flag
`exporterShutdown` means that the exporter is closed once and the worker has finished. -/
theorem claimed_of_run (hr : (system ι P).Run h s)
    (hc : (system ι P).StepsMeet claimsAfterWorker h) : Claimed h s := by
  induction hr, hc using run_induction_where with
  | nil hc =>
    refine ⟨?_, fun hset => by cases hset⟩
    have hzero : poolSum CallerPc.closing (initial : State ι α).pc = 0 := poolSum_const_zero rfl
    rw [hzero]
    exact Nat.zero_le _
  | onEnd h s s' t a hr hs hc hclaims ih =>
    exact ih.of_eq hs rfl (onEnd_frame hs).exporterShutdown (poolSum_onEnd hs rfl fun _ => rfl)
  | forceFlush h s s' t a hr hs hc hclaims ih =>
    exact ih.of_eq hs rfl (forceFlush_frame hs).exporterShutdown
      (poolSum_forceFlush hs rfl fun _ => rfl)
  | shutdown h s s' t a hr hs hc hclaims ih => exact ih.shutdown hclaims hs
  | worker h s s' a hr hs hc hclaims ih =>
    exact ih.of_eq hs rfl (worker_frame hs).exporterShutdown (by rw [(worker_frame hs).pc])
  | tick h s s' now hr hs hc hclaims ih =>
    refine ih.of_eq hs rfl ?_ ?_ <;> obtain ⟨-, rfl⟩ := step_tick_iff.mp hs <;> rfl

/-- In every run in which the exporter is claimed only after the worker has made its last call of
it, the exporter is shut down at most once, and after all other calls. -/
theorem exporterClosedLast_of_run (hr : (system ι P).Run h s)
    (hc : (system ι P).StepsMeet claimsAfterWorker h) : ExporterClosedLast P h := by
  refine ⟨?_, ?_⟩
  · have hcount := (claimed_of_run hr hc).count
    split_ifs at hcount <;> omega
  · rintro before t deadline ok after rfl
    have hfinished : ∀ s, (system ι P).Run before s →
        s.pc t = .shutdown (.callExporter deadline ok) → s.worker.finished = true := by
      intro s hr hpc
      have hclaimed := claimed_of_run hr hc.of_append
      refine hclaimed.finished ?_
      by_contra hflag
      have hcount := hclaimed.count
      rw [if_neg hflag] at hcount
      have hone := le_poolSum CallerPc.closing s.pc t
      rw [hpc] at hone
      simp only [CallerPc.closing] at hone
      omega
    have hr' : (system ι P).Run
        ((before ++ [.shutdown t (.callExporter deadline ok)]) ++ after) s := by simpa using hr
    obtain ⟨s₁, hr₁⟩ := hr'.of_append
    obtain ⟨s₀, hr₀, hs₀⟩ := (system ι P).run_concat_iff.mp hr₁
    replace hs₀ : step P s₀ (.shutdown t (.callExporter deadline ok)) = some s₁ := hs₀
    have hpc₀ : s₀.pc t = .shutdown (.callExporter deadline ok) := (step_shutdown_iff.mp hs₀).1
    have hfin₀ := hfinished s₀ hr₀ hpc₀
    refine ⟨fun s₂ hr₂ => ?_, (not_callsExporter_of_finished ?_ hr').2⟩
    · obtain rfl := hr₀.unique hr₂
      cases hw : s₀.worker <;> rw [hw] at hfin₀ <;> first | rfl | cases hfin₀
    · intro s₂ hr₂
      obtain rfl := hr₁.unique hr₂
      exact (finished_of_step hs₀ hfin₀).1

/-- A shutdown without any spans: the caller joins the worker and closes the exporter. -/
def plainShutdown : List (Act Thread ℕ) :=
  [.shutdown .t₁ (.call 1 1000000), .shutdown .t₁ (.storeRequested 1000000),
    .shutdown .t₁ (.notifyStore 1000000), .shutdown .t₁ (.notifyRelease 1000000),
    .shutdown .t₁ (.claimJoin 1000000 false), .worker .waitAcquire, .worker .clearPending,
    .worker (.loadShutdown false true), .worker (.noRequest (.head false true) false),
    .worker (.drainClock .shutdown true true), .worker (.popLoad (.drain .shutdown true false) 0),
    .worker (.drainEmpty .shutdown true false true), .worker (.drainResult .shutdown true true),
    .worker (.noRequest (.drained true) false), .worker (.loadActive true 0),
    .worker (.exitEmpty true true), .worker (.noRequest (.exitTest true) false),
    .worker (.callFinalFlush true), .worker (.finalFlushReturn true true),
    .worker (.storeDrainOk true), .worker .storeStopped, .shutdown .t₁ (.join 1000000),
    .shutdown .t₁ (.loadDrainOk 1000000 true true),
    .shutdown .t₁ (.claimExporter 1000000 true false), .shutdown .t₁ (.callExporter 1000000 true),
    .shutdown .t₁ (.exporterReturn 1000000 true true), .shutdown .t₁ (.ret 1000000 true true)]

/-- A caller that joins the worker closes the exporter last. -/
theorem exporterClosedLast_plainShutdown :
    ExporterClosedLast (smallProcessor .kTimed 1 1) plainShutdown := by
  obtain ⟨s, hr, -⟩ := Lts.exists_run_of_any (L := system Thread (smallProcessor .kTimed 1 1))
    (h := plainShutdown) (p := fun _ => true) (by decide)
  exact exporterClosedLast_of_run hr (by decide)

/-- Thread `t₁` joins the worker, which is inside a slow `exportSpans` call; thread `t₂` runs into
its own deadline and shuts the exporter down. -/
def earlyClose : List (Act Thread ℕ) :=
  [.onEnd .t₁ (.call 5), .onEnd .t₁ (.fetchAdd 5 0), .onEnd .t₁ (.loadShutdown 5 0 false),
    .onEnd .t₁ (.enqueue 5 0 true), .onEnd .t₁ (.exchangePending false), .onEnd .t₁ .releaseSignal,
    .worker .waitAcquire, .worker .clearPending, .worker (.loadShutdown false false),
    .worker (.noRequest (.head false false) false), .worker (.readyCount true 1),
    .worker (.popLoad (.ready true) 1), .worker (.popBatch (.ready true) [(.t₁, 5)]),
    .worker (.popRelease (.ready true) [(.t₁, 5)]), .worker (.callExport (.ready true) [(.t₁, 5)]),
    .shutdown .t₁ (.call 100 100000000), .shutdown .t₁ (.storeRequested 100000000),
    .shutdown .t₁ (.notifyStore 100000000), .shutdown .t₁ (.notifyRelease 100000000),
    .shutdown .t₁ (.claimJoin 100000000 false), .shutdown .t₂ (.call 1 1000000),
    .shutdown .t₂ (.storeRequested 1000000), .shutdown .t₂ (.notifyStore 1000000),
    .shutdown .t₂ (.notifyRelease 1000000), .shutdown .t₂ (.claimJoin 1000000 true), .tick 1000001,
    .shutdown .t₂ (.waitStopped 1000000 false), .shutdown .t₂ (.waitClock 1000000 false),
    .shutdown .t₂ (.loadStopped 1000000 false), .shutdown .t₂ (.loadDrainOk 1000000 false true),
    .shutdown .t₂ (.claimExporter 1000000 false false), .shutdown .t₂ (.callExporter 1000000 false)]

/-- The exporter's `shutdown` is called while `exportSpans` is in progress. -/
theorem earlyClose_not_last :
    (∃ s, (system Thread (smallProcessor .kOnEnd 1 1)).Run earlyClose s) ∧
      ¬ExporterClosedLast (smallProcessor .kOnEnd 1 1) earlyClose := by
  obtain ⟨s, hr, -⟩ := Lts.exists_run_of_any (L := system Thread (smallProcessor .kOnEnd 1 1))
    (h := earlyClose) (p := fun _ => true) (by decide)
  obtain ⟨s₀, hr₀, hs₀⟩ := Lts.exists_run_of_any
    (L := system Thread (smallProcessor .kOnEnd 1 1)) (h := earlyClose.take 31)
    (p := fun s => s.worker.inExporter) (by decide)
  refine ⟨⟨s, hr⟩, fun hlast => ?_⟩
  have hnot := (hlast.2 (earlyClose.take 31) .t₂ 1000000 false [] rfl).1 s₀ hr₀
  rw [hs₀] at hnot
  cases hnot

end GalayTracing
