import GalayTracing.BatchSpanProcessor.ExporterLifeCycle
import GalayTracing.BatchSpanProcessor.FlushRequests
import GalayTracing.BatchSpanProcessor.Ledger

/-!
# The worker comes to an end

`shutdown` joins the worker, so it returns only if the worker does.  Once the shutdown is requested
and no thread has yet to finish a push or the enqueue of a flush request, the worker finishes after
a number of steps that is linear in what is queued, whatever the exporter answers, the clock reads
and the remaining callers do (`worker_terminates`).

The argument is a potential that every step of the worker decreases.  The rank of a program point
counts the steps to the end along the paths that do not loop; a queued span pays for the round of
the loop that pops it, and a queued request for its service and for the round of the main loop that
follows it.  A worker that is past the drain of the shutdown branch while spans are still queued has
one more round to make, which is part of its rank.
-/

namespace GalayTracing

variable {ι α : Type}

/-! ### The rank of a program point -/

/-- One more round of the main loop, when `n` spans are left behind. -/
def anotherRound (n : ℕ) : ℕ := if n = 0 then 0 else 12

/-- The rank of a call of `try_dequeue` on the requests, with `n` spans in the queue. -/
def FlushSite.rank (n : ℕ) (completedAny : Bool) : FlushSite → ℕ
  | .head _ shutdownRequested => if completedAny then 18 else if shutdownRequested then 14 else 23
  | .drained _ => 8 + anotherRound n
  | .exitTest _ => if completedAny then 18 else 5

/-- The rank of what follows a drain. -/
def DrainSite.rank (n : ℕ) : DrainSite → ℕ
  | .request site _ => site.rank n true + 4
  | .shutdown => 8

/-- The rank of the last reading of the clock in a drain. -/
def DrainSite.resultRank (n : ℕ) : DrainSite → ℕ
  | .request site _ => site.rank n true + 5
  | .shutdown => 9 + anotherRound n

/-- The rank of a bulk pop. -/
def PopSite.rank (n : ℕ) : PopSite → ℕ
  | .ready _ => 18
  | .drain site _ _ => site.rank n + 3

/-- The rank of a program point of the worker, with `n` spans in the queue. -/
def WorkerPc.rank (n : ℕ) : WorkerPc ι α → ℕ
  | .wait => 17
  | .clearPending => 16
  | .loadShutdown _ => 15
  | .dequeueRequest site completedAny => site.rank n completedAny
  | .loadCount => 22
  | .readyCount _ => 21
  | .readyEmpty => 20
  | .popLoad site => site.rank n + 1
  | .popDequeue site => site.rank n
  | .popRelease site _ => site.rank n + 6
  | .callExport site _ => site.rank n + 5
  | .inExport site _ => site.rank n + 4
  | .drainClock site _ => site.rank n + 5
  | .drainEmpty site _ _ => site.rank n + 2 + if n = 0 then 0 else 6
  | .drainWait site _ => site.rank n + 7
  | .drainClear site _ => site.rank n + 6
  | .drainResult site _ => site.resultRank n
  | .callFlush site _ _ => site.rank n true + 4
  | .inFlush site _ _ => site.rank n true + 3
  | .storeOk site _ _ => site.rank n true + 2
  | .releaseDone site _ => site.rank n true + 1
  | .loadActive _ => 7 + anotherRound n
  | .exitEmpty _ => 6 + anotherRound n
  | .callFinalFlush _ => 4
  | .inFinalFlush _ => 3
  | .storeDrainOk _ => 2
  | .storeStopped => 1
  | .stopped => 0

/-- The steps the worker has left at most. -/
def potential (s : State ι α) : ℕ :=
  8 * s.sh.spans.length + 23 * s.sh.flushRequests.length + s.worker.rank s.sh.spans.length

lemma anotherRound_le (n : ℕ) : anotherRound n ≤ 12 := by
  unfold anotherRound
  split_ifs <;> omega

lemma FlushSite.rank_le (n : ℕ) (completedAny : Bool) (site : FlushSite) :
    site.rank n completedAny ≤ 23 := by
  have hround := anotherRound_le n
  cases site <;> simp only [FlushSite.rank] <;> (try split_ifs) <;> omega

lemma DrainSite.rank_le (n : ℕ) (site : DrainSite) : site.rank n ≤ 27 := by
  cases site with
  | request site request => exact Nat.add_le_add_right (site.rank_le n true) 4
  | shutdown => exact Nat.le_add_right 8 19

lemma PopSite.rank_le (n : ℕ) (site : PopSite) : site.rank n ≤ 30 := by
  cases site with
  | ready drainPartial => exact Nat.le_add_right 18 12
  | drain site ok exportedAny => exact Nat.add_le_add_right (site.rank_le n) 3

/-- No program point has more than 36 steps to go besides the loops. -/
lemma WorkerPc.rank_le (n : ℕ) (pc : WorkerPc ι α) : pc.rank n ≤ 36 := by
  have hround := anotherRound_le n
  cases pc with
  | dequeueRequest site completedAny =>
    have hsite := site.rank_le n completedAny
    simp only [WorkerPc.rank]
    omega
  | callFlush site request ok | inFlush site request ok | storeOk site request ok
  | releaseDone site request =>
    have hsite := site.rank_le n true
    simp only [WorkerPc.rank]
    omega
  | popLoad site | popDequeue site | popRelease site batch | callExport site batch
  | inExport site batch =>
    have hsite := site.rank_le n
    simp only [WorkerPc.rank]
    omega
  | drainClock site ok | drainEmpty site ok any | drainWait site ok | drainClear site ok =>
    have hsite := site.rank_le n
    simp only [WorkerPc.rank]
    (try split_ifs) <;> omega
  | drainResult site ok =>
    cases site with
    | request site request =>
      have hsite := site.rank_le n true
      simp only [WorkerPc.rank, DrainSite.resultRank]
      omega
    | shutdown =>
      simp only [WorkerPc.rank, DrainSite.resultRank]
      omega
  | _ =>
    simp only [WorkerPc.rank]
    omega

/-- A pop of a batch lowers the rank of its site. -/
lemma PopSite.rank_mono {m n : ℕ} (hmn : m ≤ n) (site : PopSite) : site.rank m ≤ site.rank n := by
  have hround : anotherRound m ≤ anotherRound n := by
    unfold anotherRound
    split_ifs <;> omega
  rcases site with _ | ⟨⟨_ | _ | _, _⟩ | _, _, _⟩ <;>
    simp only [PopSite.rank, DrainSite.rank, FlushSite.rank] <;> omega

/-! ### Settled callers -/

/-- A caller of `onEnd` that has yet to push its span or to withdraw the reservation made for it, or
a caller of `forceFlush` that has yet to count itself as active, to enqueue its request or to count
itself out again. -/
def CallerPc.busy : CallerPc α → Bool
  | .onEnd (.fetchAdd _) | .onEnd (.fullSub _) | .onEnd (.loadShutdown _ _)
  | .onEnd (.closedSub _) | .onEnd (.enqueue _ _) | .onEnd (.failedSub _) => true
  | .forceFlush (.announce _) | .forceFlush (.loadShutdown _) | .forceFlush (.loadStopped _)
  | .forceFlush (.create _) | .forceFlush (.enqueue _) | .forceFlush (.leave _) => true
  | _ => false

/-- The step starts a call of `onEnd` or `forceFlush`. -/
def startsWork : Act ι α → Bool
  | .onEnd _ (.call _) | .forceFlush _ (.call _) => true
  | _ => false

/-- The step is an operation of the worker. -/
def byWorker : Act ι α → Bool
  | .worker _ => true
  | _ => false

/-- A caller that is not busy is not counted anywhere. -/
lemma weights_of_not_busy {p : CallerPc α} (hp : p.busy = false) :
    p.slots = 0 ∧ p.phantoms = 0 ∧ p.announced = 0 := by
  rcases p with _ | p | p | p
  case onEnd => cases p <;> first | exact ⟨rfl, rfl, rfl⟩ | cases hp
  case forceFlush => cases p <;> first | exact ⟨rfl, rfl, rfl⟩ | cases hp
  all_goals exact ⟨rfl, rfl, rfl⟩

lemma busy_next (exit : FlushExit) : (exit.next : CallerPc α).busy = false := by
  cases exit <;> rfl

variable [DecidableEq ι] [DecidableEq α] {P : Processor α} {s s' : State ι α}
  {h h' : List (Act ι α)} {t : ι}

/-- The shutdown is requested, and no caller is busy. -/
structure Settled (s : State ι α) : Prop where
  requested : s.sh.shutdownRequested = true
  notBusy : ∀ t, (s.pc t).busy = false

/-- In a settled state the counters are exact. -/
lemma Settled.counters [Fintype ι] (hS : Settled s) (hr : (system ι P).Run h s) :
    s.sh.size = s.sh.spans.length + s.worker.unreleased ∧ s.sh.activeFlushCallers = 0 := by
  have hslots : poolSum CallerPc.slots s.pc = 0 :=
    (poolSum_eq_zero_iff _ _).mpr fun t => (weights_of_not_busy (hS.notBusy t)).1
  have hphantoms : poolSum CallerPc.phantoms s.pc = 0 :=
    (poolSum_eq_zero_iff _ _).mpr fun t => (weights_of_not_busy (hS.notBusy t)).2.1
  have hannounced : poolSum CallerPc.announced s.pc = 0 :=
    (poolSum_eq_zero_iff _ _).mpr fun t => (weights_of_not_busy (hS.notBusy t)).2.2
  have hsize := (ledger_of_run hr).size_eq
  rw [held, hslots, hphantoms] at hsize
  exact ⟨hsize, (activeFlushCallers_eq_of_run hr).trans hannounced⟩

/-- A caller that is not busy and starts no work stays so, and leaves the queues alone. -/
lemma Settled.caller {a : Act ι α} (hS : Settled s) (hs : step P s a = some s')
    (hstarts : startsWork a = false) (hworker : byWorker a = false) :
    Settled s' ∧ potential s' = potential s := by
  obtain ⟨hreq, hidle⟩ := hS
  have hreq' := shutdownRequested_mono hs hreq
  rcases a with ⟨t, a⟩ | ⟨t, a⟩ | ⟨t, a⟩ | a | now
  · have hbusy := hidle t
    rw [(step_onEnd_iff.mp hs).1] at hbusy
    have htarget : (onEndCommand P t a).target.busy = false ∧ s'.sh.spans = s.sh.spans := by
      obtain ⟨-, -, rfl⟩ := step_onEnd_iff.mp hs
      rcases a with _ | _ | _ | _ | _ | ⟨_, _, _ | _⟩ | _ | _ | ⟨_ | _⟩ | _ <;>
        first
        | exact ⟨rfl, rfl⟩
        | exact absurd hbusy Bool.noConfusion
        | exact absurd hstarts Bool.noConfusion
    refine ⟨⟨hreq', ?_⟩, ?_⟩
    · rw [onEnd_pc_eq hs]
      exact forall_update (I := fun _ (p : CallerPc α) => p.busy = false) (fun t' _ => hidle t')
        htarget.1
    · rw [potential, potential, htarget.2, (onEnd_frame hs).flushRequests, (onEnd_frame hs).worker]
  · have hbusy := hidle t
    rw [(step_forceFlush_iff.mp hs).1] at hbusy
    have htarget : (forceFlushCommand (ι := ι) (α := α) t a).target.busy = false ∧
        s'.sh.flushRequests = s.sh.flushRequests := by
      obtain ⟨-, -, rfl⟩ := step_forceFlush_iff.mp hs
      rcases a with _ | _ | _ | _ | _ | ⟨_, _ | _⟩ | _ | ⟨exit, _ | _⟩ | _ | exit | _ | _ | _ | _ |
        _ | _ <;>
        first
        | exact ⟨rfl, rfl⟩
        | exact ⟨busy_next exit, rfl⟩
        | exact absurd hbusy Bool.noConfusion
        | exact absurd hstarts Bool.noConfusion
    refine ⟨⟨hreq', ?_⟩, ?_⟩
    · rw [forceFlush_pc_eq hs]
      exact forall_update (I := fun _ (p : CallerPc α) => p.busy = false) (fun t' _ => hidle t')
        htarget.1
    · rw [potential, potential, htarget.2, (forceFlush_frame hs).spans,
        (forceFlush_frame hs).worker]
  · have htarget : (shutdownCommand (ι := ι) P a).target.busy = false := by
      cases a <;> simp only [shutdownCommand] <;> (try split_ifs) <;> rfl
    have hf := shutdown_frame hs
    refine ⟨⟨hreq', ?_⟩, ?_⟩
    · rw [shutdown_pc_eq hs]
      exact forall_update (I := fun _ (p : CallerPc α) => p.busy = false) (fun t' _ => hidle t')
        htarget
    · rw [potential, potential, hf.spans, hf.flushRequests, hf.worker]
  · cases hworker
  · obtain ⟨-, rfl⟩ := step_tick_iff.mp hs
    exact ⟨⟨hreq', hidle⟩, rfl⟩

/-! ### Every step of the worker comes nearer to the end -/

/-- Taking up a request takes it off the queue. -/
lemma length_dequeueRequest {site : FlushSite} {any : Bool} {caller : ι} {request : ℕ}
    (hs : step P s (.worker (.dequeueRequest site any caller request)) = some s') :
    s.sh.flushRequests.length = s'.sh.flushRequests.length + 1 ∧ s'.sh.spans = s.sh.spans ∧
      s'.worker = .drainClock (.request site request) true := by
  obtain ⟨-, hg, rfl⟩ := step_worker_iff.mp hs
  obtain ⟨rest, hrest⟩ := Option.isSome_iff_exists.mp hg
  refine ⟨?_, rfl, rfl⟩
  simp only [workerCommand, hrest, Option.getD_some]
  simpa using (ProducerQueue.dequeue_perm hrest).length_eq

/-- Apart from a pop and a request taken up, the worker leaves the queues alone. -/
lemma queues_worker {a : WorkerAct ι α} (hs : step P s (.worker a) = some s')
    (hpop : ∀ site batch, a ≠ .popBatch site batch)
    (hdequeue : ∀ site any caller request, a ≠ .dequeueRequest site any caller request) :
    s'.sh.spans = s.sh.spans ∧ s'.sh.flushRequests = s.sh.flushRequests := by
  obtain ⟨-, -, rfl⟩ := step_worker_iff.mp hs
  cases a with
  | popBatch site batch => exact absurd rfl (hpop site batch)
  | dequeueRequest site any caller request => exact absurd rfl (hdequeue site any caller request)
  | _ => exact ⟨rfl, rfl⟩

/-- A step of the worker that leaves the queues alone lowers the rank of its program point. -/
lemma rank_worker {a : WorkerAct ι α} (hnow : s.sh.now ≤ timePointMax)
    (hrequested : s.sh.shutdownRequested = true)
    (hsize : s.sh.size = s.sh.spans.length + s.worker.unreleased)
    (hactive : s.sh.activeFlushCallers = 0) (hs : step P s (.worker a) = some s')
    (hpop : ∀ site batch, a ≠ .popBatch site batch)
    (hdequeue : ∀ site any caller request, a ≠ .dequeueRequest site any caller request) :
    s'.worker.rank s.sh.spans.length < s.worker.rank s.sh.spans.length := by
  obtain ⟨hsource, hg, rfl⟩ := step_worker_iff.mp hs
  rw [hsource] at hsize ⊢
  clear hs hsource
  have hnone : s.sh.spans.isEmpty = true → s.sh.spans.length = 0 := fun hempty => by
    rw [List.isEmpty_iff.mp hempty, List.length_nil]
  generalize s.sh.spans.length = n at hsize hnone ⊢
  -- what the worker reads off the counter is what is queued
  have hread : (workerCommand P a).source.unreleased = 0 → s.sh.size = n := fun hu => by omega
  cases a with
  | popBatch site batch => exact absurd rfl (hpop site batch)
  | dequeueRequest site any caller request => exact absurd rfl (hdequeue site any caller request)
  | loadShutdown elapsed value =>
    obtain rfl : true = value := hrequested.symm.trans (beq_iff_eq.mp hg)
    exact Nat.lt_succ_self 14
  | noRequest site any =>
    cases site with
    | head elapsed requested =>
      simp only [workerCommand, FlushSite.afterRequests, ordinaryDrain]
      split_ifs <;> simp_all [WorkerPc.rank, FlushSite.rank, DrainSite.rank]
    | drained ok =>
      simp only [workerCommand, FlushSite.afterRequests, WorkerPc.rank, FlushSite.rank]
      omega
    | exitTest ok =>
      simp only [workerCommand, FlushSite.afterRequests]
      split_ifs <;> simp_all [WorkerPc.rank, FlushSite.rank]
  | loadCount count | readyCount drainPartial count | readyEmpty value =>
    simp only [workerCommand]
    split_ifs <;> simp only [WorkerPc.rank, PopSite.rank] <;> omega
  | popLoad site count =>
    have hcount : n = count := (hread rfl).symm.trans (beq_iff_eq.mp hg)
    simp only [workerCommand]
    split_ifs with hzero
    · cases site <;>
        simp only [PopSite.afterNone, WorkerPc.rank, PopSite.rank, hcount, hzero, if_true] <;> omega
    · simp only [WorkerPc.rank]
      omega
  | popNone site =>
    have hzero : n = 0 := hnone hg
    cases site <;>
      simp only [workerCommand, PopSite.afterNone, WorkerPc.rank, PopSite.rank, hzero, if_true] <;>
      omega
  | popRelease site batch =>
    cases site <;> simp only [workerCommand] <;> split_ifs <;>
      simp only [PopSite.afterExport, WorkerPc.rank, PopSite.rank] <;> omega
  | exportReturn site batch result =>
    cases site <;> simp only [workerCommand, PopSite.afterExport, WorkerPc.rank, PopSite.rank] <;>
      omega
  | drainClock site ok value =>
    simp only [workerCommand]
    split_ifs with hvalue
    · simp only [WorkerPc.rank, PopSite.rank]
      omega
    · cases site with
      | request site request =>
        simp only [WorkerPc.rank, DrainSite.resultRank, DrainSite.rank]
        omega
      | shutdown =>
        -- the deadline of the shutdown drain cannot pass
        have hintime : decide (s.sh.now ≤ timePointMax) = value := beq_iff_eq.mp hg
        exact absurd (hintime.symm.trans (decide_eq_true hnow)) hvalue
  | drainEmpty site ok any value =>
    have hvalue : (s.sh.size == 0) = value := beq_iff_eq.mp hg
    rw [hread rfl] at hvalue
    simp only [workerCommand]
    split_ifs with htrue hany
    · have hzero : n = 0 := beq_iff_eq.mp (hvalue.trans htrue)
      cases site <;>
        simp only [WorkerPc.rank, DrainSite.resultRank, DrainSite.rank, anotherRound, hzero,
          if_true] <;> omega
    all_goals
      have hrest : n ≠ 0 := fun hzero => htrue (hvalue.symm.trans (beq_iff_eq.mpr hzero))
      simp only [WorkerPc.rank, if_neg hrest]
      omega
  | drainAcquire site ok | drainTimeout site ok | drainClear site ok =>
    simp only [workerCommand, WorkerPc.rank]
    omega
  | drainResult site ok value =>
    cases site <;> simp only [workerCommand, DrainSite.afterDrain] <;> (try split_ifs) <;>
      simp only [WorkerPc.rank, DrainSite.resultRank, FlushSite.rank] <;> omega
  | loadActive ok count =>
    obtain rfl : 0 = count := hactive.symm.trans (beq_iff_eq.mp hg)
    simp only [workerCommand, if_true, WorkerPc.rank]
    omega
  | exitEmpty ok value =>
    have hvalue : (s.sh.size == 0) = value := beq_iff_eq.mp hg
    rw [hread rfl] at hvalue
    simp only [workerCommand]
    split_ifs with htrue
    · simp only [WorkerPc.rank, FlushSite.rank, Bool.false_eq_true, if_false]
      omega
    · have hrest : n ≠ 0 := fun hzero => htrue (hvalue.symm.trans (beq_iff_eq.mpr hzero))
      simp only [WorkerPc.rank, anotherRound, if_neg hrest]
      omega
  | _ =>
    simp only [workerCommand, WorkerPc.rank]
    omega

/-- Every step of the worker from a settled state lowers the potential. -/
lemma potential_worker [Fintype ι] {a : WorkerAct ι α} (hr : (system ι P).Run h s) (hS : Settled s)
    (hs : step P s (.worker a) = some s') : potential s' < potential s := by
  obtain ⟨hsize, hactive⟩ := hS.counters hr
  by_cases hpop : ∃ site batch, a = .popBatch site batch
  · obtain ⟨site, batch, rfl⟩ := hpop
    obtain ⟨hw, hw', -, hone, -, hdeq⟩ := step_popBatch hs
    have hlength := ProducerQueue.dequeueBulk_length hdeq
    have hrank := site.rank_mono (m := s'.sh.spans.length) (n := s.sh.spans.length) (by omega)
    have hrequests : s'.sh.flushRequests = s.sh.flushRequests := by
      obtain ⟨-, -, rfl⟩ := step_worker_iff.mp hs
      rfl
    rw [potential, potential, hw, hw', hrequests]
    simp only [WorkerPc.rank]
    omega
  by_cases hdequeue : ∃ site any caller request, a = .dequeueRequest site any caller request
  · obtain ⟨site, any, caller, request, rfl⟩ := hdequeue
    obtain ⟨hlength, hspans, hw'⟩ := length_dequeueRequest hs
    have hw := (step_worker_iff.mp hs).1
    rw [potential, potential, hw, hw', hspans, hlength]
    cases site <;>
      simp only [workerCommand, WorkerPc.rank, DrainSite.rank, FlushSite.rank, if_true] <;>
      (try split_ifs) <;> omega
  · have hnotpop : ∀ site batch, a ≠ .popBatch site batch :=
      fun site batch ha => hpop ⟨site, batch, ha⟩
    have hnotdequeue : ∀ site any caller request, a ≠ .dequeueRequest site any caller request :=
      fun site any caller request ha => hdequeue ⟨site, any, caller, request, ha⟩
    obtain ⟨hspans, hrequests⟩ := queues_worker hs hnotpop hnotdequeue
    have hrank := rank_worker (now_le_of_run hr) hS.requested hsize hactive hs hnotpop hnotdequeue
    rw [potential, potential, hspans, hrequests]
    omega

/-! ### Runs -/

/-- While no work is started, the steps the worker has made come off the potential. -/
lemma potential_of_run [Fintype ι] {h₀ : List (Act ι α)} {s₀ : State ι α}
    (hr₀ : (system ι P).Run h₀ s₀) (hS : Settled s₀) (hr : (system ι P).Run (h₀ ++ h) s)
    (hstarts : ∀ a ∈ h, startsWork a = false) :
    Settled s ∧ h.countP byWorker + potential s ≤ potential s₀ := by
  induction hr using Lts.run_induction_from with
  | nil s hr =>
    rw [List.append_nil] at hr
    obtain rfl := hr.unique hr₀
    exact ⟨hS, by simp⟩
  | concat h a s s' hr hs ih =>
    replace hs : step P s a = some s' := hs
    obtain ⟨hsettled, hle⟩ := ih fun b hb => hstarts b (List.mem_append_left _ hb)
    rw [List.countP_append, List.countP_singleton]
    cases hworker : byWorker a with
    | false =>
      obtain ⟨hsettled', heq⟩ := hsettled.caller hs (hstarts a (by simp)) hworker
      exact ⟨hsettled', by simpa [heq] using hle⟩
    | true =>
      obtain ⟨b, rfl⟩ : ∃ b, a = .worker b := by
        cases a with
        | worker b => exact ⟨b, rfl⟩
        | _ => cases hworker
      have hlt := potential_worker hr hsettled hs
      refine ⟨⟨shutdownRequested_mono hs hsettled.requested, ?_⟩, ?_⟩
      · rw [(worker_frame hs).pc]
        exact hsettled.notBusy
      · rw [if_pos rfl]
        omega

/-- A worker at the source of an operation whose guard holds can go on. -/
lemma exists_step_of_guard {s : State ι α} (a : WorkerAct ι α)
    (hsource : s.worker = (workerCommand P a).source)
    (hguard : (workerCommand P a).guard s.sh = true) : ∃ b s', step P s (.worker b) = some s' :=
  ⟨a, _, step_worker_iff.mpr ⟨hsource, hguard, rfl⟩⟩

/-- The oldest entry of a queue can be dequeued. -/
lemma dequeue_head (e : ι × α) (q : List (ι × α)) :
    ProducerQueue.dequeue e (e :: q) = some q := by
  simp [ProducerQueue.dequeue]

/-- The worker is never stuck: unless it has stopped, it can go on. -/
theorem exists_worker_step (P : Processor α) (s : State ι α) (hrunning : s.worker ≠ .stopped) :
    ∃ a s', step P s (.worker a) = some s' := by
  cases hw : s.worker with
  | wait => exact exists_step_of_guard .waitTimeout hw rfl
  | clearPending => exact exists_step_of_guard .clearPending hw rfl
  | loadShutdown elapsed =>
    exact exists_step_of_guard (.loadShutdown elapsed _) hw (beq_self_eq_true _)
  | dequeueRequest site any =>
    cases hq : s.sh.flushRequests with
    | nil => exact exists_step_of_guard (.noRequest site any) hw (by simp [workerCommand, hq])
    | cons e rest =>
      refine exists_step_of_guard (.dequeueRequest site any e.1 e.2) hw ?_
      simp [workerCommand, hq, dequeue_head]
  | loadCount => exact exists_step_of_guard (.loadCount _) hw (beq_self_eq_true _)
  | readyCount drainPartial =>
    exact exists_step_of_guard (.readyCount drainPartial _) hw (beq_self_eq_true _)
  | readyEmpty => exact exists_step_of_guard (.readyEmpty _) hw (beq_self_eq_true _)
  | popLoad site => exact exists_step_of_guard (.popLoad site _) hw (beq_self_eq_true _)
  | popDequeue site =>
    cases hq : s.sh.spans with
    | nil => exact exists_step_of_guard (.popNone site) hw (by simp [workerCommand, hq])
    | cons e rest =>
      refine exists_step_of_guard (.popBatch site [e]) hw ?_
      have hbulk : ProducerQueue.dequeueBulk [e] (e :: rest) = some rest := by
        simp [ProducerQueue.dequeueBulk, dequeue_head]
      simp [workerCommand, hq, hbulk, P.config.one_le_maxBatchSize]
  | popRelease site batch => exact exists_step_of_guard (.popRelease site batch) hw rfl
  | callExport site batch => exact exists_step_of_guard (.callExport site batch) hw rfl
  | inExport site batch => exact exists_step_of_guard (.exportReturn site batch .kSuccess) hw rfl
  | drainClock site ok => exact exists_step_of_guard (.drainClock site ok _) hw (beq_self_eq_true _)
  | drainEmpty site ok any =>
    exact exists_step_of_guard (.drainEmpty site ok any _) hw (beq_self_eq_true _)
  | drainWait site ok => exact exists_step_of_guard (.drainTimeout site ok) hw rfl
  | drainClear site ok => exact exists_step_of_guard (.drainClear site ok) hw rfl
  | drainResult site ok =>
    exact exists_step_of_guard (.drainResult site ok _) hw (beq_self_eq_true _)
  | callFlush site request ok =>
    exact exists_step_of_guard (.callFlush site request ok _) hw (beq_self_eq_true _)
  | inFlush site request ok => exact exists_step_of_guard (.flushReturn site request ok true) hw rfl
  | storeOk site request ok => exact exists_step_of_guard (.storeOk site request ok) hw rfl
  | releaseDone site request => exact exists_step_of_guard (.releaseDone site request) hw rfl
  | loadActive ok => exact exists_step_of_guard (.loadActive ok _) hw (beq_self_eq_true _)
  | exitEmpty ok => exact exists_step_of_guard (.exitEmpty ok _) hw (beq_self_eq_true _)
  | callFinalFlush ok => exact exists_step_of_guard (.callFinalFlush ok) hw rfl
  | inFinalFlush ok => exact exists_step_of_guard (.finalFlushReturn ok true) hw rfl
  | storeDrainOk ok => exact exists_step_of_guard (.storeDrainOk ok) hw rfl
  | storeStopped => exact exists_step_of_guard .storeStopped hw rfl
  | stopped => exact absurd hw hrunning

/-- From a settled state on, as long as no work is started, the worker makes at most
`8 * spans + 23 * requests + 36` steps, and it can go on until it has stopped. -/
theorem worker_terminates [Fintype ι] {h₀ : List (Act ι α)} {s₀ : State ι α}
    (hr₀ : (system ι P).Run h₀ s₀) (hS : Settled s₀) (hr : (system ι P).Run (h₀ ++ h) s)
    (hstarts : ∀ a ∈ h, startsWork a = false) :
    h.countP byWorker ≤ 8 * s₀.sh.spans.length + 23 * s₀.sh.flushRequests.length + 36 ∧
      (s.worker = .stopped ∨ ∃ a s', step P s (.worker a) = some s') := by
  refine ⟨?_, ?_⟩
  · have hle := (potential_of_run hr₀ hS hr hstarts).2
    have hrank := s₀.worker.rank_le s₀.sh.spans.length
    unfold potential at hle
    omega
  · by_cases hstopped : s.worker = .stopped
    · exact Or.inl hstopped
    · exact Or.inr (exists_worker_step P s hstopped)

/-- In a plain shutdown the worker makes at most 36 steps once the request is stored. -/
theorem worker_terminates_plainShutdown : (plainShutdown.drop 2).countP byWorker ≤ 36 := by
  obtain ⟨s₀, hr₀, hsettled⟩ := Lts.exists_run_of_any
    (L := system Thread (smallProcessor .kTimed 1 1)) (h := plainShutdown.take 2)
    (p := fun s => s.sh.shutdownRequested && decide (∀ t, (s.pc t).busy = false) &&
      decide (s.sh.spans = [] ∧ s.sh.flushRequests = [])) (by decide)
  obtain ⟨s, hr, -⟩ := Lts.exists_run_of_any (L := system Thread (smallProcessor .kTimed 1 1))
    (h := plainShutdown.take 2 ++ plainShutdown.drop 2) (p := fun _ => true) (by decide)
  simp only [Bool.and_eq_true, decide_eq_true_eq] at hsettled
  obtain ⟨⟨hreq, hidle⟩, hspans, hrequests⟩ := hsettled
  have hbound := (worker_terminates hr₀ ⟨hreq, hidle⟩ hr (by decide)).1
  rwa [hspans, hrequests] at hbound

end GalayTracing
