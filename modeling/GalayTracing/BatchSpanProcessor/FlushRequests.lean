import GalayTracing.BatchSpanProcessor.ShutdownRequest
import GalayTracing.BatchSpanProcessor.Signal

/-!
# No flush request is abandoned

A caller of `forceFlush` announces itself in `activeFlushCallers` before it checks
`shutdownRequested`, and leaves after it has enqueued its request; the worker exits only after it
has found no announced caller and, after that, no request.  Hence no request is enqueued once the
worker has passed the first of these tests (`Handshake`), and every request that was ever enqueued
is completed exactly once before `workerStopped` is set.

While the worker runs, a queued request is never without a wake-up: its caller has still to
notify the worker, or a permit is there, or the worker is going to look for requests before it
waits again (`Collected`).
-/

namespace GalayTracing

variable {ι α : Type}

/-! ### The request being served -/

/-- The request a drain belongs to. -/
def DrainSite.serving : DrainSite → Option ℕ
  | .request _ id => some id
  | .shutdown => none

@[inherit_doc DrainSite.serving]
def PopSite.serving : PopSite → Option ℕ
  | .ready _ => none
  | .drain site _ _ => site.serving

/-- The request the worker has dequeued and not yet completed. -/
def WorkerPc.serving : WorkerPc ι α → Option ℕ
  | .popLoad site | .popDequeue site | .popRelease site _ | .callExport site _
  | .inExport site _ => site.serving
  | .drainClock site _ | .drainEmpty site _ _ | .drainWait site _ | .drainClear site _
  | .drainResult site _ => site.serving
  | .callFlush _ request _ | .inFlush _ request _ | .storeOk _ request _
  | .releaseDone _ request => some request
  | _ => none

lemma serving_afterNone (site : PopSite) :
    (site.afterNone : WorkerPc ι α).serving = site.serving := by
  cases site <;> rfl

lemma serving_afterExport (success : Bool) (site : PopSite) :
    (site.afterExport success : WorkerPc ι α).serving = site.serving := by
  cases site <;> rfl

lemma serving_afterRequests (P : Processor α) (any : Bool) (site : FlushSite) :
    (site.afterRequests P any : WorkerPc ι α).serving = none := by
  cases site <;> simp only [FlushSite.afterRequests, ordinaryDrain] <;> (try split_ifs) <;> rfl

lemma serving_afterDrain (P : Processor α) (ok : Bool) (site : DrainSite) :
    (site.afterDrain P ok : WorkerPc ι α).serving = site.serving := by
  cases site <;> simp only [DrainSite.afterDrain] <;> (try split_ifs) <;> rfl

variable [DecidableEq ι] [DecidableEq α] {P : Processor α} {s s' : State ι α}
  {h : List (Act ι α)} {t : ι}

/-- The worker serves a request from its dequeue to its completion. -/
lemma serving_of_step {a : WorkerAct ι α} (hs : step P s (.worker a) = some s')
    (hdequeue : ∀ site any caller request, a ≠ .dequeueRequest site any caller request)
    (hrelease : ∀ site request, a ≠ .releaseDone site request) :
    s'.worker.serving = s.worker.serving := by
  obtain ⟨hsource, -, rfl⟩ := step_worker_iff.mp hs
  rw [hsource]
  clear hs hsource
  cases a with
  | dequeueRequest site any caller request =>
    exact absurd rfl (hdequeue site any caller request)
  | releaseDone site request => exact absurd rfl (hrelease site request)
  | noRequest site any => exact serving_afterRequests P any site
  | popNone site => exact serving_afterNone site
  | exportReturn site batch result => exact serving_afterExport _ site
  | drainResult site ok value => exact serving_afterDrain P _ site
  | popLoad site count =>
    simp only [workerCommand]
    split_ifs
    · exact serving_afterNone site
    · rfl
  | popRelease site batch =>
    simp only [workerCommand]
    split_ifs
    · rfl
    · exact serving_afterExport _ site
  | _ =>
    simp only [workerCommand]
    (try split_ifs) <;> rfl

/-! ### The account of the requests -/

/-- How often the request was enqueued. -/
def enqueuedCount (request : ℕ) (h : List (Act ι α)) : ℕ :=
  h.countP fun
    | .forceFlush _ (.enqueue request' true) => request' == request
    | _ => false

/-- How often the semaphore `done` of the request was released. -/
def releasedCount (request : ℕ) (h : List (Act ι α)) : ℕ :=
  h.countP fun
    | .worker (.releaseDone _ request') => request' == request
    | _ => false

omit [DecidableEq ι] [DecidableEq α] in
lemma enqueuedCount_append (request : ℕ) (h h' : List (Act ι α)) :
    enqueuedCount request (h ++ h') = enqueuedCount request h + enqueuedCount request h' :=
  List.countP_append

omit [DecidableEq ι] [DecidableEq α] in
lemma releasedCount_append (request : ℕ) (h h' : List (Act ι α)) :
    releasedCount request (h ++ h') = releasedCount request h + releasedCount request h' :=
  List.countP_append

/-- How often the request is in the queue or in the hands of the worker. -/
def pendingCount (request : ℕ) (s : State ι α) : ℕ :=
  (s.sh.flushRequests.map Prod.snd).count request +
    if s.worker.serving = some request then 1 else 0

omit [DecidableEq ι] [DecidableEq α] in
/-- The requests in the queue and in the hands of the worker are untouched by a step that neither
enqueues nor dequeues nor completes one. -/
lemma pendingCount_eq (hq : s'.sh.flushRequests = s.sh.flushRequests)
    (hserving : s'.worker.serving = s.worker.serving) (request : ℕ) :
    pendingCount request s' = pendingCount request s := by
  rw [pendingCount, pendingCount, hq, hserving]

/-- A worker step completes the request it takes out of the account. -/
lemma enqueuedCount_worker {a : WorkerAct ι α} {request : ℕ}
    (hs : step P s (.worker a) = some s')
    (ih : enqueuedCount request h = pendingCount request s + releasedCount request h) :
    enqueuedCount request (h ++ [.worker a]) =
      pendingCount request s' + releasedCount request (h ++ [.worker a]) := by
  have hsame : enqueuedCount request (h ++ [.worker a]) = enqueuedCount request h :=
    enqueuedCount_append request h _
  rw [hsame, ih, releasedCount_append]
  by_cases hdequeue : ∃ site any caller r, a = .dequeueRequest site any caller r
  · obtain ⟨site, any, caller, r, rfl⟩ := hdequeue
    obtain ⟨hsource, hg, rfl⟩ := step_worker_iff.mp hs
    obtain ⟨rest, hrest⟩ := Option.isSome_iff_exists.mp hg
    have hperm := (ProducerQueue.dequeue_perm hrest).map Prod.snd
    have hcount := hperm.count_eq request
    rw [List.map_cons, List.count_cons] at hcount
    have hbefore : s.worker.serving = none := by rw [hsource]; rfl
    have hnone : releasedCount request [Act.worker (ι := ι) (α := α)
        (.dequeueRequest site any caller r)] = 0 := rfl
    rw [pendingCount, pendingCount, hbefore, hcount, hnone]
    simp only [workerCommand, hrest, Option.getD_some, WorkerPc.serving, DrainSite.serving]
    by_cases hr : r = request <;> simp [hr]
  by_cases hrelease : ∃ site r, a = .releaseDone site r
  · obtain ⟨site, r, rfl⟩ := hrelease
    obtain ⟨hsource, -, rfl⟩ := step_worker_iff.mp hs
    rw [pendingCount, pendingCount, hsource]
    simp only [workerCommand, WorkerPc.serving, releasedCount, List.countP_singleton]
    by_cases hr : r = request
    · simp [hr]
      omega
    · simp [hr]
  · have hserving := serving_of_step hs
      (fun site any caller r ha => hdequeue ⟨site, any, caller, r, ha⟩)
      fun site r ha => hrelease ⟨site, r, ha⟩
    have hq : s'.sh.flushRequests = s.sh.flushRequests := by
      obtain ⟨-, -, rfl⟩ := step_worker_iff.mp hs
      cases a with
      | dequeueRequest site any caller r => exact absurd ⟨site, any, caller, r, rfl⟩ hdequeue
      | _ => rfl
    have hnone : releasedCount request [Act.worker (ι := ι) a] = 0 := by
      cases a with
      | releaseDone site r => exact absurd ⟨site, r, rfl⟩ hrelease
      | _ => rfl
    rw [pendingCount_eq hq hserving, hnone, Nat.add_zero]

/-- Every enqueued request is in the queue, or in the hands of the worker, or completed. -/
theorem enqueuedCount_eq_of_run (hr : (system ι P).Run h s) (request : ℕ) :
    enqueuedCount request h = pendingCount request s + releasedCount request h := by
  induction hr using run_induction with
  | nil => rfl
  | onEnd h s s' t a hr hs ih =>
    have hf := onEnd_frame hs
    rw [enqueuedCount_append, releasedCount_append, ih,
      pendingCount_eq hf.flushRequests (by rw [hf.worker])]
    rfl
  | forceFlush h s s' t a hr hs ih =>
    have hworker := (forceFlush_frame hs).worker
    have hreleased : releasedCount request (h ++ [.forceFlush t a]) = releasedCount request h :=
      releasedCount_append request h _
    rw [enqueuedCount_append, hreleased, ih]
    obtain ⟨-, -, hs'⟩ := step_forceFlush_iff.mp hs
    by_cases henqueue : ∃ r, a = .enqueue r true
    · obtain ⟨r, rfl⟩ := henqueue
      rw [hs']
      simp only [pendingCount, forceFlushCommand, List.map_append, List.map_cons, List.map_nil,
        List.count_append, List.count_singleton, enqueuedCount, List.countP_singleton]
      omega
    · have hq : s'.sh.flushRequests = s.sh.flushRequests := by
        rw [hs']
        rcases a with _ | _ | _ | _ | _ | ⟨r, _ | _⟩ | _ | _ | _ | _ | _ | _ | _ | _ | _ | _ <;>
          first | rfl | exact absurd ⟨r, rfl⟩ henqueue
      have hnone : enqueuedCount request [Act.forceFlush (α := α) t a] = 0 := by
        rcases a with _ | _ | _ | _ | _ | ⟨r, _ | _⟩ | _ | _ | _ | _ | _ | _ | _ | _ | _ | _ <;>
          first | rfl | exact absurd ⟨r, rfl⟩ henqueue
      rw [hnone, pendingCount_eq hq (by rw [hworker])]
      omega
  | shutdown h s s' t a hr hs ih =>
    have hf := shutdown_frame hs
    rw [enqueuedCount_append, releasedCount_append, ih,
      pendingCount_eq hf.flushRequests (by rw [hf.worker])]
    rfl
  | worker h s s' a hr hs ih => exact enqueuedCount_worker hs ih
  | tick h s s' now hr hs ih =>
    obtain ⟨-, rfl⟩ := step_tick_iff.mp hs
    rw [enqueuedCount_append, releasedCount_append, ih]
    rfl

/-! ### Every request is enqueued at most once -/

/-- The caller is about to enqueue the request. -/
def CallerPc.toEnqueue (request : ℕ) : CallerPc α → ℕ
  | .forceFlush (.enqueue r) => if r = request then 1 else 0
  | _ => 0

omit [DecidableEq α] in
lemma toEnqueue_next (request : ℕ) (exit : FlushExit) :
    (exit.next : CallerPc α).toEnqueue request = 0 := by
  cases exit <;> rfl

variable [Fintype ι]

/-- Before its creation a request is not enqueued, and after it at most once. -/
def EnqueuedOnce (request : ℕ) (h : List (Act ι α)) (s : State ι α) : Prop :=
  (s.sh.created ≤ request →
    enqueuedCount request h + poolSum (CallerPc.toEnqueue request) s.pc = 0) ∧
  enqueuedCount request h + poolSum (CallerPc.toEnqueue request) s.pc ≤ 1

omit [DecidableEq ι] [DecidableEq α] in
/-- A step that creates no request and leaves the count of enqueued and enqueueable ones alone. -/
lemma EnqueuedOnce.of_eq {request : ℕ} {h' : List (Act ι α)} (ih : EnqueuedOnce request h s)
    (hcreated : s'.sh.created = s.sh.created)
    (hsum : enqueuedCount request h' + poolSum (CallerPc.toEnqueue request) s'.pc ≤
      enqueuedCount request h + poolSum (CallerPc.toEnqueue request) s.pc) :
    EnqueuedOnce request h' s' := by
  refine ⟨fun hle => ?_, hsum.trans ih.2⟩
  rw [hcreated] at hle
  exact Nat.le_zero.mp (hsum.trans (ih.1 hle).le)

/-- `forceFlush` enqueues a request only once after it has created it. -/
lemma EnqueuedOnce.forceFlush {request : ℕ} {a : ForceFlushAct} (ih : EnqueuedOnce request h s)
    (hs : step P s (.forceFlush t a) = some s') :
    EnqueuedOnce request (h ++ [.forceFlush t a]) s' := by
  have hsum := poolSum_update (CallerPc.toEnqueue request) s.pc t
    (forceFlushCommand (ι := ι) t a).target
  rw [(step_forceFlush_iff.mp hs).1, ← forceFlush_pc_eq hs] at hsum
  have happend := enqueuedCount_append request h [Act.forceFlush t a]
  obtain ⟨-, hg, hs'⟩ := step_forceFlush_iff.mp hs
  have hcreated : s'.sh.created = ((forceFlushCommand (α := α) t a).update s.sh).created := by
    rw [hs']
  clear hs hs'
  rcases a with _ | _ | _ | _ | ⟨timeout, r⟩ | ⟨r, _ | _⟩ | _ | _ | _ | _ | _ | _ | _ | _ | _ | _
  case create =>
    have hr : s.sh.created = r := beq_iff_eq.mp hg
    have hnone : enqueuedCount request [Act.forceFlush (α := α) t (.create timeout r)] = 0 := rfl
    obtain ⟨hfresh, hone⟩ := ih
    simp only [forceFlushCommand, CallerPc.toEnqueue] at hsum hcreated
    by_cases hrequest : r = request
    · rw [if_pos hrequest] at hsum
      have hzero := hfresh (by omega)
      refine ⟨fun hle => ?_, ?_⟩ <;> omega
    · rw [if_neg hrequest] at hsum
      refine ⟨fun hle => ?_, by omega⟩
      have hzero := hfresh (by omega)
      omega
  case enqueue.true =>
    have hone : enqueuedCount request [Act.forceFlush (α := α) t (.enqueue r true)] =
        if r = request then 1 else 0 := by simp [enqueuedCount, List.countP_singleton]
    simp only [forceFlushCommand, CallerPc.toEnqueue] at hsum
    exact ih.of_eq hcreated (by omega)
  all_goals
    refine ih.of_eq hcreated ?_
    have hnone : enqueuedCount request h = enqueuedCount request (h ++ [_]) := happend.symm
    rw [← hnone]
    simp only [forceFlushCommand] at hsum
    (try split_ifs at hsum) <;> (try simp only [toEnqueue_next] at hsum) <;>
      simp only [CallerPc.toEnqueue] at hsum <;> omega

/-- Every request is enqueued at most once. -/
theorem enqueuedOnce_of_run (hr : (system ι P).Run h s) (request : ℕ) :
    EnqueuedOnce request h s := by
  induction hr using run_induction with
  | nil =>
    have hzero : poolSum (CallerPc.toEnqueue request) (initial : State ι α).pc = 0 :=
      poolSum_const_zero rfl
    refine ⟨fun _ => ?_, ?_⟩ <;> rw [hzero]
    · rfl
    · exact Nat.zero_le _
  | onEnd h s s' t a hr hs ih =>
    refine ih.of_eq (onEnd_frame hs).created (le_of_eq ?_)
    rw [enqueuedCount_append, poolSum_onEnd (w := CallerPc.toEnqueue request) hs rfl fun _ => rfl]
    rfl
  | forceFlush h s s' t a hr hs ih => exact ih.forceFlush hs
  | shutdown h s s' t a hr hs ih =>
    refine ih.of_eq (shutdown_frame hs).created (le_of_eq ?_)
    rw [enqueuedCount_append,
      poolSum_shutdown (w := CallerPc.toEnqueue request) hs rfl fun _ => rfl]
    rfl
  | worker h s s' a hr hs ih =>
    refine ih.of_eq (worker_frame hs).created (le_of_eq ?_)
    rw [enqueuedCount_append, (worker_frame hs).pc]
    rfl
  | tick h s s' now hr hs ih =>
    obtain ⟨-, rfl⟩ := step_tick_iff.mp hs
    refine ih.of_eq rfl (le_of_eq ?_)
    rw [enqueuedCount_append]
    rfl

/-! ### The handshake at the exit of the worker -/

/-- The caller is counted in `activeFlushCallers`. -/
def CallerPc.announced : CallerPc α → ℕ
  | .forceFlush (.loadShutdown _) | .forceFlush (.loadStopped _) | .forceFlush (.create _)
  | .forceFlush (.enqueue _) | .forceFlush (.leave _) => 1
  | _ => 0

/-- The caller has found the processor open and may still enqueue a request. -/
def CallerPc.mayEnqueue : CallerPc α → ℕ
  | .forceFlush (.loadStopped _) | .forceFlush (.create _) | .forceFlush (.enqueue _) => 1
  | _ => 0

omit [DecidableEq α] in
lemma announced_next (exit : FlushExit) : (exit.next : CallerPc α).announced = 0 := by
  cases exit <;> rfl

omit [DecidableEq α] in
lemma mayEnqueue_next (exit : FlushExit) : (exit.next : CallerPc α).mayEnqueue = 0 := by
  cases exit <;> rfl

omit [DecidableEq α] in
lemma mayEnqueue_le_announced (p : CallerPc α) : p.mayEnqueue ≤ p.announced := by
  rcases p with _ | p | p | p
  all_goals try exact Nat.zero_le _
  cases p <;> first | exact Nat.zero_le _ | exact Nat.le_refl 1

/-- The counter of the announced callers is exact. -/
theorem activeFlushCallers_eq_of_run (hr : (system ι P).Run h s) :
    s.sh.activeFlushCallers = poolSum CallerPc.announced s.pc := by
  induction hr using run_induction with
  | nil => exact (poolSum_const_zero rfl).symm
  | onEnd h s s' t a hr hs ih =>
    rw [(onEnd_frame hs).activeFlushCallers, ih,
      poolSum_onEnd (w := CallerPc.announced) hs rfl fun _ => rfl]
  | forceFlush h s s' t a hr hs ih =>
    have hsum := poolSum_update CallerPc.announced s.pc t
      (forceFlushCommand (ι := ι) t a).target
    rw [(step_forceFlush_iff.mp hs).1, ← forceFlush_pc_eq hs] at hsum
    have hone := le_poolSum CallerPc.announced s.pc t
    rw [(step_forceFlush_iff.mp hs).1] at hone
    obtain ⟨-, hg, hs'⟩ := step_forceFlush_iff.mp hs
    have hactive : s'.sh.activeFlushCallers =
        ((forceFlushCommand (α := α) t a).update s.sh).activeFlushCallers := by rw [hs']
    rw [hactive]
    clear hs hs' hactive
    rcases a with _ | timeout | _ | _ | _ | ⟨_, _ | _⟩ | ⟨exit, previous⟩ | _ | _ | _ | _ | _ | _ |
      _ | _ | _
    case announce =>
      simp only [forceFlushCommand, CallerPc.announced] at hsum ⊢
      omega
    case leave =>
      have htarget : (forceFlushCommand (ι := ι) (α := α) t (.leave exit previous)).target.announced
          = 0 := by
        simp only [forceFlushCommand]
        split_ifs
        · rfl
        · exact announced_next exit
      rw [htarget] at hsum
      simp only [forceFlushCommand, CallerPc.announced] at hone hsum ⊢
      rw [fetchSub_of_le (by omega)]
      omega
    all_goals
      refine ih.trans (Nat.add_right_cancel (hsum.trans (congrArg (_ + ·) ?_))).symm
      simp only [forceFlushCommand]
      (try split_ifs) <;> first | rfl | exact announced_next _
  | shutdown h s s' t a hr hs ih =>
    rw [(shutdown_frame hs).activeFlushCallers, ih,
      poolSum_shutdown (w := CallerPc.announced) hs rfl fun _ => rfl]
  | worker h s s' a hr hs ih =>
    rw [(worker_frame hs).activeFlushCallers, (worker_frame hs).pc, ih]
  | tick h s s' now hr hs ih =>
    obtain ⟨-, rfl⟩ := step_tick_iff.mp hs
    exact ih

/-- The call belongs to the exit test. -/
def FlushSite.closing : FlushSite → Bool
  | .exitTest _ => true
  | _ => false

@[inherit_doc FlushSite.closing]
def DrainSite.closing : DrainSite → Bool
  | .request site _ => site.closing
  | .shutdown => false

@[inherit_doc FlushSite.closing]
def PopSite.closing : PopSite → Bool
  | .ready _ => false
  | .drain site _ _ => site.closing

/-- The worker has found no announced caller in the exit test of the current iteration. -/
def WorkerPc.closing : WorkerPc ι α → Bool
  | .dequeueRequest site _ | .callFlush site _ _ | .inFlush site _ _ | .storeOk site _ _
  | .releaseDone site _ => site.closing
  | .popLoad site | .popDequeue site | .popRelease site _ | .callExport site _
  | .inExport site _ => site.closing
  | .drainClock site _ | .drainEmpty site _ _ | .drainWait site _ | .drainClear site _
  | .drainResult site _ => site.closing
  | .exitEmpty _ | .callFinalFlush _ | .inFinalFlush _ | .storeDrainOk _ | .storeStopped
  | .stopped => true
  | _ => false

/-- The worker has found no request in the exit test and is on its way out. -/
def WorkerPc.leaving : WorkerPc ι α → Bool
  | .callFinalFlush _ | .inFinalFlush _ | .storeDrainOk _ | .storeStopped | .stopped => true
  | _ => false

omit [DecidableEq ι] [DecidableEq α] [Fintype ι] in
lemma WorkerPc.closing_of_leaving {pc : WorkerPc ι α} (hpc : pc.leaving = true) :
    pc.closing = true ∧ pc.serving = none := by
  cases pc <;> first | exact ⟨rfl, rfl⟩ | cases hpc

omit [DecidableEq ι] [DecidableEq α] [Fintype ι] in
lemma WorkerPc.sawShutdown_of_closing {pc : WorkerPc ι α} (hpc : pc.closing = true) :
    pc.sawShutdown = true := by
  have hflush : ∀ site : FlushSite, site.closing = true → site.sawShutdown = true := by
    rintro (_ | _ | _) hsite <;> first | rfl | cases hsite
  have hdrain : ∀ site : DrainSite, site.closing = true → site.sawShutdown = true := by
    rintro (⟨site, _⟩ | _) hsite
    · exact hflush site hsite
    · cases hsite
  have hpop : ∀ site : PopSite, site.closing = true → site.sawShutdown = true := by
    rintro (_ | ⟨site, _, _⟩) hsite
    · cases hsite
    · exact hdrain site hsite
  cases pc <;> first
    | rfl
    | exact hflush _ hpc
    | exact hdrain _ hpc
    | exact hpop _ hpc
    | cases hpc

omit [Fintype ι] in
/-- Where the worker is past the first part of the exit test, it got there by reading that no
caller is announced. -/
lemma closing_worker {a : WorkerAct ι α} (hs : step P s (.worker a) = some s')
    (hclosing : s'.worker.closing = true) :
    s.worker.closing = true ∨ s.sh.activeFlushCallers = 0 := by
  obtain ⟨hsource, hg, hs'⟩ := step_worker_iff.mp hs
  rw [hs'] at hclosing
  rw [hsource]
  clear hs hs'
  cases a with
  | loadActive ok count =>
    by_cases hzero : count = 0
    · exact Or.inr ((beq_iff_eq.mp hg).trans hzero)
    · simp only [workerCommand, if_neg hzero] at hclosing
      cases hclosing
  | noRequest site any =>
    cases site with
    | head elapsed requested =>
      simp only [workerCommand, FlushSite.afterRequests, ordinaryDrain] at hclosing
      split_ifs at hclosing <;> cases hclosing
    | drained ok => cases hclosing
    | exitTest ok => exact Or.inl rfl
  | popLoad site count =>
    simp only [workerCommand] at hclosing
    split_ifs at hclosing
    · cases site with
      | ready drainPartial => cases hclosing
      | drain site ok any => exact Or.inl hclosing
    · exact Or.inl hclosing
  | popNone site =>
    cases site with
    | ready drainPartial => cases hclosing
    | drain site ok any => exact Or.inl hclosing
  | popRelease site batch =>
    simp only [workerCommand] at hclosing
    cases site with
    | ready drainPartial => split_ifs at hclosing <;> cases hclosing
    | drain site ok any => split_ifs at hclosing <;> exact Or.inl hclosing
  | exportReturn site batch result =>
    cases site with
    | ready drainPartial => cases hclosing
    | drain site ok any => exact Or.inl hclosing
  | drainResult site ok value =>
    cases site with
    | request site id =>
      simp only [workerCommand, DrainSite.afterDrain] at hclosing
      split_ifs at hclosing <;> exact Or.inl hclosing
    | shutdown => cases hclosing
  | exitEmpty ok value => exact Or.inl rfl
  | _ =>
    simp only [workerCommand] at hclosing
    (try split_ifs at hclosing) <;> exact Or.inl hclosing

/-- After a shutdown request no caller starts to enqueue. -/
lemma mayEnqueue_le_of_step {a : Act ι α} (hs : step P s a = some s')
    (hreq : s.sh.shutdownRequested = true) :
    poolSum CallerPc.mayEnqueue s'.pc ≤ poolSum CallerPc.mayEnqueue s.pc := by
  rcases a with ⟨t, a⟩ | ⟨t, a⟩ | ⟨t, a⟩ | a | now
  · exact le_of_eq (poolSum_onEnd hs rfl fun _ => rfl)
  · have hsum := poolSum_update CallerPc.mayEnqueue s.pc t
      (forceFlushCommand (ι := ι) t a).target
    rw [(step_forceFlush_iff.mp hs).1, ← forceFlush_pc_eq hs] at hsum
    have hg := (step_forceFlush_iff.mp hs).2.1
    have hle : (forceFlushCommand (ι := ι) (α := α) t a).target.mayEnqueue ≤
        (forceFlushCommand (ι := ι) (α := α) t a).source.mayEnqueue := by
      rcases a with _ | _ | ⟨timeout, value⟩ | _ | _ | ⟨_, _ | _⟩ | _ | _ | _ | _ | _ | _ | _ | _ |
        _ | _
      case loadShutdown =>
        obtain rfl : true = value := hreq.symm.trans (beq_iff_eq.mp hg)
        exact Nat.zero_le _
      all_goals
        simp only [forceFlushCommand]
        (try split_ifs) <;> first
          | exact Nat.zero_le _
          | exact Nat.le_refl 1
          | exact (mayEnqueue_next _).le.trans (Nat.zero_le _)
    omega
  · exact le_of_eq (poolSum_shutdown hs rfl fun _ => rfl)
  · rw [(worker_frame hs).pc]
  · obtain ⟨-, rfl⟩ := step_tick_iff.mp hs
    exact le_refl _

/-- Once the worker is past the first part of the exit test, no caller may enqueue a request. -/
theorem mayEnqueue_eq_zero_of_run (hr : (system ι P).Run h s) (hclosing : s.worker.closing = true) :
    poolSum CallerPc.mayEnqueue s.pc = 0 := by
  induction hr using run_induction_step with
  | nil => cases hclosing
  | concat h a s s' hr hs ih =>
    have hthread : s'.worker = s.worker → poolSum CallerPc.mayEnqueue s'.pc = 0 := by
      intro hworker
      rw [hworker] at hclosing
      have hreq := (shutdownSeen_of_run hr).worker (WorkerPc.sawShutdown_of_closing hclosing)
      exact Nat.le_zero.mp ((mayEnqueue_le_of_step hs hreq).trans (ih hclosing).le)
    rcases a with ⟨t, a⟩ | ⟨t, a⟩ | ⟨t, a⟩ | a | now
    · exact hthread (onEnd_frame hs).worker
    · exact hthread (forceFlush_frame hs).worker
    · exact hthread (shutdown_frame hs).worker
    · rw [(worker_frame hs).pc]
      rcases closing_worker hs hclosing with hold | hactive
      · exact ih hold
      · have hannounced := activeFlushCallers_eq_of_run hr
        have hle : poolSum CallerPc.mayEnqueue s.pc ≤ poolSum CallerPc.announced s.pc :=
          Finset.sum_le_sum fun t _ => mayEnqueue_le_announced (s.pc t)
        omega
    · obtain ⟨-, rfl⟩ := step_tick_iff.mp hs
      exact hthread rfl

/-- When no caller may enqueue a request, the queue of requests does not grow. -/
lemma flushRequests_of_mayEnqueue {a : ForceFlushAct} (hs : step P s (.forceFlush t a) = some s')
    (hzero : poolSum CallerPc.mayEnqueue s.pc = 0) :
    s'.sh.flushRequests = s.sh.flushRequests := by
  obtain ⟨hpc, -, rfl⟩ := step_forceFlush_iff.mp hs
  have hthread := (poolSum_eq_zero_iff CallerPc.mayEnqueue s.pc).mp hzero t
  rw [hpc] at hthread
  rcases a with _ | _ | _ | _ | _ | ⟨r, _ | _⟩ | _ | _ | _ | _ | _ | _ | _ | _ | _ | _
  case enqueue.true => cases hthread
  all_goals rfl

/-- On its way out the worker leaves no request behind. -/
theorem flushRequests_eq_nil_of_leaving (hr : (system ι P).Run h s)
    (hleaving : s.worker.leaving = true) : s.sh.flushRequests = [] := by
  induction hr using run_induction with
  | nil => cases hleaving
  | onEnd h s s' t a hr hs ih =>
    have hf := onEnd_frame hs
    rw [hf.flushRequests]
    exact ih (hf.worker ▸ hleaving)
  | forceFlush h s s' t a hr hs ih =>
    rw [(forceFlush_frame hs).worker] at hleaving
    have hclosing := (WorkerPc.closing_of_leaving hleaving).1
    rw [flushRequests_of_mayEnqueue hs (mayEnqueue_eq_zero_of_run hr hclosing)]
    exact ih hleaving
  | shutdown h s s' t a hr hs ih =>
    have hf := shutdown_frame hs
    rw [hf.flushRequests]
    exact ih (hf.worker ▸ hleaving)
  | worker h s s' a hr hs ih =>
    obtain ⟨hsource, hg, rfl⟩ := step_worker_iff.mp hs
    rw [hsource] at ih
    clear hs hsource
    cases a with
    | noRequest site any => exact List.isEmpty_iff.mp hg
    | callFinalFlush ok => exact ih rfl
    | finalFlushReturn ok answer => exact ih rfl
    | storeDrainOk ok => exact ih rfl
    | storeStopped => exact ih rfl
    | popNone site => cases site <;> cases hleaving
    | exportReturn site batch result => cases site <;> cases hleaving
    | popLoad site count =>
      simp only [workerCommand] at hleaving
      cases site <;> split_ifs at hleaving <;> cases hleaving
    | popRelease site batch =>
      simp only [workerCommand] at hleaving
      cases site <;> split_ifs at hleaving <;> cases hleaving
    | drainResult site ok value =>
      simp only [workerCommand] at hleaving
      cases site <;> simp only [DrainSite.afterDrain] at hleaving <;>
        (try split_ifs at hleaving) <;> cases hleaving
    | _ =>
      simp only [workerCommand] at hleaving
      (try split_ifs at hleaving) <;> cases hleaving
  | tick h s s' now hr hs ih =>
    obtain ⟨-, rfl⟩ := step_tick_iff.mp hs
    exact ih hleaving

/-! ### The wake-up for a request -/

/-- The caller is between enqueueing its request and the end of its last `forceNotify`. -/
def CallerPc.flushing : CallerPc α → ℕ
  | .forceFlush (.leave (.queued _)) | .forceFlush (.leaveLoad (.queued _))
  | .forceFlush (.leaveStore (.queued _)) | .forceFlush (.leaveRelease (.queued _))
  | .forceFlush (.notifyStore _) | .forceFlush (.notifyRelease _) => 1
  | _ => 0

/-- The loop is part of a drain after which requests are dequeued. -/
def PopSite.collecting : PopSite → ℕ
  | .ready _ => 0
  | .drain _ _ _ => 1

/-- The worker will look for requests before it waits again in the main loop. -/
def WorkerPc.collecting : WorkerPc ι α → ℕ
  | .clearPending | .loadShutdown _ | .dequeueRequest _ _ => 1
  | .popLoad site | .popDequeue site | .popRelease site _ | .callExport site _
  | .inExport site _ => site.collecting
  | .drainClock _ _ | .drainEmpty _ _ _ | .drainWait _ _ | .drainClear _ _
  | .drainResult _ _ => 1
  | .callFlush _ _ _ | .inFlush _ _ _ | .storeOk _ _ _ | .releaseDone _ _ => 1
  | _ => 0

omit [DecidableEq α] in
lemma flushing_next (exit : FlushExit) :
    (exit.next : CallerPc α).flushing =
      (CallerPc.forceFlush (.leave exit) : CallerPc α).flushing := by
  cases exit <;> rfl

/-- No request is queued, or a wake-up is there or on its way, or the worker will look for
requests before it waits. -/
def Collected (s : State ι α) : Prop :=
  s.sh.flushRequests = [] ∨ 1 ≤ wakeUps CallerPc.flushing s + s.worker.collecting

/-- `forceFlush` carries its wake-up from the enqueued request to the released permit. -/
lemma Collected.forceFlush {a : ForceFlushAct} (hA : Collected s)
    (hs : step P s (.forceFlush t a) = some s') : Collected s' := by
  have hw := wakeUps_forceFlush (w := CallerPc.flushing) hs
  have hworker := (forceFlush_frame hs).worker
  obtain ⟨-, -, hs'⟩ := step_forceFlush_iff.mp hs
  by_cases henqueue : ∃ r, a = .enqueue r true
  · obtain ⟨r, rfl⟩ := henqueue
    simp only [forceFlushCommand, CallerPc.flushing] at hw
    exact Or.inr (by omega)
  · have hq : s'.sh.flushRequests = s.sh.flushRequests := by
      rw [hs']
      rcases a with _ | _ | _ | _ | _ | ⟨r, _ | _⟩ | _ | _ | _ | _ | _ | _ | _ | _ | _ | _ <;>
        first | rfl | exact absurd ⟨r, rfl⟩ henqueue
    have hle : (forceFlushCommand (ι := ι) (α := α) t a).source.flushing ≤
        a.releases + (forceFlushCommand (ι := ι) (α := α) t a).target.flushing := by
      rcases a with _ | _ | _ | _ | _ | ⟨_, _ | _⟩ | ⟨exit, _⟩ | ⟨exit, _⟩ | exit | exit | _ | _ |
          _ | _ | _ | _ <;>
        simp only [forceFlushCommand] <;> (try split_ifs) <;> (try rw [flushing_next]) <;>
        (try cases exit) <;> simp only [CallerPc.flushing, ForceFlushAct.releases] <;> omega
    refine hA.imp (fun hempty => hq.trans hempty) fun hcollected => ?_
    rw [hworker]
    omega

/-- The worker stops looking for requests only when there are none. -/
lemma Collected.worker {a : WorkerAct ι α} (hA : Collected s)
    (hs : step P s (.worker a) = some s') : Collected s' := by
  have hw := wakeUps_worker (w := CallerPc.flushing) hs
  obtain ⟨hsource, hg, hs'⟩ := step_worker_iff.mp hs
  have hsource' : s'.worker = (workerCommand P a).target := by rw [hs']
  have hawake : (workerCommand P a).target.collecting = 1 → Collected s' :=
    fun hone => Or.inr (by rw [hsource', hone]; exact Nat.le_add_left 1 _)
  -- a step of the ordinary drain, or of the exit test
  have hkeep : a.acquires = 0 → s'.sh.flushRequests = s.sh.flushRequests →
      (workerCommand P a).source.collecting = 0 → Collected s' := by
    intro hacquires hq hzero
    rw [← hsource] at hzero
    refine hA.imp (fun hempty => hq.trans hempty) fun hcollected => ?_
    omega
  cases a with
  | noRequest site any =>
    refine Or.inl ?_
    rw [hs']
    exact List.isEmpty_iff.mp hg
  | popLoad site count =>
    cases site with
    | ready drainPartial => exact hkeep rfl (by rw [hs']; rfl) rfl
    | drain site ok any =>
      refine hawake ?_
      simp only [workerCommand]
      split_ifs <;> rfl
  | popBatch site batch =>
    cases site with
    | ready drainPartial => exact hkeep rfl (by rw [hs']; rfl) rfl
    | drain site ok any => exact hawake rfl
  | popNone site =>
    cases site with
    | ready drainPartial => exact hkeep rfl (by rw [hs']; rfl) rfl
    | drain site ok any => exact hawake rfl
  | popRelease site batch =>
    cases site with
    | ready drainPartial => exact hkeep rfl (by rw [hs']; rfl) rfl
    | drain site ok any =>
      refine hawake ?_
      simp only [workerCommand]
      split_ifs <;> rfl
  | callExport site batch =>
    cases site with
    | ready drainPartial => exact hkeep rfl (by rw [hs']; rfl) rfl
    | drain site ok any => exact hawake rfl
  | exportReturn site batch result =>
    cases site with
    | ready drainPartial => exact hkeep rfl (by rw [hs']; rfl) rfl
    | drain site ok any => exact hawake rfl
  | drainResult site ok value =>
    refine hawake ?_
    simp only [workerCommand]
    cases site with
    | request site id =>
      simp only [DrainSite.afterDrain]
      split_ifs <;> rfl
    | shutdown => rfl
  | drainEmpty site ok any value =>
    refine hawake ?_
    simp only [workerCommand]
    split_ifs <;> rfl
  | drainClock site ok value =>
    refine hawake ?_
    simp only [workerCommand]
    split_ifs <;> rfl
  | waitAcquire => exact hawake rfl
  | waitTimeout => exact hawake rfl
  | clearPending => exact hawake rfl
  | loadShutdown elapsed value => exact hawake rfl
  | dequeueRequest site any caller id => exact hawake rfl
  | drainAcquire site ok => exact hawake rfl
  | drainTimeout site ok => exact hawake rfl
  | drainClear site ok => exact hawake rfl
  | callFlush site id ok remaining => exact hawake rfl
  | flushReturn site id ok answer => exact hawake rfl
  | storeOk site id ok => exact hawake rfl
  | releaseDone site id => exact hawake rfl
  | _ => exact hkeep rfl (by rw [hs']; rfl) rfl

/-- In every reachable state a queued request has a wake-up. -/
theorem collected_of_run (hr : (system ι P).Run h s) : Collected s := by
  induction hr using run_induction with
  | nil => exact Or.inl rfl
  | onEnd h s s' t a hr hs ih =>
    have hf := onEnd_frame hs
    have hsignal := signal_onEnd hs
    have hsum := poolSum_onEnd (w := CallerPc.flushing) hs rfl fun _ => rfl
    refine ih.imp (fun hempty => hf.flushRequests.trans hempty) fun hcollected => ?_
    rw [wakeUps] at hcollected ⊢
    rw [hf.worker]
    omega
  | forceFlush h s s' t a hr hs ih => exact ih.forceFlush hs
  | shutdown h s s' t a hr hs ih =>
    have hf := shutdown_frame hs
    have hsignal := signal_shutdown hs
    have hsum := poolSum_shutdown (w := CallerPc.flushing) hs rfl fun _ => rfl
    refine ih.imp (fun hempty => hf.flushRequests.trans hempty) fun hcollected => ?_
    rw [wakeUps] at hcollected ⊢
    rw [hf.worker]
    omega
  | worker h s s' a hr hs ih => exact ih.worker hs
  | tick h s s' now hr hs ih =>
    have hw := wakeUps_tick (w := CallerPc.flushing) hs
    obtain ⟨-, rfl⟩ := step_tick_iff.mp hs
    exact ih.imp_right fun hcollected => by rw [hw]; exact hcollected

/-! ### The end of the worker -/

omit [Fintype ι] in
/-- After `workerStopped` is set the worker does nothing. -/
lemma stopped_of_run {h₁ h₂ : List (Act ι α)}
    (hr : (system ι P).Run (h₁ ++ .worker .storeStopped :: h₂) s) :
    s.worker = .stopped ∧ ∀ a, Act.worker a ∉ h₂ := by
  replace hr : (system ι P).Run ((h₁ ++ [.worker .storeStopped]) ++ h₂) s := by simpa using hr
  induction hr using Lts.run_induction_from with
  | nil s hr =>
    rw [List.append_nil] at hr
    obtain ⟨s₀, -, hs₀⟩ := run_step_iff.mp hr
    refine ⟨?_, fun a => List.not_mem_nil⟩
    obtain ⟨-, -, rfl⟩ := step_worker_iff.mp hs₀
    rfl
  | concat h a s s' hr hs ih =>
    obtain ⟨hstopped, hnone⟩ := ih
    replace hs : step P s a = some s' := hs
    have hthread : s'.worker = s.worker → (∀ b, a ≠ .worker b) →
        s'.worker = .stopped ∧ ∀ b, Act.worker b ∉ h ++ [a] := by
      intro hworker hne
      refine ⟨hworker.trans hstopped, fun b hb => ?_⟩
      rcases List.mem_append.mp hb with hold | hnew
      · exact hnone b hold
      · exact hne b (List.mem_singleton.mp hnew).symm
    rcases a with ⟨t, a⟩ | ⟨t, a⟩ | ⟨t, a⟩ | a | now
    · exact hthread (onEnd_frame hs).worker (by rintro b ⟨⟩)
    · exact hthread (forceFlush_frame hs).worker (by rintro b ⟨⟩)
    · exact hthread (shutdown_frame hs).worker (by rintro b ⟨⟩)
    · have hsource := (step_worker_iff.mp hs).1
      rw [hstopped] at hsource
      cases a <;> cases hsource
    · obtain ⟨-, rfl⟩ := step_tick_iff.mp hs
      exact hthread rfl (by rintro b ⟨⟩)

/-- No flush request is ever abandoned.  When the worker sets `workerStopped`, the semaphore of
every request that was or will be enqueued has been released, exactly once; and whenever the
worker is blocked and no caller is between enqueueing its request and its last `forceNotify`, no
request is queued. -/
theorem flushRequests_completed (hr : (system ι P).Run h s) :
    (∀ h₁ h₂, h = h₁ ++ .worker .storeStopped :: h₂ →
      ∀ t request, Act.forceFlush t (.enqueue request true) ∈ h →
        releasedCount request h₁ = 1 ∧ releasedCount request h₂ = 0) ∧
      (Blocked s → (∀ t, (s.pc t).flushing = 0) → s.sh.flushRequests = []) := by
  refine ⟨?_, ?_⟩
  · rintro h₁ h₂ rfl t request hmem
    obtain ⟨hstopped, hnone⟩ := stopped_of_run hr
    have hnil := flushRequests_eq_nil_of_leaving hr (by rw [hstopped]; rfl)
    have hpending : pendingCount request s = 0 := by
      rw [pendingCount, hnil, hstopped]
      rfl
    have hbalance := enqueuedCount_eq_of_run hr request
    have hatMost := (enqueuedOnce_of_run hr request).2
    have hatLeast : 1 ≤ enqueuedCount request (h₁ ++ .worker .storeStopped :: h₂) := by
      refine List.countP_pos_iff.mpr ⟨_, hmem, ?_⟩
      exact beq_self_eq_true request
    have hafter : releasedCount request h₂ = 0 := by
      refine List.countP_eq_zero.mpr fun a ha => ?_
      cases a with
      | worker a => exact absurd ha (hnone a)
      | _ => exact Bool.false_ne_true
    have hsplit : releasedCount request (h₁ ++ .worker .storeStopped :: h₂) =
        releasedCount request h₁ + releasedCount request h₂ :=
      releasedCount_append request h₁ _
    refine ⟨?_, hafter⟩
    omega
  · intro hblocked hcallers
    rcases collected_of_run hr with hempty | hcollected
    · exact hempty
    · rw [wakeUps_eq_zero hcallers hblocked, hblocked.1] at hcollected
      exact absurd hcollected (Nat.not_succ_le_zero 0)

/-- A flush request is enqueued before a shutdown request and served before the worker exits. -/
def flushThenShutdown : List (Act Thread ℕ) :=
  [.forceFlush .t₁ (.call 1), .forceFlush .t₁ (.announce 1),
    .forceFlush .t₁ (.loadShutdown 1 false), .forceFlush .t₁ (.loadStopped 1 false),
    .forceFlush .t₁ (.create 1 0), .shutdown .t₂ (.call 1 1000000),
    .shutdown .t₂ (.storeRequested 1000000), .shutdown .t₂ (.notifyStore 1000000),
    .shutdown .t₂ (.notifyRelease 1000000), .worker .waitAcquire, .worker .clearPending,
    .worker (.loadShutdown false true), .forceFlush .t₁ (.enqueue 0 true),
    .worker (.dequeueRequest (.head false true) false .t₁ 0),
    .worker (.drainClock (.request (.head false true) 0) true true),
    .worker (.popLoad (.drain (.request (.head false true) 0) true false) 0),
    .worker (.drainEmpty (.request (.head false true) 0) true false true),
    .worker (.drainResult (.request (.head false true) 0) true true),
    .worker (.callFlush (.head false true) 0 true 1),
    .worker (.flushReturn (.head false true) 0 true true),
    .worker (.storeOk (.head false true) 0 true), .worker (.releaseDone (.head false true) 0),
    .worker (.noRequest (.head false true) true), .forceFlush .t₁ (.leave (.queued 0) 1),
    .forceFlush .t₁ (.leaveLoad (.queued 0) true), .forceFlush .t₁ (.leaveStore (.queued 0)),
    .forceFlush .t₁ (.leaveRelease (.queued 0)), .worker .waitAcquire, .worker .clearPending,
    .worker (.loadShutdown false true), .worker (.noRequest (.head false true) false),
    .worker (.drainClock .shutdown true true), .worker (.popLoad (.drain .shutdown true false) 0),
    .worker (.drainEmpty .shutdown true false true), .worker (.drainResult .shutdown true true),
    .worker (.noRequest (.drained true) false), .worker (.loadActive true 0),
    .worker (.exitEmpty true true), .worker (.noRequest (.exitTest true) false),
    .worker (.callFinalFlush true), .worker (.finalFlushReturn true true),
    .worker (.storeDrainOk true), .worker .storeStopped]

/-- The request of `flushThenShutdown` is completed exactly once. -/
theorem releasedCount_flushThenShutdown :
    releasedCount 0 (flushThenShutdown.take 42) = 1 ∧
      releasedCount 0 (flushThenShutdown.drop 43) = 0 := by
  obtain ⟨s, hr, -⟩ := Lts.exists_run_of_any (L := system Thread (smallProcessor .kTimed 1 1))
    (h := flushThenShutdown) (p := fun _ => true) (by decide)
  exact (flushRequests_completed hr).1 _ _ rfl .t₁ 0 (by decide)

end GalayTracing
