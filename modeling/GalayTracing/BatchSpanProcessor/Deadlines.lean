import GalayTracing.BatchSpanProcessor.FlushBarrier

/-!
# What depends on a deadline

A timeout enters a call of `forceFlush` or `shutdown` through the deadline that is computed from it.
Few steps read the deadline of a request: two comparisons with the clock and the computation of the
time that is left for the exporter; all others can be performed with another deadline,
`step_withDeadline`.  Once the clock has passed the deadline of a call, the call cannot succeed any
more, and this stays so as long as it goes on, `Lost.of_step`.
-/

namespace GalayTracing

variable {ι α : Type}

/-! ### Timeouts and deadlines in program points and operations -/

/-- The timeout a caller of `forceFlush` carries to the construction of its request. -/
def ForceFlushPc.timeout : ForceFlushPc → Option ℤ
  | .announce timeout | .loadShutdown timeout | .loadStopped timeout | .create timeout =>
    some timeout
  | _ => none

/-- The program point with another timeout. -/
def ForceFlushPc.withTimeout (timeout : ℤ) : ForceFlushPc → ForceFlushPc
  | .announce _ => .announce timeout
  | .loadShutdown _ => .loadShutdown timeout
  | .loadStopped _ => .loadStopped timeout
  | .create _ => .create timeout
  | pc => pc

/-- The operation with another timeout. -/
def ForceFlushAct.withTimeout (timeout : ℤ) : ForceFlushAct → ForceFlushAct
  | .call _ => .call timeout
  | .announce _ => .announce timeout
  | .loadShutdown _ value => .loadShutdown timeout value
  | .loadStopped _ value => .loadStopped timeout value
  | .create _ request => .create timeout request
  | a => a

/-- The local `deadline` of `shutdown`. -/
def ShutdownPc.deadline : ShutdownPc → ℤ
  | .storeRequested deadline | .notifyStore deadline | .notifyRelease deadline
  | .claimJoin deadline | .join deadline | .waitStopped deadline | .waitClock deadline
  | .loadStopped deadline | .loadDrainOk deadline _ | .claimExporter deadline _
  | .callExporter deadline _ | .inExporter deadline _ | .readClock deadline _ => deadline

/-- The program point with another deadline. -/
def ShutdownPc.withDeadline (deadline : ℤ) : ShutdownPc → ShutdownPc
  | .storeRequested _ => .storeRequested deadline
  | .notifyStore _ => .notifyStore deadline
  | .notifyRelease _ => .notifyRelease deadline
  | .claimJoin _ => .claimJoin deadline
  | .join _ => .join deadline
  | .waitStopped _ => .waitStopped deadline
  | .waitClock _ => .waitClock deadline
  | .loadStopped _ => .loadStopped deadline
  | .loadDrainOk _ ok => .loadDrainOk deadline ok
  | .claimExporter _ ok => .claimExporter deadline ok
  | .callExporter _ ok => .callExporter deadline ok
  | .inExporter _ ok => .inExporter deadline ok
  | .readClock _ ok => .readClock deadline ok

/-- The operation with another deadline. -/
def ShutdownAct.withDeadline (deadline : ℤ) : ShutdownAct → ShutdownAct
  | .call timeout _ => .call timeout deadline
  | .storeRequested _ => .storeRequested deadline
  | .notifyStore _ => .notifyStore deadline
  | .notifyRelease _ => .notifyRelease deadline
  | .claimJoin _ old => .claimJoin deadline old
  | .join _ => .join deadline
  | .waitStopped _ value => .waitStopped deadline value
  | .waitClock _ value => .waitClock deadline value
  | .loadStopped _ value => .loadStopped deadline value
  | .loadDrainOk _ ok value => .loadDrainOk deadline ok value
  | .claimExporter _ ok old => .claimExporter deadline ok old
  | .callExporter _ ok => .callExporter deadline ok
  | .exporterReturn _ ok answer => .exporterReturn deadline ok answer
  | .ret _ ok inTime => .ret deadline ok inTime

/-- The step without the timeouts, deadlines and remaining times it carries. -/
def Act.untimed : Act ι α → Act ι α
  | .forceFlush t a => .forceFlush t (a.withTimeout 0)
  | .shutdown t (.call _ _) => .shutdown t (.call 0 0)
  | .shutdown t a => .shutdown t (a.withDeadline 0)
  | .worker (.callFlush site request ok _) => .worker (.callFlush site request ok 0)
  | a => a

/-- A point of `shutdown` with another deadline; other points are left alone. -/
def CallerPc.withDeadline (deadline : ℤ) : CallerPc α → CallerPc α
  | .shutdown pc => .shutdown (pc.withDeadline deadline)
  | pc => pc

/-- The shared memory with another deadline of a request. -/
def Shared.withDeadline (request : ℕ) (deadline : ℤ) (sh : Shared ι α) : Shared ι α :=
  { sh with
    requests := Function.update sh.requests request
      { sh.requests request with deadline := deadline } }

variable {sh : Shared ι α} {request r : ℕ} {deadline timeout : ℤ}

@[simp] lemma withDeadline_deadline_self :
    ((sh.withDeadline request deadline).requests request).deadline = deadline := by
  simp [Shared.withDeadline]

lemma withDeadline_requests_of_ne (hne : r ≠ request) :
    (sh.withDeadline request deadline).requests r = sh.requests r :=
  Function.update_of_ne hne _ _

@[simp] lemma withDeadline_done :
    ((sh.withDeadline request deadline).requests r).done = (sh.requests r).done := by
  by_cases hr : r = request
  · simp [Shared.withDeadline, hr]
  · rw [withDeadline_requests_of_ne hr]

@[simp] lemma withDeadline_ok :
    ((sh.withDeadline request deadline).requests r).ok = (sh.requests r).ok := by
  by_cases hr : r = request
  · simp [Shared.withDeadline, hr]
  · rw [withDeadline_requests_of_ne hr]

/-- A change of a request commutes with that of a deadline, if it neither reads nor writes it. -/
lemma update_withDeadline (f : FlushRequest → FlushRequest)
    (hf : ∀ x : FlushRequest,
      f { x with deadline := deadline } = { f x with deadline := deadline }) :
    { sh.withDeadline request deadline with
      requests := Function.update (sh.withDeadline request deadline).requests r
        (f ((sh.withDeadline request deadline).requests r)) } =
      Shared.withDeadline request deadline
        { sh with requests := Function.update sh.requests r (f (sh.requests r)) } := by
  by_cases hr : r = request
  · subst hr
    simp [Shared.withDeadline, hf]
  · rw [withDeadline_requests_of_ne hr]
    simp [Shared.withDeadline, Function.update_comm hr, Function.update_of_ne (Ne.symm hr)]

variable [DecidableEq ι] [DecidableEq α] {P : Processor α} {s s' s₁ : State ι α} {a : Act ι α}
  {h rest : List (Act ι α)} {t : ι}

/-! ### Steps that do not depend on them -/

/-- A step of others does not depend on where a thread stands. -/
lemma step_moveTo (p : CallerPc α) (hs : step P s a = some s₁) (ha : a.caller ≠ some t) :
    step P (s.moveTo t p) a = some (s₁.moveTo t p) := by
  rcases a with ⟨t', a⟩ | ⟨t', a⟩ | ⟨t', a⟩ | a | now
  · exact Pool.threadStep_moveTo p (fun ht => ha (congrArg some ht)) hs
  · exact Pool.threadStep_moveTo p (fun ht => ha (congrArg some ht)) hs
  · exact Pool.threadStep_moveTo p (fun ht => ha (congrArg some ht)) hs
  · exact Pool.workerStep_moveTo p hs
  · obtain ⟨hnow, rfl⟩ := step_tick_iff.mp hs
    exact step_tick_iff.mpr ⟨hnow, rfl⟩

/-- The step compares the clock with the deadline of the request. -/
def Act.testsDeadline (request : ℕ) : Act ι α → Bool
  | .worker (.drainClock site _ _) | .worker (.drainResult site _ _) =>
    site.serving == some request
  | _ => false

/-- The step reads the deadline of the request. -/
def Act.readsDeadline (request : ℕ) : Act ι α → Bool
  | .worker (.callFlush _ r _ _) => r == request
  | a => a.testsDeadline request

/-- The state with another deadline of a request. -/
def withDeadline (request : ℕ) (deadline : ℤ) (s : State ι α) : State ι α :=
  s.mapSh (Shared.withDeadline request deadline)

omit [DecidableEq ι] [DecidableEq α] in
/-- Drains of other requests do not read the deadline of the request. -/
lemma deadline_withDeadline {site : DrainSite} (hsite : (site.serving == some request) = false) :
    site.deadline (sh.withDeadline request deadline) = site.deadline sh := by
  cases site with
  | request site r =>
    have hr : r ≠ request := by simpa [DrainSite.serving] using hsite
    rw [DrainSite.deadline, DrainSite.deadline, withDeadline_requests_of_ne hr]
  | shutdown => rfl

/-- Only the steps that read the deadline of a request depend on it. -/
lemma step_withDeadline (hs : step P s a = some s₁) (hcreated : request < s.sh.created)
    (ha : a.readsDeadline request = false) :
    step P (withDeadline request deadline s) a = some (withDeadline request deadline s₁) := by
  rcases a with ⟨t', a⟩ | ⟨t', a⟩ | ⟨t', a⟩ | a | now
  · apply Pool.threadStep_mapSh hs <;>
      rcases a with _ | _ | _ | _ | _ | ⟨_, _, _ | _⟩ | _ | _ | _ | _ <;> rfl
  · apply Pool.threadStep_mapSh hs
    · rcases a with _ | _ | _ | _ | _ | ⟨_, _ | _⟩ | _ | _ | _ | _ | _ | _ | _ | r | _ | ⟨r, _⟩
      case acquireDone => simp only [forceFlushCommand, withDeadline_done]
      case loadOk => simp only [forceFlushCommand, withDeadline_ok]
      all_goals rfl
    · rcases a with _ | _ | _ | _ | ⟨timeout, r⟩ | ⟨_, _ | _⟩ | _ | _ | _ | _ | _ | _ | _ | r | _ |
        _
      case create =>
        have hr : s.sh.created = r := beq_iff_eq.mp (step_forceFlush_iff.mp hs).2.1
        have hne : r ≠ request := by omega
        simp only [forceFlushCommand, Shared.withDeadline, Function.update_comm hne,
          Function.update_of_ne (Ne.symm hne)]
      case acquireDone =>
        exact update_withDeadline (fun x => { x with done := x.done - 1 }) fun _ => rfl
      all_goals rfl
  · apply Pool.threadStep_mapSh hs <;> cases a <;> rfl
  · have hg := (step_worker_iff.mp hs).2.1
    cases a with
    | drainClock site ok value =>
      refine Pool.workerStep_mapSh hs rfl rfl ?_ rfl
      simp only [workerCommand, deadline_withDeadline ha]
      exact hg
    | drainResult site ok value =>
      refine Pool.workerStep_mapSh hs rfl rfl ?_ rfl
      simp only [workerCommand, deadline_withDeadline ha]
      exact hg
    | callFlush site r ok remaining =>
      refine Pool.workerStep_mapSh hs rfl rfl ?_ rfl
      simp only [workerCommand, withDeadline_requests_of_ne (beq_eq_false_iff_ne.mp ha)]
      exact hg
    | storeOk site r ok =>
      refine Pool.workerStep_mapSh hs rfl rfl hg ?_
      exact update_withDeadline (fun x => { x with ok := ok }) fun _ => rfl
    | releaseDone site r =>
      refine Pool.workerStep_mapSh hs rfl rfl hg ?_
      exact update_withDeadline (fun x => { x with done := x.done + 1 }) fun _ => rfl
    | _ => exact Pool.workerStep_mapSh hs rfl rfl hg rfl
  · obtain ⟨hnow, rfl⟩ := step_tick_iff.mp hs
    exact step_tick_iff.mpr ⟨hnow, rfl⟩

omit [DecidableEq ι] [DecidableEq α] in
/-- A drain for a request compares the clock with the deadline of the request. -/
lemma deadline_of_serving {site : DrainSite} (hsite : site.serving = some request) :
    site.deadline sh = (sh.requests request).deadline := by
  cases site with
  | request site r =>
    obtain rfl : r = request := Option.some_inj.mp hsite
    rfl
  | shutdown => cases hsite

omit [DecidableEq ι] [DecidableEq α] in
/-- Before the deadline, the clock test of a drain comes out the same with a later one. -/
lemma clockTest_withDeadline {site : DrainSite} (hsite : site.serving = some request)
    (hnow : sh.now ≤ (sh.requests request).deadline)
    (hle : (sh.requests request).deadline ≤ deadline) :
    decide ((sh.withDeadline request deadline).now ≤
      site.deadline (sh.withDeadline request deadline)) = decide (sh.now ≤ site.deadline sh) := by
  rw [deadline_of_serving hsite, deadline_of_serving hsite, withDeadline_deadline_self,
    decide_eq_true hnow]
  exact decide_eq_true (hnow.trans hle)

/-- Before the deadline, the steps that read it come out the same with a later one, up to the time
that is left for the exporter. -/
lemma step_withDeadline_reads (hs : step P s a = some s₁) (ha : a.readsDeadline request = true)
    (hnow : a.testsDeadline request = true → s.sh.now ≤ (s.sh.requests request).deadline)
    (hle : (s.sh.requests request).deadline ≤ deadline) :
    ∃ a', step P (withDeadline request deadline s) a' = some (withDeadline request deadline s₁) ∧
      a'.untimed = a.untimed := by
  rcases a with ⟨t', a⟩ | ⟨t', a⟩ | ⟨t', a⟩ | a | now
  case worker =>
    have hg := (step_worker_iff.mp hs).2.1
    cases a with
    | drainClock site ok value =>
      refine ⟨.worker (.drainClock site ok value), Pool.workerStep_mapSh hs rfl rfl ?_ rfl, rfl⟩
      exact (congrArg (· == value)
        (clockTest_withDeadline (beq_iff_eq.mp ha) (hnow ha) hle)).trans hg
    | drainResult site ok value =>
      refine ⟨.worker (.drainResult site ok value), Pool.workerStep_mapSh hs rfl rfl ?_ rfl, rfl⟩
      exact (congrArg (· == value)
        (clockTest_withDeadline (beq_iff_eq.mp ha) (hnow ha) hle)).trans hg
    | callFlush site r ok remaining =>
      let remaining' := remainingTimeout s.sh.now
        ((s.sh.withDeadline request deadline).requests r).deadline
      refine ⟨.worker (.callFlush site r ok remaining'), ?_, rfl⟩
      exact Pool.workerStep_mapSh hs rfl rfl (beq_iff_eq.mpr rfl) rfl
    | _ => cases ha
  all_goals cases ha

/-! ### Calls that miss their deadline -/

/-- The worker carries the answer `true` for the request. -/
def WorkerPc.answers (request : ℕ) : WorkerPc ι α → Bool
  | .callFlush _ r ok | .inFlush _ r ok | .storeOk _ r ok => ok && r == request
  | _ => false

/-- The deadline of the request has passed without an answer `true`. -/
structure Missed (request : ℕ) (s : State ι α) : Prop where
  created : request < s.sh.created
  late : (s.sh.requests request).deadline < s.sh.now
  ok : (s.sh.requests request).ok = false
  answers : s.worker.answers request = false

/-- The request of the caller could not be enqueued. -/
def CallerPc.failing : CallerPc α → Bool
  | .forceFlush (.leave .failed) | .forceFlush (.leaveLoad .failed)
  | .forceFlush (.leaveStore .failed) | .forceFlush (.leaveRelease .failed) => true
  | _ => false

/-- The call that thread `t` is in cannot succeed any more: it has missed its deadline, or its
request could not be enqueued. -/
def Lost (t : ι) (s : State ι α) : Prop :=
  (∃ pc, s.pc t = .shutdown pc ∧ pc.deadline < s.sh.now) ∨
    (∃ request, (s.pc t).ownRequest = some request ∧ Missed request s) ∨
      (s.pc t).failing = true

section Answers

omit [DecidableEq ι] [DecidableEq α]

lemma answers_afterNone (site : PopSite) :
    (site.afterNone : WorkerPc ι α).answers request = false := by
  cases site <;> rfl

lemma answers_afterExport (success : Bool) (site : PopSite) :
    (site.afterExport success : WorkerPc ι α).answers request = false := by
  cases site <;> rfl

lemma answers_afterRequests (P : Processor α) (any : Bool) (site : FlushSite) :
    (site.afterRequests P any : WorkerPc ι α).answers request = false := by
  cases site <;> simp only [FlushSite.afterRequests, ordinaryDrain] <;> (try split_ifs) <;> rfl

lemma answers_afterDrain {ok : Bool} {site : DrainSite}
    (hok : site.serving = some request → ok = false) :
    (site.afterDrain P ok : WorkerPc ι α).answers request = false := by
  cases site with
  | request site r =>
    have hanswer : (ok && r == request) = false := by
      by_cases hr : r = request
      · rw [hok (congrArg some hr)]
        rfl
      · rw [beq_eq_false_iff_ne.mpr hr, Bool.and_false]
    rw [DrainSite.afterDrain]
    split_ifs
    · exact hanswer
    · exact hanswer
  | shutdown => rfl

end Answers

/-- After the deadline no drain for the request ends with the answer `true`. -/
lemma answers_of_step (hs : step P s a = some s₁) (hM : Missed request s) :
    s₁.worker.answers request = false := by
  rcases a with ⟨t', a⟩ | ⟨t', a⟩ | ⟨t', a⟩ | a | now
  · rw [(onEnd_frame hs).worker]
    exact hM.answers
  · rw [(forceFlush_frame hs).worker]
    exact hM.answers
  · rw [(shutdown_frame hs).worker]
    exact hM.answers
  · obtain ⟨hsource, hg, rfl⟩ := step_worker_iff.mp hs
    have hanswers := hM.answers
    rw [hsource] at hanswers
    cases a with
    | drainResult site ok value =>
      refine answers_afterDrain fun hsite => ?_
      have hlate : ¬s.sh.now ≤ site.deadline s.sh := by
        rw [deadline_of_serving hsite]
        exact not_le.mpr hM.late
      have hvalue : decide (s.sh.now ≤ site.deadline s.sh) = value := beq_iff_eq.mp hg
      rw [← hvalue, decide_eq_false hlate, Bool.and_false]
    | flushReturn site r ok answer =>
      have hok : (ok && r == request) = false := hanswers
      have hassoc : (answer && ok && r == request) = (answer && (ok && r == request)) :=
        Bool.and_assoc answer ok (r == request)
      exact hassoc.trans (by rw [hok, Bool.and_false])
    | callFlush site r ok remaining => exact hanswers
    | noRequest site any => exact answers_afterRequests P any site
    | popNone site => exact answers_afterNone site
    | exportReturn site batch result => exact answers_afterExport _ site
    | popLoad site count =>
      simp only [workerCommand]
      split_ifs
      · exact answers_afterNone site
      · rfl
    | popRelease site batch =>
      simp only [workerCommand]
      split_ifs
      · rfl
      · exact answers_afterExport _ site
    | _ =>
      simp only [workerCommand]
      (try split_ifs) <;> rfl
  · obtain ⟨-, rfl⟩ := step_tick_iff.mp hs
    exact hM.answers

omit [DecidableEq α] in
/-- Only a caller of `forceFlush` can fail to enqueue a request. -/
lemma forceFlush_of_failing {pc : CallerPc α} (hfailing : pc.failing = true) :
    ∃ p, pc = .forceFlush p := by
  cases pc with
  | forceFlush p => exact ⟨p, rfl⟩
  | _ => cases hfailing

omit [DecidableEq ι] [DecidableEq α] in
/-- A caller of `forceFlush` keeps its request until the call returns or fails. -/
lemma ownRequest_target {b : ForceFlushAct}
    (hown : (forceFlushCommand (ι := ι) (α := α) t b).source.ownRequest = some request) :
    (forceFlushCommand (ι := ι) (α := α) t b).target = .idle ∨
      (forceFlushCommand (ι := ι) (α := α) t b).target.ownRequest = some request ∨
        (forceFlushCommand (ι := ι) (α := α) t b).target.failing = true := by
  rcases b with _ | _ | _ | _ | _ | ⟨_, _ | _⟩ | ⟨exit, _⟩ | ⟨exit, _⟩ | exit | exit | _ | _ | _ |
    _ | _ | _
  case enqueue.false => exact Or.inr (Or.inr rfl)
  all_goals
    simp only [forceFlushCommand] at hown ⊢
    (try cases exit) <;> (try split_ifs) <;>
      first
      | exact Or.inl trivial
      | exact Or.inr (Or.inl hown)
      | cases hown

omit [DecidableEq ι] [DecidableEq α] in
/-- A call that could not enqueue its request returns without an answer. -/
lemma failing_target {b : ForceFlushAct}
    (hfailing : (forceFlushCommand (ι := ι) (α := α) t b).source.failing = true) :
    (forceFlushCommand (ι := ι) (α := α) t b).target = .idle ∨
      (forceFlushCommand (ι := ι) (α := α) t b).target.failing = true := by
  rcases b with _ | _ | _ | _ | _ | ⟨_, _ | _⟩ | ⟨exit, _⟩ | ⟨exit, _⟩ | exit | exit | _ | _ | _ |
    _ | _ | _
  all_goals
    simp only [forceFlushCommand] at hfailing ⊢
    (try cases exit) <;> (try split_ifs) <;>
      first
      | exact Or.inl trivial
      | exact Or.inl rfl
      | exact Or.inr rfl
      | cases hfailing

omit [DecidableEq ι] [DecidableEq α] in
/-- `shutdown` keeps its deadline until the call returns. -/
lemma deadline_target {b : ShutdownAct} {pc : ShutdownPc}
    (hpc : (shutdownCommand (ι := ι) P b).source = .shutdown pc) :
    (shutdownCommand (ι := ι) P b).target = .idle ∨
      ∃ pc', (shutdownCommand (ι := ι) P b).target = .shutdown pc' ∧
        pc'.deadline = pc.deadline := by
  cases b <;> simp only [shutdownCommand] at hpc ⊢ <;> cases hpc <;> (try split_ifs) <;>
    first
    | exact Or.inl trivial
    | exact Or.inr ⟨_, rfl, rfl⟩

/-- A request that has missed its deadline is not answered `true` any more. -/
lemma Missed.of_step (hs : step P s a = some s₁) (hM : Missed request s) : Missed request s₁ where
  created := hM.created.trans_le (created_le_of_step hs)
  late := by
    rw [deadline_of_step hs hM.created]
    exact hM.late.trans_le (now_le_of_step hs)
  ok := by
    rw [← Bool.not_eq_true]
    intro hok
    rcases ok_of_step hs hok with hold | ⟨site, rfl⟩
    · rw [hM.ok] at hold
      cases hold
    · have hanswers := hM.answers
      rw [(step_worker_iff.mp hs).1] at hanswers
      simp [workerCommand, WorkerPc.answers] at hanswers
  answers := answers_of_step hs hM

/-- A call that cannot succeed any more still cannot as long as it goes on. -/
lemma Lost.of_step (hs : step P s a = some s₁) (hL : Lost t s) (hinside : s₁.pc t ≠ .idle) :
    Lost t s₁ := by
  have hnow := now_le_of_step hs
  by_cases ha : a.caller = some t
  · rcases hL with ⟨pc, hpc, hlate⟩ | ⟨request, hown, hM⟩ | hfailing
    · obtain ⟨b, -, hsource, htarget⟩ := exists_shutdown_of_caller hs hpc ha
      rcases deadline_target hsource with hidle | ⟨pc', hpc', hdeadline⟩
      · exact absurd (htarget.trans hidle) hinside
      · refine Or.inl ⟨pc', htarget.trans hpc', ?_⟩
        rw [hdeadline]
        exact hlate.trans_le hnow
    · obtain ⟨pc, hpc⟩ := forceFlush_of_ownRequest hown
      obtain ⟨b, -, hsource, htarget⟩ := exists_forceFlush_of_caller hs hpc ha
      rw [hpc, ← hsource] at hown
      rcases ownRequest_target hown with hidle | hown' | hfailing
      · exact absurd (htarget.trans hidle) hinside
      · exact Or.inr (Or.inl ⟨request, by rw [htarget]; exact hown', hM.of_step hs⟩)
      · exact Or.inr (Or.inr (by rw [htarget]; exact hfailing))
    · obtain ⟨pc, hpc⟩ := forceFlush_of_failing hfailing
      obtain ⟨b, -, hsource, htarget⟩ := exists_forceFlush_of_caller hs hpc ha
      rw [hpc, ← hsource] at hfailing
      rcases failing_target hfailing with hidle | hfailing'
      · exact absurd (htarget.trans hidle) hinside
      · exact Or.inr (Or.inr (by rw [htarget]; exact hfailing'))
  · have hpc := pc_of_caller_ne hs ha
    rcases hL with ⟨pc, hsource, hlate⟩ | ⟨request, hown, hM⟩ | hfailing
    · exact Or.inl ⟨pc, hpc.trans hsource, hlate.trans_le hnow⟩
    · exact Or.inr (Or.inl ⟨request, by rw [hpc]; exact hown, hM.of_step hs⟩)
    · exact Or.inr (Or.inr (by rw [hpc]; exact hfailing))

end GalayTracing
