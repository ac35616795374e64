import GalayTracing.BatchSpanProcessor.FlushBarrier
import GalayTracing.BatchSpanProcessor.ShutdownDrain

/-!
# No failure is invented

`forceFlush` and `shutdown` report a failure when the exporter has failed or when they are late, and
for no other reason.  As long as every answer of the exporter is positive, a local `ok` of the
worker turns `false` only when the clock has passed the deadline of the request it serves, and the
clock never goes back; so a flush request that is answered `false` is late,
`flush_failure_is_late`.  The shutdown drain has no deadline, so its result stays `true`, and a call
of `shutdown` that returns `false` is late itself, `shutdown_failure_is_late`.
-/

namespace GalayTracing

variable {ι α : Type}

/-- The step is not a negative answer of the exporter. -/
def answersWell : Act ι α → Bool
  | .worker (.exportReturn _ _ result) => result == .kSuccess
  | .worker (.flushReturn _ _ _ answer) | .worker (.finalFlushReturn _ answer) => answer
  | .shutdown _ (.exporterReturn _ _ answer) => answer
  | _ => true

/-- The request a drain serves, with the local `ok`. -/
def DrainSite.pendingAnswer (ok : Bool) : DrainSite → Option (ℕ × Bool)
  | .request _ id => some (id, ok)
  | .shutdown => none

@[inherit_doc DrainSite.pendingAnswer]
def PopSite.pendingAnswer : PopSite → Option (ℕ × Bool)
  | .ready _ => none
  | .drain site ok _ => site.pendingAnswer ok

/-- The request the worker serves, with the answer it is going to give if nothing fails from now
on. -/
def WorkerPc.pendingAnswer : WorkerPc ι α → Option (ℕ × Bool)
  | .popLoad site | .popDequeue site | .popRelease site _ | .callExport site _
  | .inExport site _ => site.pendingAnswer
  | .drainClock site ok | .drainEmpty site ok _ | .drainWait site ok | .drainClear site ok
  | .drainResult site ok => site.pendingAnswer ok
  | .callFlush _ request ok | .inFlush _ request ok | .storeOk _ request ok => some (request, ok)
  | _ => none

/-- The deadline of the request has passed. -/
def Late (sh : Shared ι α) (request : ℕ) : Prop := (sh.requests request).deadline < sh.now

lemma pendingAnswer_afterNone (site : PopSite) :
    (site.afterNone : WorkerPc ι α).pendingAnswer = site.pendingAnswer := by
  cases site <;> rfl

lemma pendingAnswer_afterExport_true (site : PopSite) :
    (site.afterExport true : WorkerPc ι α).pendingAnswer = site.pendingAnswer := by
  cases site <;> rfl

lemma pendingAnswer_afterRequests (P : Processor α) (any : Bool) (site : FlushSite) :
    (site.afterRequests P any : WorkerPc ι α).pendingAnswer = none := by
  cases site <;> simp only [FlushSite.afterRequests, ordinaryDrain] <;> (try split_ifs) <;> rfl

lemma pendingAnswer_afterDrain (P : Processor α) (ok : Bool) (site : DrainSite) :
    (site.afterDrain P ok : WorkerPc ι α).pendingAnswer = site.pendingAnswer ok := by
  cases site <;> simp only [DrainSite.afterDrain] <;> (try split_ifs) <;> rfl

variable [DecidableEq ι] [DecidableEq α] {P : Processor α} {s s' : State ι α}
  {h : List (Act ι α)} {t : ι} {request : ℕ}

/-! ### The answer of the worker -/

/-- The pending answer of the worker turns `false` only when the request is late. -/
lemma pendingAnswer_worker {a : WorkerAct ι α} (hs : step P s (.worker a) = some s')
    (hwell : answersWell (Act.worker (ι := ι) a) = true)
    (hanswer : s'.worker.pendingAnswer = some (request, false)) :
    s.worker.pendingAnswer = some (request, false) ∨ Late s.sh request := by
  obtain ⟨hsource, hg, rfl⟩ := step_worker_iff.mp hs
  rw [hsource]
  clear hs hsource
  cases a with
  | dequeueRequest site any caller r => cases hanswer
  | noRequest site any =>
    rw [show (workerCommand P (.noRequest site any)).target = site.afterRequests P any from rfl,
      pendingAnswer_afterRequests] at hanswer
    cases hanswer
  | popNone site =>
    refine Or.inl ?_
    rwa [show (workerCommand P (.popNone site)).target = site.afterNone from rfl,
      pendingAnswer_afterNone] at hanswer
  | popLoad site count =>
    refine Or.inl ?_
    simp only [workerCommand] at hanswer
    split_ifs at hanswer
    · rwa [pendingAnswer_afterNone] at hanswer
    · exact hanswer
  | popRelease site batch =>
    refine Or.inl ?_
    simp only [workerCommand] at hanswer
    split_ifs at hanswer
    · exact hanswer
    · rwa [pendingAnswer_afterExport_true] at hanswer
  | exportReturn site batch result =>
    obtain rfl : result = .kSuccess := beq_iff_eq.mp hwell
    refine Or.inl ?_
    rwa [show (workerCommand P (.exportReturn site batch .kSuccess)).target =
      site.afterExport true from rfl, pendingAnswer_afterExport_true] at hanswer
  | drainClock site ok value =>
    cases value <;> exact Or.inl hanswer
  | drainEmpty site ok any value =>
    cases value <;> cases any <;> exact Or.inl hanswer
  | drainResult site ok value =>
    rw [show (workerCommand P (.drainResult site ok value)).target = site.afterDrain P (ok && value)
      from rfl, pendingAnswer_afterDrain] at hanswer
    cases site with
    | shutdown => cases hanswer
    | request site r =>
      obtain ⟨rfl, hfalse⟩ := Prod.mk.inj (Option.some_inj.mp hanswer)
      cases value with
      | true => exact Or.inl (by rw [← hfalse, Bool.and_true]; rfl)
      | false =>
        have hlate : ¬s.sh.now ≤ (s.sh.requests r).deadline :=
          of_decide_eq_false (beq_iff_eq.mp hg)
        exact Or.inr (lt_of_not_ge hlate)
  | flushReturn site r ok answer =>
    obtain rfl : answer = true := hwell
    exact Or.inl hanswer
  | loadCount count | readyCount drainPartial count | readyEmpty value | loadActive ok count
  | exitEmpty ok value =>
    simp only [workerCommand] at hanswer
    split_ifs at hanswer <;> cases hanswer
  | _ => first | exact Or.inl hanswer | cases hanswer

/-- A request that was created stays late. -/
lemma Late.of_step {a : Act ι α} (hL : Late s.sh request) (hs : step P s a = some s')
    (hcreated : request < s.sh.created) : Late s'.sh request := by
  rw [Late, deadline_of_step hs hcreated]
  exact lt_of_lt_of_le hL (now_le_of_step hs)

omit [DecidableEq ι] [DecidableEq α] in
/-- The worker serves the request whose answer is pending. -/
lemma serving_of_pendingAnswer {pc : WorkerPc ι α} {ok : Bool}
    (hanswer : pc.pendingAnswer = some (request, ok)) : pc.serving = some request := by
  have hdrain : ∀ (site : DrainSite) (ok' : Bool), site.pendingAnswer ok' = some (request, ok) →
      site.serving = some request := by
    rintro (⟨site, r⟩ | _) ok' hsite
    · exact congrArg (Option.map Prod.fst) hsite
    · cases hsite
  have hpop : ∀ site : PopSite, site.pendingAnswer = some (request, ok) →
      site.serving = some request := by
    rintro (_ | ⟨site, ok', any⟩) hsite
    · cases hsite
    · exact hdrain site ok' hsite
  cases pc <;> first
    | exact hpop _ hanswer
    | exact hdrain _ _ hanswer
    | exact congrArg (Option.map Prod.fst) hanswer
    | cases hanswer

/-- As long as the exporter answers well, a pending answer is `false` only if the request is
late. -/
theorem late_of_pendingAnswer [Fintype ι] (hr : (system ι P).Run h s)
    (hwell : ∀ a ∈ h, answersWell a = true)
    (hanswer : s.worker.pendingAnswer = some (request, false)) : Late s.sh request := by
  induction hr using run_induction_worker with
  | nil => cases hanswer
  | outside h s s' a hr hs hother hf ih =>
    rw [hf.worker] at hanswer
    have hold := ih (fun b hb => hwell b (List.mem_append_left _ hb)) hanswer
    refine hold.of_step hs (lt_created_of_pending hr (pending_of_serving ?_))
    exact serving_of_pendingAnswer hanswer
  | worker h s s' a hr hs ih =>
    have hcreated : request < s'.sh.created :=
      lt_created_of_pending (run_step hr hs)
        (pending_of_serving (serving_of_pendingAnswer hanswer))
    rw [(worker_frame hs).created] at hcreated
    refine Late.of_step ?_ hs hcreated
    rcases pendingAnswer_worker hs (hwell _ (by simp)) hanswer with hold | hlate
    · exact ih (fun b hb => hwell b (List.mem_append_left _ hb)) hold
    · exact hlate

/-! ### The answer of a request -/

/-- The answer of the request has been stored, and the caller has not read it yet. -/
def Answered (request : ℕ) (s : State ι α) : Prop :=
  0 < (s.sh.requests request).done ∨ (∃ t, s.pc t = .forceFlush (.loadOk request)) ∨
    ∃ site, s.worker = .releaseDone site request

/-- A stored answer is right: the request was created, and is late if the answer is `false`. -/
def AnswerRight (request : ℕ) (s : State ι α) : Prop :=
  Answered request s → request < s.sh.created ∧
    ((s.sh.requests request).ok = false → Late s.sh request)

/-- A step that leaves the request, its caller and the worker alone keeps its answer right. -/
lemma AnswerRight.of_eq {a : Act ι α} (ih : AnswerRight request s) (hs : step P s a = some s')
    (hanswered : Answered request s' → Answered request s)
    (hok : request < s.sh.created →
      (s'.sh.requests request).ok = (s.sh.requests request).ok) : AnswerRight request s' := by
  intro hA
  obtain ⟨hcreated, hright⟩ := ih (hanswered hA)
  refine ⟨hcreated.trans_le (created_le_of_step hs), fun hfalse => ?_⟩
  exact (hright (hok hcreated ▸ hfalse)).of_step hs hcreated

/-- A thread that performs no operation of `forceFlush` does not come to read an answer. -/
lemma loadOk_of_step {a : Act ι α} (hs : step P s a = some s')
    (ha : ∀ t b, a ≠ .forceFlush t b) (hpc : s'.pc t = .forceFlush (.loadOk request)) :
    s.pc t = .forceFlush (.loadOk request) := by
  by_cases hcaller : a.caller = some t
  · obtain ⟨b, rfl⟩ := forceFlush_of_caller hs hcaller (Or.inr ⟨_, hpc⟩)
    exact absurd rfl (ha t b)
  · rwa [pc_of_caller_ne hs hcaller] at hpc

/-- `forceFlush` keeps the answers right: it reads an answer only after it has been released. -/
lemma AnswerRight.forceFlush {a : ForceFlushAct} (ih : AnswerRight request s)
    (hs : step P s (.forceFlush t a) = some s') : AnswerRight request s' := by
  have hworker := (forceFlush_frame hs).worker
  -- the caller that moves comes to read the answer by acquiring `done`
  have hreads : ∀ t', s'.pc t' = .forceFlush (.loadOk request) →
      s.pc t' = .forceFlush (.loadOk request) ∨ a = .acquireDone request := by
    intro t' hpc
    by_cases ht : t' = t
    · subst ht
      rw [forceFlush_pc_eq hs, Function.update_self] at hpc
      refine Or.inr ?_
      rcases a with _ | _ | _ | _ | _ | ⟨_, _ | _⟩ | ⟨_ | _ | _, _⟩ | ⟨_ | _ | _, _⟩ | _ |
        (_ | _ | _) | _ | _ | _ | r | _ | _
      case acquireDone =>
        obtain rfl : r = request := by simpa [forceFlushCommand] using hpc
        rfl
      all_goals
        simp only [forceFlushCommand, FlushExit.next] at hpc
        (try split_ifs at hpc) <;> cases hpc
    · rw [(forceFlush_frame hs).others t' ht] at hpc
      exact Or.inl hpc
  have hcreate := (step_forceFlush_iff.mp hs).2.1
  have hupdate : s'.sh = (forceFlushCommand (α := α) t a).update s.sh := by
    obtain ⟨-, -, rfl⟩ := step_forceFlush_iff.mp hs
    rfl
  refine ih.of_eq hs ?_ fun hcreated => ?_
  · rintro (hdone | ⟨t', hpc⟩ | ⟨site, hw⟩)
    · refine Or.inl ?_
      rw [hupdate] at hdone
      rcases a with _ | _ | _ | _ | ⟨timeout, r⟩ | ⟨_, _ | _⟩ | _ | _ | _ | _ | _ | _ | _ | r | _ | _
      case create =>
        simp only [forceFlushCommand] at hdone
        by_cases heq : request = r
        · rw [heq, Function.update_self] at hdone
          exact absurd hdone (lt_irrefl 0)
        · rwa [Function.update_of_ne heq] at hdone
      case acquireDone =>
        simp only [forceFlushCommand] at hdone
        by_cases heq : request = r
        · rw [heq, Function.update_self] at hdone
          rw [heq]
          exact Nat.lt_of_lt_of_le hdone (Nat.sub_le _ _)
        · rwa [Function.update_of_ne heq] at hdone
      all_goals exact hdone
    · rcases hreads t' hpc with hold | rfl
      · exact Or.inr (Or.inl ⟨t', hold⟩)
      · exact Or.inl (of_decide_eq_true hcreate)
    · exact Or.inr (Or.inr ⟨site, hworker ▸ hw⟩)
  · rw [hupdate]
    rcases a with _ | _ | _ | _ | ⟨timeout, r⟩ | ⟨_, _ | _⟩ | _ | _ | _ | _ | _ | _ | _ | r | _ | _
    case create =>
      have hr : s.sh.created = r := beq_iff_eq.mp hcreate
      simp only [forceFlushCommand]
      rw [Function.update_of_ne (by omega)]
    case acquireDone =>
      simp only [forceFlushCommand]
      by_cases heq : request = r
      · rw [heq, Function.update_self]
      · rw [Function.update_of_ne heq]
    all_goals rfl

/-- The worker keeps the answers right: it stores a pending answer, and releases `done` after
that. -/
lemma AnswerRight.worker [Fintype ι] {a : WorkerAct ι α} (hr : (system ι P).Run h s)
    (hwell : ∀ a ∈ h, answersWell a = true) (ih : AnswerRight request s)
    (hs : step P s (.worker a) = some s') : AnswerRight request s' := by
  have hpc := (worker_frame hs).pc
  by_cases hstore : ∃ site ok, a = .storeOk site request ok
  · obtain ⟨site, ok, rfl⟩ := hstore
    obtain ⟨hsource, -, hs'⟩ := step_worker_iff.mp hs
    have hcreated : request < s.sh.created :=
      lt_created_of_pending hr (pending_of_serving (by rw [hsource]; rfl))
    intro _
    refine ⟨hcreated.trans_le (created_le_of_step hs), fun hfalse => ?_⟩
    have hok : (s'.sh.requests request).ok = ok := by
      rw [hs']
      simp only [workerCommand, Function.update_self]
    refine (late_of_pendingAnswer hr hwell ?_).of_step hs hcreated
    rw [hsource, ← hfalse, hok]
    rfl
  · have hupdate : s'.sh = (workerCommand P a).update s.sh ∧
        s'.worker = (workerCommand P a).target := by
      obtain ⟨-, -, rfl⟩ := step_worker_iff.mp hs
      exact ⟨rfl, rfl⟩
    refine ih.of_eq hs ?_ fun _ => ?_
    · rintro (hdone | ⟨t', hpc'⟩ | ⟨site, hw⟩)
      · rw [hupdate.1] at hdone
        cases a with
        | storeOk site r ok =>
          refine Or.inl ?_
          simp only [workerCommand] at hdone
          by_cases heq : request = r
          · exact absurd ⟨site, ok, by rw [heq]⟩ hstore
          · rwa [Function.update_of_ne heq] at hdone
        | releaseDone site r =>
          by_cases heq : request = r
          · exact Or.inr (Or.inr ⟨site, heq ▸ (step_worker_iff.mp hs).1⟩)
          · simp only [workerCommand] at hdone
            rw [Function.update_of_ne heq] at hdone
            exact Or.inl hdone
        | _ => exact Or.inl hdone
      · exact Or.inr (Or.inl ⟨t', hpc ▸ hpc'⟩)
      · rw [hupdate.2] at hw
        cases a with
        | storeOk site' r ok =>
          obtain ⟨rfl, rfl⟩ := WorkerPc.releaseDone.inj hw
          exact absurd ⟨site', ok, rfl⟩ hstore
        | noRequest site' any =>
          cases site' <;> simp only [workerCommand, FlushSite.afterRequests, ordinaryDrain] at hw
          all_goals (try split_ifs at hw) <;> cases hw
        | popLoad site' count =>
          simp only [workerCommand] at hw
          cases site' <;> split_ifs at hw <;> cases hw
        | popNone site' => cases site' <;> cases hw
        | popRelease site' batch =>
          simp only [workerCommand] at hw
          cases site' <;> split_ifs at hw <;> cases hw
        | exportReturn site' batch result => cases site' <;> cases hw
        | drainResult site' ok value =>
          cases site' <;> simp only [workerCommand, DrainSite.afterDrain] at hw
          all_goals (try split_ifs at hw) <;> cases hw
        | _ =>
          simp only [workerCommand] at hw
          (try split_ifs at hw) <;> cases hw
    · rw [hupdate.1]
      cases a with
      | storeOk site r ok =>
        simp only [workerCommand]
        by_cases heq : request = r
        · exact absurd ⟨site, ok, by rw [heq]⟩ hstore
        · rw [Function.update_of_ne heq]
      | releaseDone site r =>
        simp only [workerCommand]
        by_cases heq : request = r
        · rw [heq, Function.update_self]
        · rw [Function.update_of_ne heq]
      | _ => rfl

/-- As long as the exporter answers well, every stored answer is right. -/
theorem answerRight_of_run [Fintype ι] (hr : (system ι P).Run h s)
    (hwell : ∀ a ∈ h, answersWell a = true) (request : ℕ) : AnswerRight request s := by
  induction hr using run_induction with
  | nil => rintro (hdone | ⟨t, hpc⟩ | ⟨site, hw⟩) <;> first | cases hdone | cases hpc | cases hw
  | onEnd h s s' t a hr hs ih =>
    have hf := onEnd_frame hs
    refine (ih fun b hb => hwell b (List.mem_append_left _ hb)).of_eq hs ?_ fun _ => ?_
    · rintro (hdone | ⟨t', hpc⟩ | ⟨site, hw⟩)
      · exact Or.inl (hf.requests ▸ hdone)
      · exact Or.inr (Or.inl ⟨t', loadOk_of_step hs (by rintro _ _ ⟨⟩) hpc⟩)
      · exact Or.inr (Or.inr ⟨site, hf.worker ▸ hw⟩)
    · rw [hf.requests]
  | forceFlush h s s' t a hr hs ih =>
    exact (ih fun b hb => hwell b (List.mem_append_left _ hb)).forceFlush hs
  | shutdown h s s' t a hr hs ih =>
    have hf := shutdown_frame hs
    refine (ih fun b hb => hwell b (List.mem_append_left _ hb)).of_eq hs ?_ fun _ => ?_
    · rintro (hdone | ⟨t', hpc⟩ | ⟨site, hw⟩)
      · exact Or.inl (hf.requests ▸ hdone)
      · exact Or.inr (Or.inl ⟨t', loadOk_of_step hs (by rintro _ _ ⟨⟩) hpc⟩)
      · exact Or.inr (Or.inr ⟨site, hf.worker ▸ hw⟩)
    · rw [hf.requests]
  | worker h s s' a hr hs ih =>
    have hwell' : ∀ b ∈ h, answersWell b = true := fun b hb => hwell b (List.mem_append_left _ hb)
    exact AnswerRight.worker hr hwell' (ih hwell') hs
  | tick h s s' now hr hs ih =>
    refine (ih fun b hb => hwell b (List.mem_append_left _ hb)).of_eq hs ?_ fun _ => ?_ <;>
      obtain ⟨-, rfl⟩ := step_tick_iff.mp hs
    · exact id
    · rfl

/-- No flush failure is invented: as long as the exporter answers well, a completed flush request
that is answered `false` is late. -/
theorem flush_failure_is_late [Fintype ι] (hwell : ∀ a ∈ h, answersWell a = true)
    (hr : (system ι P).Run (h ++ [.forceFlush t (.loadOk request false)]) s) :
    (s.sh.requests request).deadline < s.sh.now := by
  obtain ⟨s₀, hr₀, hs⟩ := run_step_iff.mp hr
  obtain ⟨hpc, hok, -⟩ := step_forceFlush_iff.mp hs
  obtain ⟨hcreated, hright⟩ :=
    answerRight_of_run hr₀ hwell request (Or.inr (Or.inl ⟨t, hpc⟩))
  exact (hright (beq_iff_eq.mp hok)).of_step hs hcreated

/-- The worker finds the deadline of a request passed before it has looked at the queue. -/
def lateFlush : List (Act Thread ℕ) :=
  [.forceFlush .t₁ (.call 1), .forceFlush .t₁ (.announce 1),
    .forceFlush .t₁ (.loadShutdown 1 false), .forceFlush .t₁ (.loadStopped 1 false),
    .forceFlush .t₁ (.create 1 0),
    .forceFlush .t₁ (.enqueue 0 true), .worker .waitTimeout, .worker (.loadShutdown true false),
    .worker (.dequeueRequest (.head true false) false .t₁ 0), .tick 1000001,
    .worker (.drainClock (.request (.head true false) 0) true false),
    .worker (.drainResult (.request (.head true false) 0) true false),
    .worker (.callFlush (.head true false) 0 false 0),
    .worker (.flushReturn (.head true false) 0 false true),
    .worker (.storeOk (.head true false) 0 false), .worker (.releaseDone (.head true false) 0),
    .forceFlush .t₁ (.leave (.queued 0) 1), .forceFlush .t₁ (.leaveLoad (.queued 0) false),
    .forceFlush .t₁ (.notifyStore 0), .forceFlush .t₁ (.notifyRelease 0),
    .forceFlush .t₁ (.acquireDone 0)]

/-- The request of that call is late when it is answered. -/
theorem flush_failure_is_late_lateFlush :
    ∃ s, (system Thread (smallProcessor .kTimed 1 1)).Run
      (lateFlush ++ [.forceFlush .t₁ (.loadOk 0 false)]) s ∧
        (s.sh.requests 0).deadline < s.sh.now := by
  obtain ⟨s, hr, -⟩ := Lts.exists_run_of_any (L := system Thread (smallProcessor .kTimed 1 1))
    (h := lateFlush ++ [.forceFlush .t₁ (.loadOk 0 false)]) (p := fun _ => true) (by decide)
  exact ⟨s, hr, flush_failure_is_late (by decide) hr⟩

/-! ### The answer of `shutdown` -/

omit [DecidableEq ι] [DecidableEq α] in
/-- An exporter that answers well spoils no result. -/
lemma not_spoils_of_answersWell {a : WorkerAct ι α}
    (hwell : answersWell (Act.worker (ι := ι) a) = true) : a.spoils = false := by
  cases a with
  | exportReturn site batch result =>
    obtain rfl : result = .kSuccess := beq_iff_eq.mp hwell
    rcases site with _ | ⟨_ | _, _, _⟩ <;> rfl
  | finalFlushReturn ok answer =>
    obtain rfl : answer = true := hwell
    rfl
  | _ => rfl

/-- As long as the exporter answers well, the result of the shutdown drain is good, before and after
it is stored. -/
theorem drainOk_of_answersWell (hr : (system ι P).Run h s)
    (hwell : ∀ a ∈ h, answersWell a = true) :
    reportedOk s = true ∧ s.sh.shutdownDrainOk = true := by
  induction hr using run_induction_worker with
  | nil => exact ⟨rfl, rfl⟩
  | outside h s s' a hr hs hother hf ih =>
    rw [reportedOk, hf.worker, hf.shutdownDrainOk]
    exact ih fun b hb => hwell b (List.mem_append_left _ hb)
  | worker h s s' a hr hs ih =>
    obtain ⟨hreported, hstored⟩ := ih fun b hb => hwell b (List.mem_append_left _ hb)
    refine ⟨reportedOk_worker (now_le_of_run hr) hs hreported
      (not_spoils_of_answersWell (hwell _ (by simp))), ?_⟩
    obtain ⟨hsource, -, rfl⟩ := step_worker_iff.mp hs
    cases a with
    | storeDrainOk ok =>
      rw [reportedOk, hsource] at hreported
      exact hreported
    | _ => exact hstored

/-- The deadline of a caller of `shutdown` that is going to report a failure. -/
def CallerPc.failingDeadline : CallerPc α → Option ℤ
  | .shutdown (.loadDrainOk deadline false) | .shutdown (.claimExporter deadline false)
  | .shutdown (.callExporter deadline false) | .shutdown (.inExporter deadline false)
  | .shutdown (.readClock deadline false) => some deadline
  | _ => none

/-- What is known of the callers of `shutdown` while the exporter answers well: one that has given
up waiting for the worker, or is going to report a failure, is late. -/
structure OnlyLate (s : State ι α) : Prop where
  waiting : ∀ t deadline, s.pc t = .shutdown (.loadStopped deadline) →
    s.sh.workerStopped = true ∨ deadline < s.sh.now
  failing : ∀ t deadline, (s.pc t).failingDeadline = some deadline → deadline < s.sh.now

/-- A caller of `shutdown` gets to report a failure only when it is late. -/
lemma OnlyLate.shutdown {a : ShutdownAct} (hO : OnlyLate s)
    (hstored : s.sh.shutdownDrainOk = true)
    (hwell : answersWell (Act.shutdown (α := α) t a) = true)
    (hs : step P s (.shutdown t a) = some s') :
    (∀ deadline, s'.pc t = .shutdown (.loadStopped deadline) →
      s.sh.workerStopped = true ∨ deadline < s.sh.now) ∧
    ∀ deadline, (s'.pc t).failingDeadline = some deadline → deadline < s.sh.now := by
  obtain ⟨hsource, hg, -⟩ := step_shutdown_iff.mp hs
  have hfailing := hO.failing t
  rw [hsource] at hfailing
  rw [shutdown_pc_eq hs, Function.update_self]
  cases a with
  | waitStopped d value =>
    refine ⟨fun deadline hpc => ?_, fun deadline hpc => ?_⟩
    · cases value with
      | true => exact Or.inl (beq_iff_eq.mp hg)
      | false => cases hpc
    · cases value <;> cases hpc
  | waitClock d value =>
    refine ⟨fun deadline hpc => ?_, fun deadline hpc => ?_⟩
    · cases value with
      | true => cases hpc
      | false =>
        obtain ⟨rfl⟩ : d = deadline := by simpa [shutdownCommand] using hpc
        exact Or.inr (lt_of_not_ge (of_decide_eq_false (beq_iff_eq.mp hg)))
    · cases value <;> cases hpc
  | loadStopped d value =>
    refine ⟨fun deadline hpc => (by cases hpc), fun deadline hpc => ?_⟩
    cases value with
    | true => cases hpc
    | false =>
      obtain rfl : d = deadline := Option.some_inj.mp hpc
      refine (hO.waiting t d hsource).resolve_left fun hstopped => ?_
      exact Bool.noConfusion (hstopped.symm.trans (beq_iff_eq.mp hg))
  | loadDrainOk d ok value =>
    obtain rfl : true = value := hstored.symm.trans (beq_iff_eq.mp hg)
    refine ⟨fun deadline hpc => ?_, fun deadline hpc => hfailing deadline ?_⟩
    · simp only [shutdownCommand] at hpc
      split_ifs at hpc <;> cases hpc
    · simp only [shutdownCommand] at hpc
      cases ok <;> split_ifs at hpc <;> exact hpc
  | claimExporter d ok old =>
    refine ⟨fun deadline hpc => ?_, fun deadline hpc => hfailing deadline ?_⟩
    · simp only [shutdownCommand] at hpc
      split_ifs at hpc <;> cases hpc
    · simp only [shutdownCommand] at hpc
      cases ok <;> split_ifs at hpc <;> exact hpc
  | callExporter d ok =>
    refine ⟨fun deadline hpc => (by cases hpc), fun deadline hpc => hfailing deadline ?_⟩
    cases ok <;> exact hpc
  | exporterReturn d ok answer =>
    obtain rfl : answer = true := hwell
    refine ⟨fun deadline hpc => (by cases hpc), fun deadline hpc => hfailing deadline ?_⟩
    cases ok <;> exact hpc
  | claimJoin d old =>
    refine ⟨fun deadline hpc => ?_, fun deadline hpc => ?_⟩ <;>
      simp only [shutdownCommand] at hpc <;> split_ifs at hpc <;> cases hpc
  | _ => exact ⟨fun deadline hpc => (by cases hpc), fun deadline hpc => (by cases hpc)⟩

/-- As long as the exporter answers well, only a late caller of `shutdown` reports a failure. -/
theorem onlyLate_of_run (hr : (system ι P).Run h s) (hwell : ∀ a ∈ h, answersWell a = true) :
    OnlyLate s := by
  induction hr using run_induction_step with
  | nil => exact ⟨fun _ _ hpc => (by cases hpc), fun _ _ hpc => (by cases hpc)⟩
  | concat h a s s' hr hs ih =>
    have hwell' : ∀ b ∈ h, answersWell b = true := fun b hb => hwell b (List.mem_append_left _ hb)
    have hO := ih hwell'
    have hnow := now_le_of_step hs
    have hlocal : ∀ t, (∀ deadline, s'.pc t = .shutdown (.loadStopped deadline) →
        s.sh.workerStopped = true ∨ deadline < s.sh.now) ∧
        ∀ deadline, (s'.pc t).failingDeadline = some deadline → deadline < s.sh.now := by
      intro t
      by_cases hcaller : a.caller = some t
      · rcases a with ⟨t', b⟩ | ⟨t', b⟩ | ⟨t', b⟩ | b | now <;> cases hcaller
        · obtain ⟨-, hidle | ⟨p, hp⟩⟩ := onEnd_pc hs
          · rw [hidle]; exact ⟨fun _ hpc => (by cases hpc), fun _ hpc => (by cases hpc)⟩
          · rw [hp]; exact ⟨fun _ hpc => (by cases hpc), fun _ hpc => (by cases hpc)⟩
        · obtain ⟨-, hidle | ⟨p, hp⟩⟩ := forceFlush_pc hs
          · rw [hidle]; exact ⟨fun _ hpc => (by cases hpc), fun _ hpc => (by cases hpc)⟩
          · rw [hp]; exact ⟨fun _ hpc => (by cases hpc), fun _ hpc => (by cases hpc)⟩
        · exact hO.shutdown (drainOk_of_answersWell hr hwell').2 (hwell _ (by simp)) hs
      · rw [pc_of_caller_ne hs hcaller]
        exact ⟨hO.waiting t, hO.failing t⟩
    refine ⟨fun t deadline hpc => ?_, fun t deadline hpc => ?_⟩
    · exact ((hlocal t).1 deadline hpc).imp (workerStopped_mono hs) fun hlate =>
        lt_of_lt_of_le hlate hnow
    · exact lt_of_lt_of_le ((hlocal t).2 deadline hpc) hnow

/-- No shutdown failure is invented: as long as the exporter answers well, a call of `shutdown` that
returns `false` is late. -/
theorem shutdown_failure_is_late {deadline : ℤ} {ok inTime : Bool}
    (hwell : ∀ a ∈ h, answersWell a = true) (hfailed : (ok && inTime) = false)
    (hr : (system ι P).Run (h ++ [.shutdown t (.ret deadline ok inTime)]) s) :
    deadline < s.sh.now := by
  obtain ⟨s₀, hr₀, hs⟩ := run_step_iff.mp hr
  obtain ⟨hpc, hclock, -⟩ := step_shutdown_iff.mp hs
  rw [(shutdown_frame hs).now]
  cases ok with
  | false => exact (onlyLate_of_run hr₀ hwell).failing t deadline (by rw [hpc]; rfl)
  | true =>
    obtain rfl : inTime = false := hfailed
    exact lt_of_not_ge (of_decide_eq_false (beq_iff_eq.mp hclock))

/-- A shutdown that joins the worker in time, but returns late. -/
theorem shutdown_failure_is_late_lateShutdown :
    ∃ s, (system Thread (smallProcessor .kTimed 1 1)).Run
      ((plainShutdown.take 26 ++ [.tick 1000001]) ++
        [.shutdown .t₁ (.ret 1000000 true false)]) s ∧ 1000000 < s.sh.now := by
  obtain ⟨s, hr, -⟩ := Lts.exists_run_of_any (L := system Thread (smallProcessor .kTimed 1 1))
    (h := (plainShutdown.take 26 ++ [.tick 1000001]) ++ [.shutdown .t₁ (.ret 1000000 true false)])
    (p := fun _ => true) (by decide)
  exact ⟨s, hr, shutdown_failure_is_late (by decide) rfl hr⟩

end GalayTracing
