import GalayTracing.BatchSpanProcessor.Deadlines

/-!
# The same call with a longer timeout

A call that succeeds never finds its deadline passed, since the clock does not go back.  Hence all
its comparisons of the clock with the deadline come out the same if the deadline is later, and the
whole call can be performed with the longer timeout, `exists_longer`: the steps of the two calls are
the same up to the timeouts, deadlines and remaining times they carry.
-/

namespace GalayTracing

variable {ι α : Type} [DecidableEq ι] [DecidableEq α] {P : Processor α}
  {s s' s₁ : State ι α} {a : Act ι α} {h rest : List (Act ι α)} {sh : Shared ι α} {t : ι}
  {request : ℕ} {deadline timeout : ℤ}

/-! ### Calls that succeed -/

/-- With the step, a call of thread `t` returns `true`. -/
def Act.succeeds (t : ι) : Act ι α → Bool
  | .forceFlush t' (.loadOk _ value) | .forceFlush t' (.readEmpty value) => decide (t' = t) && value
  | .shutdown t' (.ret _ ok inTime) => decide (t' = t) && (ok && inTime)
  | _ => false

/-- A caller that returns `true` from `shutdown` has not reached its deadline, one that returns it
from its request has been answered. -/
lemma not_lost_of_succeeds (hs : step P s a = some s₁) (ha : a.succeeds t = true) : ¬Lost t s := by
  rcases a with _ | ⟨t', b⟩ | ⟨t', b⟩ | _ | _
  case forceFlush =>
    obtain ⟨hpc, hg, -⟩ := step_forceFlush_iff.mp hs
    cases b with
    | loadOk r value =>
      obtain ⟨ht, rfl⟩ := Bool.and_eq_true_iff.mp ha
      obtain rfl : t' = t := of_decide_eq_true ht
      rw [Lost, hpc]
      rintro (⟨pc, hpc', -⟩ | ⟨request, hown, hM⟩ | hfailing)
      · cases hpc'
      · obtain rfl : r = request := Option.some_inj.mp hown
        have hok : (s.sh.requests r).ok = true := beq_iff_eq.mp hg
        rw [hM.ok] at hok
        cases hok
      · cases hfailing
    | readEmpty value =>
      obtain ⟨ht, rfl⟩ := Bool.and_eq_true_iff.mp ha
      obtain rfl : t' = t := of_decide_eq_true ht
      rw [Lost, hpc]
      rintro (⟨pc, hpc', -⟩ | ⟨request, hown, -⟩ | hfailing)
      · cases hpc'
      · cases hown
      · cases hfailing
    | _ => cases ha
  case shutdown =>
    obtain ⟨hpc, hg, -⟩ := step_shutdown_iff.mp hs
    cases b with
    | ret deadline ok inTime =>
      obtain ⟨ht, hanswer⟩ := Bool.and_eq_true_iff.mp ha
      obtain ⟨-, rfl⟩ := Bool.and_eq_true_iff.mp hanswer
      obtain rfl : t' = t := of_decide_eq_true ht
      have hnow : s.sh.now ≤ deadline := of_decide_eq_true (beq_iff_eq.mp hg)
      rw [Lost, hpc]
      rintro (⟨pc, hpc', hlate⟩ | ⟨request, hown, -⟩ | hfailing)
      · cases hpc'
        exact absurd hnow (not_le.mpr hlate)
      · cases hown
      · cases hfailing
    | _ => cases ha
  all_goals cases ha

/-- What is to come is the rest of a call of thread `t`, which is inside it at all steps and
returns `true` with the last one. -/
structure Succeeding (P : Processor α) (t : ι) (s : State ι α) (h : List (Act ι α)) : Prop where
  /-- The steps can be performed. -/
  enabled : ((system ι P).exec s h).isSome = true
  /-- The thread is inside the call. -/
  inside : (system ι P).meetsFrom (fun s _ => decide (s.pc t ≠ .idle)) s h = true
  /-- The call succeeds with the last step. -/
  succeeds : (h.getLast?.any fun a => a.succeeds t) = true

/-- The next step of a call is enabled. -/
lemma Succeeding.step (hC : Succeeding P t s (a :: h)) :
    ∃ s₁ e, GalayTracing.step P s a = some s₁ ∧ (system ι P).exec s₁ h = some e := by
  obtain ⟨e, hexec⟩ := Option.isSome_iff_exists.mp hC.enabled
  obtain ⟨s₁, hs, hexec⟩ := Option.bind_eq_some_iff.mp hexec
  exact ⟨s₁, e, hs, hexec⟩

/-- The thread is inside the call. -/
lemma Succeeding.ne_idle (hC : Succeeding P t s (a :: h)) : s.pc t ≠ .idle :=
  of_decide_eq_true (Bool.and_eq_true_iff.mp hC.inside).1

/-- What is to come after the next step. -/
lemma Succeeding.tail {b : Act ι α} (hC : Succeeding P t s (a :: b :: h))
    (hs : GalayTracing.step P s a = some s₁) : Succeeding P t s₁ (b :: h) where
  enabled := by
    obtain ⟨s₂, e, hs₂, hexec⟩ := hC.step
    obtain rfl : s₁ = s₂ := Option.some_inj.mp (hs.symm.trans hs₂)
    rw [hexec]
    rfl
  inside := by
    have hall := (Bool.and_eq_true_iff.mp hC.inside).2
    rw [Option.all_eq_true] at hall
    exact hall s₁ hs
  succeeds := by
    rw [← List.getLast?_cons_cons]
    exact hC.succeeds

/-- A call that succeeds does not miss its deadline. -/
lemma Succeeding.not_lost (hC : Succeeding P t s h) : ¬Lost t s := by
  induction h generalizing s with
  | nil => cases hC.succeeds
  | cons a h ih =>
    obtain ⟨s₁, e, hs, hexec⟩ := hC.step
    cases h with
    | nil => exact not_lost_of_succeeds hs hC.succeeds
    | cons b h =>
      have hC₁ := hC.tail hs
      intro hL
      exact ih hC₁ (hL.of_step hs hC₁.ne_idle)

/-! ### The request is served once -/

/-- A request is answered when its flag `ok` is set. -/
lemma released_of_ok (hr : (system ι P).Run h s) (hok : (s.sh.requests request).ok = true) :
    (∃ site, s.worker = .releaseDone site request) ∨ 1 ≤ releasedCount request h := by
  induction hr using run_induction_step with
  | nil => cases hok
  | concat h a s s' hr hs ih =>
    rw [releasedCount_append]
    rcases ok_of_step hs hok with hold | ⟨site, rfl⟩
    · rcases ih hold with ⟨site, hworker⟩ | hreleased
      · rcases a with ⟨t, a⟩ | ⟨t, a⟩ | ⟨t, a⟩ | a | now
        · exact Or.inl ⟨site, (onEnd_frame hs).worker.trans hworker⟩
        · exact Or.inl ⟨site, (forceFlush_frame hs).worker.trans hworker⟩
        · exact Or.inl ⟨site, (shutdown_frame hs).worker.trans hworker⟩
        · have hsource := (step_worker_iff.mp hs).1.symm.trans hworker
          cases a <;> cases hsource
          refine Or.inr (le_trans ?_ (Nat.le_add_left _ _))
          simp [releasedCount]
        · obtain ⟨-, rfl⟩ := step_tick_iff.mp hs
          exact Or.inl ⟨site, hworker⟩
      · exact Or.inr (hreleased.trans (Nat.le_add_right _ _))
    · obtain ⟨-, -, rfl⟩ := step_worker_iff.mp hs
      exact Or.inl ⟨site, rfl⟩

/-- A request that the worker drains for has not been answered. -/
lemma ok_eq_false_of_serving [Fintype ι] (hr : (system ι P).Run h s)
    (hserving : s.worker.serving = some request)
    (hdone : ∀ site, s.worker ≠ .releaseDone site request) :
    (s.sh.requests request).ok = false := by
  rw [← Bool.not_eq_true]
  intro hok
  rcases released_of_ok hr hok with ⟨site, hworker⟩ | hreleased
  · exact hdone site hworker
  · have henqueued := enqueuedCount_eq_of_run hr request
    have honce := (enqueuedOnce_of_run hr request).2
    have hpending := pending_of_serving hserving
    omega

/-- A step that compares the clock with the deadline is taken while the worker drains. -/
lemma worker_of_testsDeadline (hs : step P s a = some s₁) (ha : a.testsDeadline request = true) :
    s.worker.serving = some request ∧ (∀ site, s.worker ≠ .releaseDone site request) ∧
      s.worker.answers request = false := by
  rcases a with ⟨t', b⟩ | ⟨t', b⟩ | ⟨t', b⟩ | b | now
  case worker =>
    rw [(step_worker_iff.mp hs).1]
    cases b with
    | drainClock site ok value => exact ⟨beq_iff_eq.mp ha, nofun, rfl⟩
    | drainResult site ok value => exact ⟨beq_iff_eq.mp ha, nofun, rfl⟩
    | _ => cases ha
  all_goals cases ha

/-! ### The same call with a longer timeout -/

/-- The state of a call of thread `t` with some timeout, and the state of the same call with the
timeout `timeout`; the clock reads `now` when the deadline is computed. -/
inductive Longer (t : ι) (now timeout : ℤ) : State ι α → State ι α → Prop
  /-- The timeout does not matter any more. -/
  | same (s : State ι α) : Longer t now timeout s s
  /-- `forceFlush` has not yet constructed the request. -/
  | announced (s : State ι α) {pc : ForceFlushPc} {timeout₀ : ℤ} (hpc : s.pc t = .forceFlush pc)
      (htimeout : pc.timeout = some timeout₀) (hnonneg : 0 ≤ timeout₀) (hle : timeout₀ ≤ timeout) :
      Longer t now timeout s (s.moveTo t (.forceFlush (pc.withTimeout timeout)))
  /-- `forceFlush` has constructed the request. -/
  | requested (s : State ι α) {request : ℕ} (hown : (s.pc t).ownRequest = some request)
      (hcreated : request < s.sh.created)
      (hle : (s.sh.requests request).deadline ≤ deadlineAfter now timeout) :
      Longer t now timeout s (withDeadline request (deadlineAfter now timeout) s)
  /-- `shutdown` has computed its deadline. -/
  | closing (s : State ι α) {pc : ShutdownPc} (hpc : s.pc t = .shutdown pc)
      (hle : pc.deadline ≤ deadlineAfter now timeout) :
      Longer t now timeout s
        (s.moveTo t (.shutdown (pc.withDeadline (deadlineAfter now timeout))))

/-- The step computes the deadline of the request of thread `t`. -/
def Act.computesRequest (t : ι) : Act ι α → Bool
  | .forceFlush t' (.create _ _) => decide (t' = t)
  | _ => false

/-- The step of the other call that corresponds to a step, unless the call has returned or cannot
succeed any more. -/
def Follows (P : Processor α) (t : ι) (now timeout : ℤ) (a : Act ι α) (s₁ s' : State ι α) : Prop :=
  ∃ a' s₁', step P s' a' = some s₁' ∧ a'.untimed = a.untimed ∧
    (s₁.pc t = .idle ∨ Lost t s₁ ∨ Longer t now timeout s₁ s₁')

variable {now timeout₀ : ℤ}

omit [DecidableEq α] in
/-- A thread that is moved to where it stands does not move. -/
lemma moveTo_pc {p : CallerPc α} (hp : s.pc t = p) : s.moveTo t p = s := by
  rw [Pool.moveTo, ← hp, Function.update_eq_self]

omit [DecidableEq α] in
lemma longer_of_eq (heq : s' = s) : Longer t now timeout s s' := by
  rw [heq]
  exact .same s

/-- Before the request is constructed, the timeout is only handed on. -/
lemma follows_of_announced {pc : ForceFlushPc} (hs : step P s a = some s₁)
    (hpc : s.pc t = .forceFlush pc) (htimeout : pc.timeout = some timeout₀) (hnonneg : 0 ≤ timeout₀)
    (hle : timeout₀ ≤ timeout) (hnow : a.computesRequest t = true → s.sh.now = now)
    (hmono : deadlineAfter now timeout₀ ≤ deadlineAfter now timeout) :
    Follows P t now timeout a s₁ (s.moveTo t (.forceFlush (pc.withTimeout timeout))) := by
  by_cases ha : a.caller = some t
  · obtain ⟨b, rfl, hsource, htarget⟩ := exists_forceFlush_of_caller hs hpc ha
    have hg := (step_forceFlush_iff.mp hs).2.1
    cases b with
    | announce timeout₁ =>
      cases hsource
      obtain rfl : timeout₁ = timeout₀ := Option.some_inj.mp htimeout
      refine ⟨.forceFlush t (.announce timeout), _,
        Pool.threadStep_moveTo_self (forceFlushCommand t (.announce timeout)) hs hg rfl, rfl, ?_⟩
      exact Or.inr (Or.inr (.announced s₁ htarget rfl hnonneg hle))
    | loadShutdown timeout₁ value =>
      cases hsource
      obtain rfl : timeout₁ = timeout₀ := Option.some_inj.mp htimeout
      refine ⟨.forceFlush t (.loadShutdown timeout value), _,
        Pool.threadStep_moveTo_self (forceFlushCommand t (.loadShutdown timeout value)) hs hg rfl,
        rfl, ?_⟩
      cases value with
      | true => exact Or.inr (Or.inr (longer_of_eq (moveTo_pc htarget)))
      | false => exact Or.inr (Or.inr (.announced s₁ htarget rfl hnonneg hle))
    | loadStopped timeout₁ value =>
      cases hsource
      obtain rfl : timeout₁ = timeout₀ := Option.some_inj.mp htimeout
      refine ⟨.forceFlush t (.loadStopped timeout value), _,
        Pool.threadStep_moveTo_self (forceFlushCommand t (.loadStopped timeout value)) hs hg rfl,
        rfl, ?_⟩
      cases value with
      | true => exact Or.inr (Or.inr (longer_of_eq (moveTo_pc htarget)))
      | false => exact Or.inr (Or.inr (.announced s₁ htarget rfl hnonneg hle))
    | create timeout₁ r =>
      cases hsource
      obtain rfl : timeout₁ = timeout₀ := Option.some_inj.mp htimeout
      have hcreated : s.sh.created = r := beq_iff_eq.mp hg
      have hnow' : s.sh.now = now := hnow (decide_eq_true rfl)
      obtain ⟨-, -, rfl⟩ := step_forceFlush_iff.mp hs
      refine ⟨.forceFlush t (.create timeout r), withDeadline r (deadlineAfter now timeout) _, ?_,
        rfl, Or.inr (Or.inr (.requested _ ?_ ?_ ?_))⟩
      · refine step_forceFlush_iff.mpr ⟨Function.update_self t _ _, hg, ?_⟩
        simp [withDeadline, Pool.mapSh, Shared.withDeadline, Pool.moveTo, forceFlushCommand, hnow']
      · rw [htarget]
        rfl
      · simp only [forceFlushCommand]
        omega
      · simp only [forceFlushCommand, Function.update_self, hnow']
        exact hmono
    | enqueue r success => cases success <;> cases hsource <;> cases htimeout
    | _ => cases hsource <;> cases htimeout
  · refine ⟨a, _, step_moveTo _ hs ha, rfl, Or.inr (Or.inr ?_)⟩
    exact .announced s₁ ((pc_of_caller_ne hs ha).trans hpc) htimeout hnonneg hle

/-- After the request is constructed, only its deadline differs, and only the worker reads it. -/
lemma follows_of_requested [Fintype ι] (hr : (system ι P).Run h s) (hs : step P s a = some s₁)
    (hown : (s.pc t).ownRequest = some request) (hcreated : request < s.sh.created)
    (hle : (s.sh.requests request).deadline ≤ deadlineAfter now timeout) (hlost : ¬Lost t s) :
    Follows P t now timeout a s₁ (withDeadline request (deadlineAfter now timeout) s) := by
  have hstep : ∃ a', step P (withDeadline request (deadlineAfter now timeout) s) a' =
      some (withDeadline request (deadlineAfter now timeout) s₁) ∧ a'.untimed = a.untimed := by
    cases hread : a.readsDeadline request with
    | false => exact ⟨a, step_withDeadline hs hcreated hread, rfl⟩
    | true =>
      refine step_withDeadline_reads hs hread (fun htest => ?_) hle
      obtain ⟨hserving, hdone, hanswers⟩ := worker_of_testsDeadline hs htest
      by_contra hlate
      have hok := ok_eq_false_of_serving hr hserving hdone
      exact hlost (Or.inr (Or.inl ⟨request, hown, hcreated, not_le.mp hlate, hok, hanswers⟩))
  obtain ⟨a', hs', ha'⟩ := hstep
  refine ⟨a', _, hs', ha', ?_⟩
  have hkept : s₁.pc t = .idle ∨ (s₁.pc t).ownRequest = some request ∨
      (s₁.pc t).failing = true := by
    by_cases ha : a.caller = some t
    · obtain ⟨pc, hpc⟩ := forceFlush_of_ownRequest hown
      obtain ⟨b, -, hsource, htarget⟩ := exists_forceFlush_of_caller hs hpc ha
      rw [hpc, ← hsource] at hown
      rw [htarget]
      exact ownRequest_target hown
    · rw [pc_of_caller_ne hs ha]
      exact Or.inr (Or.inl hown)
  rcases hkept with hidle | hown₁ | hfailing
  · exact Or.inl hidle
  · refine Or.inr (Or.inr (.requested s₁ hown₁ ?_ ?_))
    · exact hcreated.trans_le (created_le_of_step hs)
    · rw [deadline_of_step hs hcreated]
      exact hle
  · exact Or.inr (Or.inl (Or.inr (Or.inr hfailing)))

omit [DecidableEq ι] [DecidableEq α] in
/-- The operations of `shutdown` hand the deadline on. -/
lemma shutdownCommand_withDeadline (deadline : ℤ) {b : ShutdownAct} {pc : ShutdownPc}
    (hsource : (shutdownCommand (ι := ι) P b).source = .shutdown pc) :
    (shutdownCommand (ι := ι) P (b.withDeadline deadline)).source =
        .shutdown (pc.withDeadline deadline) ∧
      (shutdownCommand (ι := ι) P (b.withDeadline deadline)).target =
        (shutdownCommand (ι := ι) P b).target.withDeadline deadline ∧
      (shutdownCommand (ι := ι) P (b.withDeadline deadline)).update =
        (shutdownCommand (ι := ι) P b).update := by
  cases b <;> cases hsource <;> refine ⟨rfl, ?_, rfl⟩ <;>
    simp only [shutdownCommand, ShutdownAct.withDeadline] <;> (try split_ifs) <;> rfl

omit [DecidableEq ι] [DecidableEq α] in
/-- Before the deadline, the operations of `shutdown` come out the same with a later one. -/
lemma guard_withDeadline {b : ShutdownAct} {pc : ShutdownPc}
    (hsource : (shutdownCommand (ι := ι) P b).source = .shutdown pc)
    (hg : (shutdownCommand (ι := ι) P b).guard sh = true) (hnow : sh.now ≤ pc.deadline)
    (hle : pc.deadline ≤ deadline) :
    (shutdownCommand (ι := ι) P (b.withDeadline deadline)).guard sh = true := by
  have htests : decide (sh.now ≤ deadline) = decide (sh.now ≤ pc.deadline) := by
    rw [decide_eq_true hnow]
    exact decide_eq_true (hnow.trans hle)
  cases b with
  | call => cases hsource
  | waitClock deadline₀ value =>
    cases hsource
    exact (congrArg (· == value) htests).trans hg
  | ret deadline₀ ok inTime =>
    cases hsource
    exact (congrArg (· == inTime) htests).trans hg
  | _ => exact hg

/-- In `shutdown`, only the deadline differs. -/
lemma follows_of_closing {pc : ShutdownPc} (hs : step P s a = some s₁)
    (hpc : s.pc t = .shutdown pc) (hle : pc.deadline ≤ deadlineAfter now timeout)
    (hlost : ¬Lost t s) :
    Follows P t now timeout a s₁
      (s.moveTo t (.shutdown (pc.withDeadline (deadlineAfter now timeout)))) := by
  by_cases ha : a.caller = some t
  · obtain ⟨b, rfl, hsource, htarget⟩ := exists_shutdown_of_caller hs hpc ha
    have hnow : s.sh.now ≤ pc.deadline := by
      by_contra hlate
      exact hlost (Or.inl ⟨pc, hpc, not_le.mp hlate⟩)
    obtain ⟨hsource', htarget', hupdate⟩ :=
      shutdownCommand_withDeadline (deadlineAfter now timeout) hsource
    have hg := guard_withDeadline hsource (step_shutdown_iff.mp hs).2.1 hnow hle
    have hstep := Pool.threadStep_moveTo_self _ hs hg (congrFun hupdate s.sh)
    rw [hsource', htarget', ← htarget] at hstep
    refine ⟨.shutdown t (b.withDeadline (deadlineAfter now timeout)), _, hstep, ?_, ?_⟩
    · cases b <;> rfl
    · rcases deadline_target hsource with hidle | ⟨pc', hpc', hdeadline⟩
      · exact Or.inl (htarget.trans hidle)
      · have hpc₁ := htarget.trans hpc'
        refine Or.inr (Or.inr ?_)
        rw [hpc₁]
        exact .closing s₁ hpc₁ (hdeadline.trans_le hle)
  · refine ⟨a, _, step_moveTo _ hs ha, rfl, Or.inr (Or.inr ?_)⟩
    exact .closing s₁ ((pc_of_caller_ne hs ha).trans hpc) hle

/-- A step of a call that succeeds is followed by one of the call with the longer timeout. -/
lemma Longer.follows [Fintype ι] (hL : Longer t now timeout s s') (hr : (system ι P).Run h s)
    (hs : step P s a = some s₁) (hlost : ¬Lost t s)
    (hnow : a.computesRequest t = true → s.sh.now = now)
    (hmono : ∀ timeout₀, 0 ≤ timeout₀ → timeout₀ ≤ timeout →
      deadlineAfter now timeout₀ ≤ deadlineAfter now timeout) :
    Follows P t now timeout a s₁ s' := by
  cases hL with
  | same => exact ⟨a, s₁, hs, rfl, Or.inr (Or.inr (.same s₁))⟩
  | announced hpc htimeout hnonneg hle =>
    exact follows_of_announced hs hpc htimeout hnonneg hle hnow (hmono _ hnonneg hle)
  | requested hown hcreated hle => exact follows_of_requested hr hs hown hcreated hle hlost
  | closing hpc hle => exact follows_of_closing hs hpc hle hlost

/-- In what is to come, the deadline of a request of thread `t` is computed when the clock reads
`now`. -/
def ComputesAt (P : Processor α) (t : ι) (now : ℤ) (s : State ι α) (h : List (Act ι α)) : Prop :=
  (system ι P).meetsFrom (fun s a => !a.computesRequest t || decide (s.sh.now = now)) s h = true

/-- As long as the call goes on, it is one that succeeds, and the two states are those of the call
with its own timeout and with the longer one. -/
def Parallel (P : Processor α) (t : ι) (now timeout : ℤ) (s : State ι α) (rest : List (Act ι α))
    (s' : State ι α) : Prop :=
  rest ≠ [] → (∃ h, (system ι P).Run h s) ∧ Succeeding P t s rest ∧ ComputesAt P t now s rest ∧
    Longer t now timeout s s'

/-- A call that succeeds can be performed with a longer timeout: the steps are the same up to the
timeouts and deadlines they carry. -/
theorem exists_longer [Fintype ι] (hr : (system ι P).Run h s) (hC : Succeeding P t s rest)
    (hnow : ComputesAt P t now s rest) (hL : Longer t now timeout s s')
    (hmono : ∀ timeout₀, 0 ≤ timeout₀ → timeout₀ ≤ timeout →
      deadlineAfter now timeout₀ ≤ deadlineAfter now timeout) :
    ∃ rest' e, (system ι P).exec s' rest' = some e ∧
      rest'.map Act.untimed = rest.map Act.untimed := by
  obtain ⟨e, hexec⟩ := Option.isSome_iff_exists.mp hC.enabled
  have hR : Parallel P t now timeout s rest s' := fun _ => ⟨⟨h, hr⟩, hC, hnow, hL⟩
  refine Lts.exec_simulation ?_ hR hexec
  intro s a rest s' s₁ hR hs
  obtain ⟨⟨h, hr⟩, hC, hnow, hL⟩ := hR (List.cons_ne_nil a rest)
  obtain ⟨hhere, hlater⟩ := Bool.and_eq_true_iff.mp hnow
  have hcomputes : a.computesRequest t = true → s.sh.now = now := by
    intro ha
    rcases Bool.or_eq_true_iff.mp hhere with hnot | hnow
    · rw [ha] at hnot
      cases hnot
    · exact of_decide_eq_true hnow
  obtain ⟨a', s₁', hs', ha', hfollows⟩ := hL.follows hr hs hC.not_lost hcomputes hmono
  refine ⟨a', s₁', hs', ha', fun hrest => ?_⟩
  obtain ⟨b, rest, rfl⟩ := List.exists_cons_of_ne_nil hrest
  have hC₁ := hC.tail hs
  rw [Option.all_eq_true] at hlater
  refine ⟨⟨h ++ [a], run_step hr hs⟩, hC₁, hlater s₁ hs, ?_⟩
  rcases hfollows with hidle | hlost | hL₁
  · exact absurd hidle hC₁.ne_idle
  · exact absurd hlost hC₁.not_lost
  · exact hL₁

end GalayTracing
