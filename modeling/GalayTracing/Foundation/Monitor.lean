import GalayTracing.Foundation.Lts
import GalayTracing.Foundation.ThreadPool

/-!
# Objects behind a mutex

Threads call the operations of an object whose data are guarded by one mutex: a call waits for the
mutex, runs its body, gives the mutex back and returns.  Only the calls are interleaved.  The bodies
run one after the other, so what they do to the data is a run of a sequential machine, in which a
call is entered when the one before it has been left (`run_sequential`); an invariant of the data
needs to be proved of that machine only.
-/

/-- The program of an object behind a mutex: data `D`, calls `C` with answers `A`, and the program
points `Q` and the operations `O` of the bodies. -/
structure Monitor (D C A Q O : Type*) where
  /-- Where the body of a call starts. -/
  start : C → Q
  /-- The operations of the bodies. -/
  body : O → Command D Q
  /-- The answer of a body that has come to its end. -/
  answer : Q → Option A

namespace Monitor

/-- Where a thread stands. -/
inductive Pc (C A Q : Type*)
  /-- Outside the object. -/
  | idle
  /-- In front of the mutex. -/
  | waiting (c : C)
  /-- In the body of its call, holding the mutex. -/
  | inside (c : C) (q : Q)
  /-- Behind the mutex, about to return. -/
  | leaving (c : C) (a : A)
  deriving DecidableEq

/-- The steps of the threads. -/
inductive Label (ι C A O : Type*)
  /-- Thread `t` calls. -/
  | call (t : ι) (c : C)
  /-- Thread `t` takes the mutex. -/
  | enter (t : ι) (c : C)
  /-- Thread `t` performs an operation of its body. -/
  | act (t : ι) (o : O)
  /-- Thread `t` gives the mutex back. -/
  | leave (t : ι) (c : C) (a : A)
  /-- The call of thread `t` returns. -/
  | ret (t : ι) (c : C) (a : A)
  deriving DecidableEq

/-- The states of an object and its threads. -/
structure State (ι D C A Q : Type*) where
  /-- The data. -/
  data : D
  /-- The thread that holds the mutex. -/
  holder : Option ι
  /-- Where the threads stand. -/
  pc : ι → Pc C A Q

/-- The steps of the sequential machine. -/
inductive Section (C A O : Type*)
  /-- A call takes the mutex. -/
  | enter (c : C)
  /-- An operation of the body. -/
  | act (o : O)
  /-- A call gives the mutex back. -/
  | leave (c : C) (a : A)
  deriving DecidableEq

/-- The call in whose body the thread is, and the program point it has come to. -/
def Pc.body {C A Q : Type*} : Pc C A Q → Option (C × Q)
  | .inside c q => some (c, q)
  | _ => none

/-- The call that the thread makes. -/
def Pc.call {C A Q : Type*} : Pc C A Q → Option C
  | .idle => none
  | .waiting c | .inside c _ | .leaving c _ => some c

/-- What a step means to the sequential machine. -/
def Label.sections {ι C A O : Type*} : Label ι C A O → List (Section C A O)
  | .call _ _ | .ret _ _ _ => []
  | .enter _ c => [.enter c]
  | .act _ o => [.act o]
  | .leave _ c a => [.leave c a]

/-- The answers given, in the order in which the calls held the mutex. -/
def answers {C A O : Type*} (h : List (Section C A O)) : List (C × A) :=
  h.filterMap fun
    | .leave c a => some (c, a)
    | _ => none

@[simp]
lemma answers_append {C A O : Type*} (h h' : List (Section C A O)) :
    answers (h ++ h') = answers h ++ answers h' := List.filterMap_append

variable {ι D C A Q O : Type*} {s s' : State ι D C A Q} {t : ι} {c : C} {a : A} {q : Q} {o : O}
  {d : D}

lemma Pc.body_eq_some {p : Pc C A Q} : p.body = some (c, q) ↔ p = .inside c q := by
  cases p <;> simp [body]

/-- The body whose thread holds the mutex. -/
def State.current (s : State ι D C A Q) : Option (C × Q) := s.holder.bind fun t => (s.pc t).body

/-- A thread is in the body of a call exactly when it holds the mutex. -/
def Exclusive (s : State ι D C A Q) : Prop :=
  ∀ t, (s.pc t).body.isSome = true ↔ s.holder = some t

/-- A thread in the body of a call holds the mutex. -/
lemma Exclusive.holder (hE : Exclusive s) (hpc : s.pc t = .inside c q) : s.holder = some t :=
  (hE t).mp (by rw [hpc]; rfl)

/-- The body in which a thread is, is the one whose thread holds the mutex. -/
lemma Exclusive.current (hE : Exclusive s) (hpc : s.pc t = .inside c q) :
    s.current = some (c, q) := by
  simp [State.current, hE.holder hpc, hpc, Pc.body]

variable [DecidableEq ι]

/-- Thread `t` moves on. -/
def State.move (s : State ι D C A Q) (t : ι) (p : Pc C A Q) : State ι D C A Q :=
  { s with pc := Function.update s.pc t p }

@[simp]
lemma State.move_pc_self (s : State ι D C A Q) (t : ι) (p : Pc C A Q) : (s.move t p).pc t = p := by
  simp [move]

/-- A step of a thread that is outside the body before and after it. -/
lemma Exclusive.outside (hE : Exclusive s) {p : Pc C A Q} (hbefore : (s.pc t).body = none)
    (hafter : p.body = none) :
    Exclusive (s.move t p) ∧ (s.move t p).current = s.current := by
  have hnot : s.holder ≠ some t := fun hholder => by
    have hsome := (hE t).mpr hholder
    rw [hbefore] at hsome
    cases hsome
  refine ⟨fun t' => ?_, ?_⟩
  · by_cases ht : t' = t
    · subst ht
      simp [State.move, hafter, hnot]
    · simp only [State.move, Function.update_of_ne ht]
      exact hE t'
  · cases hholder : s.holder with
    | none => simp [State.current, State.move, hholder]
    | some t' =>
      have ht : t' ≠ t := fun h => hnot (by rw [hholder, h])
      simp [State.current, State.move, hholder, Function.update_of_ne ht]

variable [DecidableEq C] [DecidableEq A] [DecidableEq Q]

/-! ### The calls and their steps -/

section Step

variable (M : Monitor D C A Q O)

/-- The successor of a state under one step. -/
def step (s : State ι D C A Q) : Label ι C A O → Option (State ι D C A Q)
  | .call t c => if s.pc t = .idle then some (s.move t (.waiting c)) else none
  | .enter t c =>
    if s.pc t = .waiting c ∧ s.holder = none then
      some { s.move t (.inside c (M.start c)) with holder := some t }
    else none
  | .act t o => (s.pc t).body.bind fun (c, q) =>
    if q = (M.body o).source ∧ (M.body o).guard s.data = true then
      some { s.move t (.inside c (M.body o).target) with data := (M.body o).update s.data }
    else none
  | .leave t c a => (s.pc t).body.bind fun (c', q) =>
    if c' = c ∧ M.answer q = some a then
      some { s.move t (.leaving c a) with holder := none }
    else none
  | .ret t c a => if s.pc t = .leaving c a then some (s.move t .idle) else none

/-- The object, called by the threads `ι`. -/
def system (ι : Type*) [DecidableEq ι] (d : D) : Lts (State ι D C A Q) (Label ι C A O) where
  init := { data := d, holder := none, pc := fun _ => .idle }
  step := M.step

/-- The successor of a state of the sequential machine. -/
def sectionStep (s : D × Option (C × Q)) : Section C A O → Option (D × Option (C × Q))
  | .enter c => if s.2 = none then some (s.1, some (c, M.start c)) else none
  | .act o => s.2.bind fun (c, q) =>
    if q = (M.body o).source ∧ (M.body o).guard s.1 = true then
      some ((M.body o).update s.1, some (c, (M.body o).target))
    else none
  | .leave c a => s.2.bind fun (c', q) =>
    if c' = c ∧ M.answer q = some a then some (s.1, none) else none

/-- The sequential machine: one call at a time. -/
def sequential (d : D) : Lts (D × Option (C × Q)) (Section C A O) where
  init := (d, none)
  step := M.sectionStep

end Step

variable {M : Monitor D C A Q O}

/-! ### What the steps do -/

lemma step_call_iff : M.step s (.call t c) = some s' ↔
    s.pc t = .idle ∧ s' = s.move t (.waiting c) := by
  simp only [step]
  split_ifs with h <;> simp [h, eq_comm]

lemma step_enter_iff : M.step s (.enter t c) = some s' ↔ s.pc t = .waiting c ∧ s.holder = none ∧
    s' = { s.move t (.inside c (M.start c)) with holder := some t } := by
  simp only [step]
  split_ifs with h
  · simp [h, eq_comm]
  · simp [← and_assoc, h]

lemma step_act_iff : M.step s (.act t o) = some s' ↔ (M.body o).guard s.data = true ∧
    ∃ c, s.pc t = .inside c (M.body o).source ∧
      s' = { s.move t (.inside c (M.body o).target) with data := (M.body o).update s.data } := by
  simp only [step, Option.bind_eq_some_iff, Prod.exists, Pc.body_eq_some]
  constructor
  · rintro ⟨c, q, hpc, hs⟩
    split_ifs at hs with h
    obtain ⟨rfl, hg⟩ := h
    exact ⟨hg, c, hpc, (Option.some_inj.mp hs).symm⟩
  · rintro ⟨hg, c, hpc, rfl⟩
    exact ⟨c, _, hpc, if_pos ⟨rfl, hg⟩⟩

lemma step_leave_iff : M.step s (.leave t c a) = some s' ↔
    ∃ q, s.pc t = .inside c q ∧ M.answer q = some a ∧
      s' = { s.move t (.leaving c a) with holder := none } := by
  simp only [step, Option.bind_eq_some_iff, Prod.exists, Pc.body_eq_some]
  constructor
  · rintro ⟨c', q, hpc, hs⟩
    split_ifs at hs with h
    obtain ⟨rfl, ha⟩ := h
    exact ⟨q, hpc, ha, (Option.some_inj.mp hs).symm⟩
  · rintro ⟨q, hpc, ha, rfl⟩
    exact ⟨c, q, hpc, if_pos ⟨rfl, ha⟩⟩

lemma step_ret_iff : M.step s (.ret t c a) = some s' ↔
    s.pc t = .leaving c a ∧ s' = s.move t .idle := by
  simp only [step]
  split_ifs with h <;> simp [h, eq_comm]

lemma sectionStep_enter_iff {s s' : D × Option (C × Q)} : M.sectionStep s (.enter c) = some s' ↔
    s.2 = none ∧ s' = (s.1, some (c, M.start c)) := by
  simp only [sectionStep]
  split_ifs with h <;> simp [h, eq_comm]

lemma sectionStep_act_iff {s s' : D × Option (C × Q)} : M.sectionStep s (.act o) = some s' ↔
    (M.body o).guard s.1 = true ∧ ∃ c, s.2 = some (c, (M.body o).source) ∧
      s' = ((M.body o).update s.1, some (c, (M.body o).target)) := by
  simp only [sectionStep, Option.bind_eq_some_iff, Prod.exists]
  constructor
  · rintro ⟨c, q, hcurrent, hs⟩
    split_ifs at hs with h
    obtain ⟨rfl, hg⟩ := h
    exact ⟨hg, c, hcurrent, (Option.some_inj.mp hs).symm⟩
  · rintro ⟨hg, c, hcurrent, rfl⟩
    exact ⟨c, _, hcurrent, if_pos ⟨rfl, hg⟩⟩

lemma sectionStep_leave_iff {s s' : D × Option (C × Q)} :
    M.sectionStep s (.leave c a) = some s' ↔
      ∃ q, s.2 = some (c, q) ∧ M.answer q = some a ∧ s' = (s.1, none) := by
  simp only [sectionStep, Option.bind_eq_some_iff, Prod.exists]
  constructor
  · rintro ⟨c', q, hcurrent, hs⟩
    split_ifs at hs with h
    obtain ⟨rfl, ha⟩ := h
    exact ⟨q, hcurrent, ha, (Option.some_inj.mp hs).symm⟩
  · rintro ⟨q, hcurrent, ha, rfl⟩
    exact ⟨c, q, hcurrent, if_pos ⟨rfl, ha⟩⟩

/-- An operation whose guard holds is performed, and then the rest of the body. -/
lemma exec_act_cons {d₀ : D} (o : O) (hg : (M.body o).guard d = true)
    (h : List (Section C A O)) :
    (M.sequential d₀).exec (d, some (c, (M.body o).source)) (.act o :: h) =
      (M.sequential d₀).exec ((M.body o).update d, some (c, (M.body o).target)) h := by
  have hs : M.sectionStep (d, some (c, (M.body o).source)) (.act o) =
      some ((M.body o).update d, some (c, (M.body o).target)) :=
    sectionStep_act_iff.mpr ⟨hg, c, rfl, rfl⟩
  exact Lts.exec_cons_of_step hs h

/-- The thread that takes a step. -/
def Label.thread : Label ι C A O → ι
  | .call t _ | .enter t _ | .act t _ | .leave t _ _ | .ret t _ _ => t

/-- The other threads stay where they are. -/
lemma pc_of_thread_ne {a : Label ι C A O} (hs : M.step s a = some s') (ht : t ≠ a.thread) :
    s'.pc t = s.pc t := by
  have hmove : ∀ p, Function.update s.pc a.thread p t = s.pc t := fun p =>
    Function.update_of_ne ht p s.pc
  cases a with
  | call t' c =>
    obtain ⟨-, rfl⟩ := step_call_iff.mp hs
    exact hmove _
  | enter t' c =>
    obtain ⟨-, -, rfl⟩ := step_enter_iff.mp hs
    exact hmove _
  | act t' o =>
    obtain ⟨-, c, -, rfl⟩ := step_act_iff.mp hs
    exact hmove _
  | leave t' c a =>
    obtain ⟨q, -, -, rfl⟩ := step_leave_iff.mp hs
    exact hmove _
  | ret t' c a =>
    obtain ⟨-, rfl⟩ := step_ret_iff.mp hs
    exact hmove _

/-- A thread that takes a step other than a call is inside a call. -/
lemma pc_ne_idle_of_step {a : Label ι C A O} (hs : M.step s a = some s')
    (hcall : ∀ t c, a ≠ .call t c) : s.pc a.thread ≠ .idle := by
  have hne : ∀ {p : Pc C A Q}, s.pc a.thread = p → p ≠ .idle → s.pc a.thread ≠ .idle :=
    fun hpc hp => hpc ▸ hp
  cases a with
  | call t c => exact absurd rfl (hcall t c)
  | enter t c => exact hne (step_enter_iff.mp hs).1 nofun
  | act t o =>
    obtain ⟨-, c, hpc, -⟩ := step_act_iff.mp hs
    exact hne hpc nofun
  | leave t c a =>
    obtain ⟨q, hpc, -, -⟩ := step_leave_iff.mp hs
    exact hne hpc nofun
  | ret t c a => exact hne (step_ret_iff.mp hs).1 nofun

/-- Inside its call, a thread goes on making it. -/
lemma call_of_step {a : Label ι C A O} (hs : M.step s a = some s') (hcall : ∀ t c, a ≠ .call t c)
    (hret : ∀ t c r, a ≠ .ret t c r) (t : ι) : (s'.pc t).call = (s.pc t).call := by
  by_cases ht : t = a.thread
  · subst ht
    cases a with
    | call t c => exact absurd rfl (hcall t c)
    | ret t c a => exact absurd rfl (hret t c a)
    | enter t c =>
      obtain ⟨hpc, -, rfl⟩ := step_enter_iff.mp hs
      simp [Label.thread, State.move, hpc, Pc.call]
    | act t o =>
      obtain ⟨-, c, hpc, rfl⟩ := step_act_iff.mp hs
      simp [Label.thread, State.move, hpc, Pc.call]
    | leave t c a =>
      obtain ⟨q, hpc, -, rfl⟩ := step_leave_iff.mp hs
      simp [Label.thread, State.move, hpc, Pc.call]
  · rw [pc_of_thread_ne hs ht]

/-! ### One body at a time -/

/-- Every step keeps the mutual exclusion, and is what the sequential machine does. -/
lemma Exclusive.step (hE : Exclusive s) {a : Label ι C A O} (hs : M.step s a = some s') :
    Exclusive s' ∧
      (M.sequential d).exec (s.data, s.current) a.sections = some (s'.data, s'.current) := by
  have hothers : ∀ {t c q t'}, s.pc t = .inside c q → t' ≠ t → (s.pc t').body.isSome = false :=
    fun {t c q t'} hpc ht => by
      refine Bool.eq_false_iff.mpr fun hin => ?_
      have heq := (hE t').mp hin
      rw [hE.holder hpc] at heq
      exact ht (Option.some_inj.mp heq).symm
  cases a with
  | call t c =>
    obtain ⟨hpc, rfl⟩ := step_call_iff.mp hs
    obtain ⟨hE', hcur⟩ := hE.outside (p := .waiting c) (by rw [hpc]; rfl) rfl
    exact ⟨hE', by rw [hcur]; rfl⟩
  | ret t c a =>
    obtain ⟨hpc, rfl⟩ := step_ret_iff.mp hs
    obtain ⟨hE', hcur⟩ := hE.outside (p := .idle) (by rw [hpc]; rfl) rfl
    exact ⟨hE', by rw [hcur]; rfl⟩
  | enter t c =>
    obtain ⟨hpc, hfree, rfl⟩ := step_enter_iff.mp hs
    refine ⟨fun t' => ?_, ?_⟩
    · by_cases ht : t' = t
      · subst ht
        simp [State.move, Pc.body]
      · have hout := hE t'
        simp only [hfree, reduceCtorEq, iff_false] at hout
        simp [State.move, Function.update_of_ne ht, hout, Ne.symm ht]
    · have hnone : s.current = none := by simp [State.current, hfree]
      rw [hnone]
      simp [Label.sections, Lts.exec, sequential, sectionStep, State.current, State.move, Pc.body]
  | act t o =>
    obtain ⟨hg, c, hpc, rfl⟩ := step_act_iff.mp hs
    refine ⟨fun t' => ?_, ?_⟩
    · by_cases ht : t' = t
      · subst ht
        simp [State.move, Pc.body, hE.holder hpc]
      · simp only [State.move, Function.update_of_ne ht]
        exact hE t'
    · rw [hE.current hpc]
      simp [Label.sections, Lts.exec, sequential, sectionStep, hg, State.current, State.move,
        hE.holder hpc, Pc.body]
  | leave t c a =>
    obtain ⟨q, hpc, ha, rfl⟩ := step_leave_iff.mp hs
    refine ⟨fun t' => ?_, ?_⟩
    · by_cases ht : t' = t
      · subst ht
        simp [State.move, Pc.body]
      · simp [State.move, Function.update_of_ne ht, hothers hpc ht]
    · rw [hE.current hpc]
      simp [Label.sections, Lts.exec, sequential, sectionStep, ha, State.current, State.move]

/-- In every reachable state, at most one thread is in the body of a call. -/
theorem exclusive_of_run {h : List (Label ι C A O)} (hr : (M.system ι d).Run h s) :
    Exclusive s := by
  induction hr using Lts.run_induction with
  | nil => exact fun t => by simp [system, Pc.body]
  | concat h a s s' hr hs ih => exact (ih.step (d := d) hs).1

/-- What the calls do to the data is a run of the sequential machine. -/
theorem run_sequential {h : List (Label ι C A O)} (hr : (M.system ι d).Run h s) :
    (M.sequential d).Run (h.flatMap Label.sections) (s.data, s.current) :=
  Lts.run_refinement (fun s => (s.data, s.current)) rfl
    (fun _ _ _ _ hr hs => ((exclusive_of_run hr).step hs).2) hr

end Monitor
