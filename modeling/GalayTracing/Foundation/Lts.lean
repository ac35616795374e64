import Mathlib.Data.List.Induction
import Mathlib.Tactic.Common

/-!
# Labelled transition systems and their finite runs

A system is given by an initial state and a partial function that performs one labelled atomic
step.  A label records everything the step chose or observed, so a finite run is determined by the
list of its labels, and that list is at the same time the history of the run.

The file provides the two induction rules the verification of a system rests on, one for all runs
and one for the runs whose steps all meet a side condition, and the rule that carries a history over
to other labels by simulating its steps.
-/

/-- A labelled transition system: the initial state, and the successor a label leads to, if the
step is enabled. -/
structure Lts (σ α : Type*) where
  /-- The initial state. -/
  init : σ
  /-- The successor of a state under a label; `none` when the step is not enabled. -/
  step : σ → α → Option σ

namespace Lts

variable {σ α : Type*} (L : Lts σ α)

/-- The state reached from `s` by performing the labels in order. -/
def exec (s : σ) (h : List α) : Option σ := h.foldlM L.step s

/-- `L.Run h s`: the history `h` is a run from the initial state, and it ends in `s`. -/
def Run (h : List α) (s : σ) : Prop := L.exec L.init h = some s

instance [DecidableEq σ] (h : List α) (s : σ) : Decidable (L.Run h s) :=
  inferInstanceAs (Decidable (L.exec L.init h = some s))

@[simp] lemma exec_nil (s : σ) : L.exec s [] = some s := rfl

lemma exec_append (s : σ) (h h' : List α) :
    L.exec s (h ++ h') = (L.exec s h).bind fun s' => L.exec s' h' := by
  simp [exec, List.foldlM_append, Option.bind_eq_bind]

/-- The empty run ends in the initial state. -/
lemma run_nil : L.Run [] L.init := rfl

/-- A nonempty run is a run followed by one enabled step. -/
lemma run_concat_iff {h : List α} {a : α} {s' : σ} :
    L.Run (h ++ [a]) s' ↔ ∃ s, L.Run h s ∧ L.step s a = some s' := by
  simp [Run, exec, Option.bind_eq_some_iff]

variable {L}

/-- An enabled step is performed before the rest of the labels. -/
lemma exec_cons_of_step {s s' : σ} {a : α} (hs : L.step s a = some s') (h : List α) :
    L.exec s (a :: h) = L.exec s' h := by
  simp [exec, hs]

/-- A run is extended by an enabled step. -/
lemma Run.concat {h : List α} {a : α} {s s' : σ} (hr : L.Run h s) (hs : L.step s a = some s') :
    L.Run (h ++ [a]) s' :=
  L.run_concat_iff.mpr ⟨s, hr, hs⟩

/-- The state a run ends in is determined by its history. -/
lemma Run.unique {h : List α} {s s' : σ} (hr : L.Run h s) (hr' : L.Run h s') : s = s' :=
  Option.some_inj.mp (hr.symm.trans hr')

/-- Every prefix of a run is a run. -/
lemma Run.of_append {h h' : List α} {s : σ} (hr : L.Run (h ++ h') s) : ∃ s₀, L.Run h s₀ := by
  rw [Run, exec_append, Option.bind_eq_some_iff] at hr
  obtain ⟨s₀, hs₀, -⟩ := hr
  exact ⟨s₀, hs₀⟩

/-- Induction over runs: what holds of the empty run and is preserved by every step of a run holds
of every run. -/
theorem run_induction {motive : ∀ h s, L.Run h s → Prop} (nil : motive [] L.init L.run_nil)
    (concat : ∀ h a s s' (hr : L.Run h s) (hs : L.step s a = some s'), motive h s hr →
      motive (h ++ [a]) s' (hr.concat hs))
    {h : List α} {s : σ} (hr : L.Run h s) : motive h s hr := by
  induction h using List.reverseRecOn generalizing s with
  | nil =>
    obtain rfl := hr.unique L.run_nil
    exact nil
  | append_singleton h a ih =>
    obtain ⟨s₀, hr₀, hs⟩ := L.run_concat_iff.mp hr
    exact concat h a s₀ s hr₀ hs (ih hr₀)

/-- A run whose history is `h₀ ++ h`, extended by an enabled step. -/
lemma Run.concat_append {h₀ h : List α} {a : α} {s s' : σ} (hr : L.Run (h₀ ++ h) s)
    (hs : L.step s a = some s') : L.Run (h₀ ++ (h ++ [a])) s' := by
  rw [← List.append_assoc]
  exact hr.concat hs

/-- Induction over the continuations of a run whose history is `h₀ ++ h`. -/
theorem run_induction_from {h₀ : List α} {motive : ∀ h s, L.Run (h₀ ++ h) s → Prop}
    (nil : ∀ s (hr : L.Run (h₀ ++ []) s), motive [] s hr)
    (concat : ∀ h a s s' (hr : L.Run (h₀ ++ h) s) (hs : L.step s a = some s'), motive h s hr →
      motive (h ++ [a]) s' (hr.concat_append hs))
    {h : List α} {s : σ} (hr : L.Run (h₀ ++ h) s) : motive h s hr := by
  induction h using List.reverseRecOn generalizing s with
  | nil => exact nil s hr
  | append_singleton h a ih =>
    have hr' : L.Run ((h₀ ++ h) ++ [a]) s := by rwa [List.append_assoc]
    obtain ⟨s₀, hr₀, hs⟩ := L.run_concat_iff.mp hr'
    exact concat h a s₀ s hr₀ hs (ih hr₀)

/-- A history that can be executed is a run, and a test that succeeds on the outcome succeeds on
the state the run ends in. -/
lemma exists_run_of_any {h : List α} {p : σ → Bool} (hp : (L.exec L.init h).any p = true) :
    ∃ s, L.Run h s ∧ p s = true := by
  rw [Option.any_eq_true] at hp
  exact hp

/-! ### Runs whose steps all meet a condition -/

/-- Every step of the history `h` meets the condition `C` on the state it starts from and its
label. -/
def StepsMeet (L : Lts σ α) (C : σ → α → Bool) (h : List α) : Prop :=
  ∀ pre a post s, h = pre ++ a :: post → L.Run pre s → C s a = true

/-- The check of a condition along the execution of a history. -/
def meetsFrom (L : Lts σ α) (C : σ → α → Bool) : σ → List α → Bool
  | _, [] => true
  | s, a :: h => C s a && (L.step s a).all fun s' => L.meetsFrom C s' h

/-- The check succeeds exactly when all steps from the given state on meet the condition. -/
lemma meetsFrom_iff {C : σ → α → Bool} {s : σ} {h : List α} :
    L.meetsFrom C s h = true ↔
      ∀ pre a post s', h = pre ++ a :: post → L.exec s pre = some s' → C s' a = true := by
  induction h generalizing s with
  | nil =>
    refine ⟨fun _ pre a post s' heq => ?_, fun _ => rfl⟩
    simp at heq
  | cons b h ih =>
    rw [meetsFrom, Bool.and_eq_true, Option.all_eq_true]
    constructor
    · rintro ⟨hb, hrest⟩ pre a post s' heq hexec
      cases pre with
      | nil =>
        obtain ⟨rfl, -⟩ := List.cons.inj heq
        obtain rfl : s = s' := Option.some_inj.mp hexec
        exact hb
      | cons c pre =>
        obtain ⟨rfl, rfl⟩ := List.cons.inj heq
        obtain ⟨s₁, hs₁, hexec⟩ := Option.bind_eq_some_iff.mp hexec
        exact ih.mp (hrest s₁ hs₁) pre a post s' rfl hexec
    · intro hall
      refine ⟨hall [] b h s rfl rfl, fun s₁ hs₁ => ih.mpr ?_⟩
      intro pre a post s' heq hexec
      refine hall (b :: pre) a post s' (by rw [heq]; rfl) ?_
      exact (exec_cons_of_step hs₁ pre).trans hexec

instance (C : σ → α → Bool) (h : List α) : Decidable (L.StepsMeet C h) :=
  decidable_of_iff (L.meetsFrom C L.init h = true) meetsFrom_iff

/-- A condition met by all steps of a run is met by all steps of its prefixes. -/
lemma StepsMeet.of_append {C : σ → α → Bool} {h h' : List α}
    (hc : L.StepsMeet C (h ++ h')) : L.StepsMeet C h := by
  intro pre a post s heq hr
  exact hc pre a (post ++ h') s (by simp [heq]) hr

/-- The last step of a run whose steps all meet a condition meets it. -/
lemma StepsMeet.last {C : σ → α → Bool} {h : List α} {a : α} {s : σ}
    (hc : L.StepsMeet C (h ++ [a])) (hr : L.Run h s) : C s a = true :=
  hc h a [] s rfl hr

/-- Two conditions that are met by all steps are met together. -/
lemma StepsMeet.and {C D : σ → α → Bool} {h : List α} (hc : L.StepsMeet C h)
    (hd : L.StepsMeet D h) : L.StepsMeet (fun s a => C s a && D s a) h := by
  intro pre a post s heq hr
  exact Bool.and_eq_true_iff.mpr ⟨hc pre a post s heq hr, hd pre a post s heq hr⟩

/-- A condition on the labels alone is met by all steps when all labels of the history meet it. -/
lemma stepsMeet_of_forall_mem {C : α → Bool} {h : List α} (hc : ∀ a ∈ h, C a = true) :
    L.StepsMeet (fun _ a => C a) h := by
  rintro pre a post s rfl -
  exact hc a (by simp)

/-- Induction over the runs whose steps all meet a condition. -/
theorem run_induction_where {C : σ → α → Bool}
    {motive : ∀ h s, L.Run h s → L.StepsMeet C h → Prop}
    (nil : ∀ hc, motive [] L.init L.run_nil hc)
    (concat : ∀ h a s s' (hr : L.Run h s) (hs : L.step s a = some s')
      (hc : L.StepsMeet C (h ++ [a])), C s a = true → motive h s hr hc.of_append →
      motive (h ++ [a]) s' (hr.concat hs) hc)
    {h : List α} {s : σ} (hr : L.Run h s) (hc : L.StepsMeet C h) : motive h s hr hc := by
  induction hr using run_induction with
  | nil => exact nil hc
  | concat h a s s' hr hs ih => exact concat h a s s' hr hs hc (hc.last hr) (ih hc.of_append)

/-! ### Simulation -/

/-- If every step is simulated by one that looks the same under `f`, so is every history.  What is
still to come may be used to relate the states. -/
theorem exec_simulation {γ : Type*} {f : α → γ} {R : σ → List α → σ → Prop}
    (hstep : ∀ s a h s' s₁, R s (a :: h) s' → L.step s a = some s₁ →
      ∃ a' s₁', L.step s' a' = some s₁' ∧ f a' = f a ∧ R s₁ h s₁')
    {h : List α} {s s' e : σ} (hR : R s h s') (hexec : L.exec s h = some e) :
    ∃ h' e', L.exec s' h' = some e' ∧ h'.map f = h.map f := by
  induction h generalizing s s' with
  | nil => exact ⟨[], s', rfl, rfl⟩
  | cons a h ih =>
    obtain ⟨s₁, hs, hexec⟩ := Option.bind_eq_some_iff.mp hexec
    obtain ⟨a', s₁', hs', ha, hR'⟩ := hstep s a h s' s₁ hR hs
    obtain ⟨h', e', hexec', hmap⟩ := ih hR' hexec
    refine ⟨a' :: h', e', (exec_cons_of_step hs' h').trans hexec', ?_⟩
    rw [List.map_cons, List.map_cons, ha, hmap]

/-! ### Refinement -/

/-- If `g` maps the initial state to that of `M`, and every step of a run to the steps `f` shows
of it, then every run shows a run of `M`. -/
theorem run_refinement {τ β : Type*} {M : Lts τ β} (g : σ → τ) {f : α → List β}
    (hinit : g L.init = M.init)
    (hstep : ∀ h a s s', L.Run h s → L.step s a = some s' →
      M.exec (g s) (f a) = some (g s'))
    {h : List α} {s : σ} (hr : L.Run h s) : M.Run (h.flatMap f) (g s) := by
  induction hr using run_induction with
  | nil =>
    rw [hinit]
    exact M.run_nil
  | concat h a s s' hr hs ih =>
    rw [List.flatMap_append, List.flatMap_singleton, Run, exec_append]
    exact Option.bind_eq_some_iff.mpr ⟨g s, ih, hstep h a s s' hr hs⟩

end Lts
