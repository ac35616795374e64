import GalayTracing.Foundation.Lts

/-!
# A system that uses a component

A system and a component take their steps on their own, except for the steps at which they meet:
when the system calls the component or a call returns to it, the component takes its part of that
step at the same time.  A run of the two together is a run of each of them, so what has been proved
of the runs of the system and of the runs of the component holds side by side, and an invariant of
the two together has to say only how they stand to each other.
-/

namespace Lts

variable {σ τ α β : Type*}

/-- The system `L` with the component `M`.  A step of the system takes the component through the
steps `f` makes of it, and the component takes the steps that are `inner` on its own. -/
def link (L : Lts σ α) (M : Lts τ β) (f : α → List β) (inner : β → Bool) :
    Lts (σ × τ) (α ⊕ β) where
  init := (L.init, M.init)
  step s
    | .inl a => (L.step s.1 a).bind fun s₁ => (M.exec s.2 (f a)).map fun s₂ => (s₁, s₂)
    | .inr b => if inner b = true then (M.step s.2 b).map fun s₂ => (s.1, s₂) else none

/-- The steps of the system. -/
def ofSystem (h : List (α ⊕ β)) : List α := h.flatMap (Sum.elim (fun a => [a]) fun _ => [])

/-- The steps of the component. -/
def ofComponent (f : α → List β) (h : List (α ⊕ β)) : List β := h.flatMap (Sum.elim f fun b => [b])

variable {L : Lts σ α} {M : Lts τ β} {f : α → List β} {inner : β → Bool} {h : List (α ⊕ β)}
  {s s' : σ × τ}

/-- A step of the system, with the steps of the component that belong to it. -/
lemma link_inl_iff {a : α} : (L.link M f inner).step s (.inl a) = some s' ↔
    L.step s.1 a = some s'.1 ∧ M.exec s.2 (f a) = some s'.2 := by
  simp only [link, Option.bind_eq_some_iff, Option.map_eq_some_iff]
  constructor
  · rintro ⟨s₁, h₁, s₂, h₂, rfl⟩
    exact ⟨h₁, h₂⟩
  · rintro ⟨h₁, h₂⟩
    exact ⟨s'.1, h₁, s'.2, h₂, rfl⟩

/-- A step of the component on its own. -/
lemma link_inr_iff {b : β} : (L.link M f inner).step s (.inr b) = some s' ↔
    inner b = true ∧ M.step s.2 b = some s'.2 ∧ s'.1 = s.1 := by
  simp only [link]
  split_ifs with hinner
  · simp only [Option.map_eq_some_iff, hinner, true_and]
    constructor
    · rintro ⟨s₂, h₂, rfl⟩
      exact ⟨h₂, rfl⟩
    · rintro ⟨h₂, h₁⟩
      exact ⟨s'.2, h₂, by rw [← h₁]⟩
  · simp [hinner]

/-- Steps at which they do not meet leave the component where it is. -/
lemma link_inl_of_nil {a : α} (hs : (L.link M f inner).step s (.inl a) = some s')
    (hnil : f a = []) : L.step s.1 a = some s'.1 ∧ s'.2 = s.2 := by
  obtain ⟨h₁, h₂⟩ := link_inl_iff.mp hs
  rw [hnil] at h₂
  exact ⟨h₁, (Option.some_inj.mp h₂).symm⟩

/-- A step at which they meet once is a step of each of them. -/
lemma link_inl_of_singleton {a : α} {b : β} (hs : (L.link M f inner).step s (.inl a) = some s')
    (hone : f a = [b]) : L.step s.1 a = some s'.1 ∧ M.step s.2 b = some s'.2 := by
  obtain ⟨h₁, h₂⟩ := link_inl_iff.mp hs
  rw [hone] at h₂
  refine ⟨h₁, ?_⟩
  obtain ⟨s₂, hs₂, heq⟩ := Option.bind_eq_some_iff.mp h₂
  rw [hs₂, ← heq]
  rfl

@[simp]
lemma ofSystem_append (h h' : List (α ⊕ β)) :
    ofSystem (h ++ h') = ofSystem h ++ ofSystem h' := List.flatMap_append

@[simp]
lemma ofComponent_append (h h' : List (α ⊕ β)) :
    ofComponent f (h ++ h') = ofComponent f h ++ ofComponent f h' := List.flatMap_append

/-- A run of the two together is a run of the system. -/
theorem run_ofSystem (hr : (L.link M f inner).Run h s) : L.Run (ofSystem h) s.1 := by
  refine run_refinement Prod.fst rfl (fun h a s s' hr hs => ?_) hr
  cases a with
  | inl a =>
    refine Option.bind_eq_some_iff.mpr ⟨s'.1, (link_inl_iff.mp hs).1, rfl⟩
  | inr b => exact congrArg some (link_inr_iff.mp hs).2.2.symm

/-- A run of the two together is a run of the component. -/
theorem run_ofComponent (hr : (L.link M f inner).Run h s) : M.Run (ofComponent f h) s.2 := by
  refine run_refinement Prod.snd rfl (fun h a s s' hr hs => ?_) hr
  cases a with
  | inl a => exact (link_inl_iff.mp hs).2
  | inr b => exact Option.bind_eq_some_iff.mpr ⟨s'.2, (link_inr_iff.mp hs).2.1, rfl⟩

end Lts
