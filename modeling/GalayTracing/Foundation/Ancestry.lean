import Mathlib.Data.List.Induction
import Mathlib.Logic.Relation
import Mathlib.Tactic.Common

/-!
# Lists in which parents come first

A list that grows at its end, and in which every new element is an origin or the child of an element
that is already there.  Such a list is a forest in the order of its growth: a parent stands before
its children, so there are no cycles, and following the parents leads from every element to an
origin.  What children take over from their parents is therefore what the origin had.
-/

namespace Ancestry

variable {α β : Type*} {IsOrigin : α → Prop} {Child : α → α → Prop} {l : List α} {a o : α}

/-- Every element of the list is an origin, or the child of an element before it. -/
inductive Grown (IsOrigin : α → Prop) (Child : α → α → Prop) : List α → Prop
  | nil : Grown IsOrigin Child []
  | concat {l : List α} {a : α} (hl : Grown IsOrigin Child l)
      (ha : IsOrigin a ∨ ∃ p ∈ l, Child p a) : Grown IsOrigin Child (l ++ [a])

/-- `Link Child l p a`: both elements are in the list, and `a` is a child of `p`. -/
structure Link (Child : α → α → Prop) (l : List α) (p a : α) : Prop where
  parent_mem : p ∈ l
  child_mem : a ∈ l
  child : Child p a

/-- `Descends Child l o a`: a path of parents leads from `a` to `o`. -/
def Descends (Child : α → α → Prop) (l : List α) : α → α → Prop :=
  Relation.ReflTransGen (Link Child l)

/-- A path of parents stays one when the list grows. -/
lemma Descends.mono {l' : List α} (hsub : l ⊆ l') (hd : Descends Child l o a) :
    Descends Child l' o a := by
  have hlinks : Link Child l ≤ Link Child l' := fun _ _ hlink =>
    ⟨hsub hlink.parent_mem, hsub hlink.child_mem, hlink.child⟩
  exact Relation.ReflTransGen.mono hlinks _ _ hd

/-- A parent stands before its children. -/
theorem Grown.exists_lt (hl : Grown IsOrigin Child l) {i : ℕ} (ha : l[i]? = some a) :
    IsOrigin a ∨ ∃ j < i, ∃ p, l[j]? = some p ∧ Child p a := by
  induction hl with
  | nil => cases ha
  | @concat l b hl hb ih =>
    rcases Nat.lt_or_ge i l.length with hi | hi
    · rw [List.getElem?_append_left hi] at ha
      refine (ih ha).imp_right ?_
      rintro ⟨j, hj, p, hp, hchild⟩
      refine ⟨j, hj, p, ?_, hchild⟩
      rw [List.getElem?_append_left (Nat.lt_trans hj hi)]
      exact hp
    · rw [List.getElem?_append_right hi] at ha
      obtain rfl : a = b := List.mem_singleton.mp (List.mem_of_getElem? ha)
      refine hb.imp_right ?_
      rintro ⟨p, hmem, hchild⟩
      obtain ⟨j, hj, rfl⟩ := List.mem_iff_getElem.mp hmem
      refine ⟨j, Nat.lt_of_lt_of_le hj hi, l[j], ?_, hchild⟩
      rw [List.getElem?_append_left hj, List.getElem?_eq_getElem hj]

/-- Following the parents leads from every element to an origin. -/
theorem Grown.exists_origin (hl : Grown IsOrigin Child l) (ha : a ∈ l) :
    ∃ o ∈ l, IsOrigin o ∧ Descends Child l o a := by
  induction hl generalizing a with
  | nil => cases ha
  | @concat l b hl hb ih =>
    have hsub : l ⊆ l ++ [b] := List.subset_append_left l [b]
    have hlast : b ∈ l ++ [b] := List.mem_append_right l List.mem_cons_self
    rcases List.mem_append.mp ha with hmem | hmem
    · obtain ⟨o, ho, horigin, hpath⟩ := ih hmem
      exact ⟨o, hsub ho, horigin, hpath.mono hsub⟩
    · obtain rfl := List.mem_singleton.mp hmem
      rcases hb with horigin | ⟨p, hp, hchild⟩
      · exact ⟨a, hlast, horigin, Relation.ReflTransGen.refl⟩
      · obtain ⟨o, ho, horigin, hpath⟩ := ih hp
        exact ⟨o, hsub ho, horigin, (hpath.mono hsub).tail ⟨hsub hp, hlast, hchild⟩⟩

/-- What every child in the list takes over from its parent is what the origin had. -/
theorem Descends.eq_of_child {f : α → β} (hd : Descends Child l o a)
    (hf : ∀ p ∈ l, ∀ b ∈ l, Child p b → f b = f p) : f a = f o := by
  induction hd with
  | refl => rfl
  | tail _ hlink ih => exact (hf _ hlink.parent_mem _ hlink.child_mem hlink.child).trans ih

end Ancestry
