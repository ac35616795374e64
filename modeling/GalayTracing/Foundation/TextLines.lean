import Mathlib.Algebra.GroupWithZero.Nat
import Mathlib.Data.List.Basic
import Mathlib.Tactic.Common

/-!
# Texts made of lines

A text of lines ends every line with a separator.  It splits into these lines again exactly if none
of them contains the separator; how many parts there are tells already.
-/

namespace TextLines

variable {α : Type*} [DecidableEq α] {sep : α}

/-- The text of some lines, each of them ended by the separator. -/
def join (sep : α) (lines : List (List α)) : List α := lines.flatMap fun line => line ++ [sep]

omit [DecidableEq α] in
/-- The text of a first line and the others. -/
lemma join_cons (line : List α) (lines : List (List α)) :
    join sep (line :: lines) = line ++ sep :: join sep lines := by
  rw [join, List.flatMap_cons, List.append_assoc, List.singleton_append, join]

/-- Lines without the separator are what the text splits into. -/
theorem splitOn_join {lines : List (List α)} (hlines : ∀ line ∈ lines, sep ∉ line) :
    (join sep lines).splitOn sep = lines ++ [[]] := by
  induction lines with
  | nil => rfl
  | cons line lines ih =>
    obtain ⟨hline, hlines⟩ := List.forall_mem_cons.mp hlines
    rw [join_cons, List.splitOn_append_cons_self_of_not_mem hline, ih hlines, List.cons_append]

/-- A text has one part more than separators. -/
lemma length_splitOn (text : List α) : (text.splitOn sep).length = text.count sep + 1 := by
  induction text with
  | nil => rfl
  | cons a text ih =>
    rw [List.splitOn_cons_eq_if_modifyHead]
    split_ifs with ha
    · rw [List.length_cons, ih, beq_iff_eq.mp ha, List.count_cons_self]
    · rw [List.length_modifyHead, ih, List.count_cons_of_ne (by simpa using ha)]

/-- The separators of a text are those that end a line and those inside the lines. -/
lemma count_join (lines : List (List α)) :
    (join sep lines).count sep = lines.length + (lines.map (List.count sep)).sum := by
  induction lines with
  | nil => rfl
  | cons line lines ih =>
    rw [join_cons, List.count_append, List.count_cons_self, ih, List.length_cons, List.map_cons,
      List.sum_cons]
    omega

/-- If a text splits into as many parts as it has lines, no line contains the separator. -/
theorem notMem_of_length_splitOn {lines : List (List α)}
    (hlength : ((join sep lines).splitOn sep).length = lines.length + 1) :
    ∀ line ∈ lines, sep ∉ line := by
  rw [length_splitOn, count_join] at hlength
  have hzero : (lines.map (List.count sep)).sum = 0 := by omega
  intro line hline hsep
  have hmem : line.count sep ∈ lines.map (List.count sep) := List.mem_map_of_mem hline
  have hnone := List.sum_eq_zero_iff_forall_eq_nat.mp hzero _ hmem
  exact List.count_eq_zero.mp hnone hsep

end TextLines
