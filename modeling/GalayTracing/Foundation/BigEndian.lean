import Mathlib.Algebra.Order.Ring.Nat
import Mathlib.Data.List.Basic
import Mathlib.Tactic.Ring

/-!
# Numbers written with the highest digit first

The number a list of digits stands for in a given base.  Lists of one length are ordered as their
numbers are, and a list of digits of the base `b * b` may be split into twice as many of the base
`b`.
-/

namespace BigEndian

/-- The number that digits stand for in a base, the highest digit first. -/
def value (base : ℕ) (digits : List ℕ) : ℕ := digits.foldl (fun acc digit => acc * base + digit) 0

variable {base : ℕ}

/-- What was read before the digits weighs as much as they are long. -/
lemma foldl_eq (digits : List ℕ) (acc : ℕ) :
    digits.foldl (fun acc digit => acc * base + digit) acc =
      acc * base ^ digits.length + value base digits := by
  induction digits generalizing acc with
  | nil => simp [value]
  | cons digit digits ih =>
    rw [value, List.foldl_cons, List.foldl_cons, ih, ih (0 * base + digit), List.length_cons]
    ring

@[simp] lemma value_nil : value base [] = 0 := rfl

/-- The first digit weighs most. -/
lemma value_cons (digit : ℕ) (digits : List ℕ) :
    value base (digit :: digits) = digit * base ^ digits.length + value base digits := by
  rw [value, List.foldl_cons, foldl_eq, Nat.zero_mul, Nat.zero_add]

/-- Digits stand for a number below the power of their base. -/
lemma value_lt {digits : List ℕ} (hdigits : ∀ digit ∈ digits, digit < base) :
    value base digits < base ^ digits.length := by
  induction digits with
  | nil => simp
  | cons digit digits ih =>
    rw [List.forall_mem_cons] at hdigits
    have hrest := ih hdigits.2
    have hfirst : (digit + 1) * base ^ digits.length ≤ base * base ^ digits.length :=
      Nat.mul_le_mul_right _ hdigits.1
    rw [value_cons, List.length_cons, pow_succ']
    rw [Nat.succ_mul] at hfirst
    omega

/-- Lists of one length are ordered as the numbers they stand for. -/
theorem value_lt_of_lex {digits digits' : List ℕ} (hlength : digits.length = digits'.length)
    (hdigits : ∀ digit ∈ digits, digit < base) (hlex : List.Lex (· < ·) digits digits') :
    value base digits < value base digits' := by
  induction hlex with
  | nil => cases hlength
  | @cons digit digits digits' _ ih =>
    have hlength := Nat.succ_inj.mp hlength
    have hrest := ih hlength (List.forall_mem_cons.mp hdigits).2
    rw [value_cons, value_cons, hlength]
    exact Nat.add_lt_add_left hrest _
  | @rel digit digits digit' digits' hdigit =>
    have hlength := Nat.succ_inj.mp hlength
    have hrest := value_lt (List.forall_mem_cons.mp hdigits).2
    have hfirst : (digit + 1) * base ^ digits'.length ≤ digit' * base ^ digits'.length :=
      Nat.mul_le_mul_right _ hdigit
    rw [Nat.succ_mul] at hfirst
    rw [hlength] at hrest
    rw [value_cons, value_cons, hlength]
    omega

/-- The beginnings of two ordered lists are equal or ordered as well. -/
lemma lex_take {digits digits' : List ℕ} (hlex : List.Lex (· < ·) digits digits')
    (k : ℕ) (hk : k ≤ digits.length) :
    digits.take k = digits'.take k ∨ List.Lex (· < ·) (digits.take k) (digits'.take k) := by
  induction hlex generalizing k with
  | nil =>
    obtain rfl := Nat.le_zero.mp hk
    exact Or.inl rfl
  | cons _ ih =>
    match k, hk with
    | 0, _ => exact Or.inl rfl
    | k + 1, hk =>
      rcases ih k (Nat.le_of_succ_le_succ hk) with heq | hlex
      · exact Or.inl (by rw [List.take_succ_cons, List.take_succ_cons, heq])
      · exact Or.inr (.cons hlex)
  | rel hdigit =>
    match k with
    | 0 => exact Or.inl rfl
    | k + 1 => exact Or.inr (.rel hdigit)

/-- The beginnings of two ordered lists stand for ordered numbers. -/
theorem value_take_le_of_lex {digits digits' : List ℕ} (hlength : digits.length = digits'.length)
    (hdigits : ∀ digit ∈ digits, digit < base) (hlex : List.Lex (· < ·) digits digits') {k : ℕ}
    (hk : k ≤ digits.length) : value base (digits.take k) ≤ value base (digits'.take k) := by
  rcases lex_take hlex k hk with heq | hlex
  · rw [heq]
  · have hlength' : (digits.take k).length = (digits'.take k).length := by
      rw [List.length_take, List.length_take, hlength]
    exact (value_lt_of_lex hlength' (fun d hd => hdigits d (List.mem_of_mem_take hd)) hlex).le

/-- Splitting every digit in two changes the base only. -/
theorem value_flatMap_halves (digits : List ℕ) :
    value base (digits.flatMap fun digit => [digit / base, digit % base]) =
      value (base * base) digits := by
  induction digits with
  | nil => rfl
  | cons digit digits ih =>
    have hlength : (digits.flatMap fun digit => [digit / base, digit % base]).length =
        2 * digits.length := by simp [Nat.mul_comm]
    rw [List.flatMap_cons, List.cons_append, List.cons_append, List.nil_append, value_cons,
      value_cons, value_cons, ih, List.length_cons, hlength, pow_succ, pow_mul, pow_two]
    calc digit / base * ((base * base) ^ digits.length * base) +
          (digit % base * (base * base) ^ digits.length + value (base * base) digits)
        = (base * (digit / base) + digit % base) * (base * base) ^ digits.length +
            value (base * base) digits := by ring
      _ = digit * (base * base) ^ digits.length + value (base * base) digits := by
          rw [Nat.div_add_mod]

end BigEndian
