import Mathlib.Data.Int.GCD
import Mathlib.Data.Nat.ModEq
import Mathlib.Data.Nat.Prime.Basic
import Mathlib.Tactic.Common

/-!
# Mixing machine words

The operations a pseudo-random generator mixes its words with, as injective functions of words of
any width: a right shift combined with exclusive or, and multiplication by an odd constant.  The
walk by an odd constant visits every word before it comes back to one.
-/

namespace WordMixing

variable {w : ℕ}

/-- The word with its upper bits folded onto the lower ones. -/
def xorShiftRight (k : ℕ) (x : BitVec w) : BitVec w := x ^^^ (x >>> k)

/-- The bits of a word are determined by the folded word, from the highest one down. -/
theorem xorShiftRight_injective {k : ℕ} (hk : 0 < k) :
    Function.Injective (xorShiftRight k : BitVec w → BitVec w) := by
  intro x y hxy
  -- A bit that is not settled yet is combined with one that lies `k` places higher.
  have hbits : ∀ d i, w ≤ i + d → x.getLsbD i = y.getLsbD i := by
    intro d
    induction d with
    | zero =>
      intro i hi
      rw [BitVec.getLsbD_of_ge x i hi, BitVec.getLsbD_of_ge y i hi]
    | succ d ih =>
      intro i hi
      have hhigh : x.getLsbD (k + i) = y.getLsbD (k + i) := ih (k + i) (by omega)
      have hfold := congrArg (fun word => word.getLsbD i) hxy
      simpa only [xorShiftRight, BitVec.getLsbD_xor, BitVec.getLsbD_ushiftRight, hhigh,
        Bool.xor_left_inj] using hfold
  exact BitVec.eq_of_getLsbD_eq fun i _ => hbits w i (by omega)

/-- An odd number is coprime to the number of words. -/
lemma gcd_two_pow_of_odd {c : ℕ} (hc : c % 2 = 1) : Nat.gcd (2 ^ w) c = 1 :=
  Nat.Coprime.pow_left w (Nat.coprime_two_left.mpr (Nat.odd_iff.mpr hc))

/-- Multiplication by an odd constant loses nothing. -/
theorem mul_injective_of_odd {c : BitVec w} (hc : c.toNat % 2 = 1) :
    Function.Injective fun x : BitVec w => x * c := by
  intro x y hxy
  have hmod : x.toNat * c.toNat ≡ y.toNat * c.toNat [MOD 2 ^ w] := by
    have hnat := congrArg BitVec.toNat hxy
    rwa [BitVec.toNat_mul, BitVec.toNat_mul] at hnat
  have hcancel := Nat.ModEq.cancel_right_of_coprime (gcd_two_pow_of_odd hc) hmod
  exact BitVec.eq_of_toNat_eq (hcancel.eq_of_lt_of_lt x.isLt y.isLt)

/-- The state after so many steps of the walk that adds `c` each time. -/
def walk (s c : BitVec w) (steps : ℕ) : BitVec w := s + BitVec.ofNat w steps * c

@[simp] lemma walk_zero (s c : BitVec w) : walk s c 0 = s := by simp [walk]

/-- One more step of the walk. -/
lemma walk_succ (s c : BitVec w) (steps : ℕ) : walk s c (steps + 1) = walk s c steps + c := by
  rw [walk, walk, BitVec.ofNat_add, BitVec.add_mul, BitVec.add_assoc]
  congr 2
  exact BitVec.one_mul c

/-- A step of the walk changes the state. -/
lemma walk_succ_ne {s c : BitVec w} (hc : c ≠ 0) {k : ℕ} : walk s c (k + 1) ≠ walk s c k := by
  intro hwalk
  rw [walk_succ] at hwalk
  exact hc (BitVec.add_right_eq_self.mp hwalk)

/-- The walk by an odd constant has full period: it visits no state twice within `2 ^ w` steps. -/
theorem walk_injOn {s c : BitVec w} (hc : c.toNat % 2 = 1) {j k : ℕ} (hj : j < 2 ^ w)
    (hk : k < 2 ^ w) (hwalk : walk s c j = walk s c k) : j = k := by
  have hmul : BitVec.ofNat w j * c = BitVec.ofNat w k * c := (BitVec.add_right_inj s).mp hwalk
  have hsteps : BitVec.ofNat w j = BitVec.ofNat w k := mul_injective_of_odd hc hmul
  have hnat := congrArg BitVec.toNat hsteps
  rwa [BitVec.toNat_ofNat, BitVec.toNat_ofNat, Nat.mod_eq_of_lt hj, Nat.mod_eq_of_lt hk] at hnat

end WordMixing
