import GalayTracing.Foundation.ByteString
import Mathlib.Algebra.Ring.Nat

/-!
# Decimal texts of integers

The digits of an integer as they are written, without leading zeros, and the integer that a text of
digits denotes.
-/

namespace Decimal

/-- The digits of a natural number. -/
def ofNat (n : ℕ) : ByteString := (Nat.toDigits 10 n).map fun c => c.toNat.toUInt8

/-- The digits of an integer, with a minus in front if it is negative. -/
def ofInt (n : ℤ) : ByteString := if n < 0 then 0x2d :: ofNat n.natAbs else ofNat n.natAbs

/-- The natural number that a text denotes; `none` if it does not consist of digits. -/
def readNat (text : ByteString) : Option ℕ :=
  if text ≠ [] ∧ ∀ b ∈ text, b ∈ ascii "0123456789" then
    some (Nat.ofDigitChars 10 (text.map fun b => Char.ofNat b.toNat) 0)
  else none

/-- The integer that a text denotes. -/
def readInt (text : ByteString) : Option ℤ :=
  if text.head? = some 0x2d then (readNat text.tail).map fun n : ℕ => -(n : ℤ)
  else (readNat text).map fun n : ℕ => (n : ℤ)

variable {n : ℕ}

/-- A digit, as a byte and as a character. -/
lemma byte_of_isDigit {c : Char} (hc : c.isDigit = true) :
    Char.ofNat c.toNat.toUInt8.toNat = c ∧ c.toNat.toUInt8 ∈ ascii "0123456789" := by
  obtain ⟨hlower, hupper⟩ := Bool.and_eq_true_iff.mp hc
  have hlower : 48 ≤ c.toNat := of_decide_eq_true hlower
  have hupper : c.toNat ≤ 57 := of_decide_eq_true hupper
  have hbyte : c.toNat.toUInt8.toNat = c.toNat := by
    rw [Nat.toUInt8, UInt8.toNat_ofNat']
    exact Nat.mod_eq_of_lt (by omega)
  have hall : ∀ n ≤ 57, 48 ≤ n → n.toUInt8 ∈ ascii "0123456789" := by decide
  exact ⟨by rw [hbyte, Char.ofNat_toNat], hall _ hupper hlower⟩

/-- The digits of a number are digits. -/
lemma mem_ofNat {b : UInt8} (hb : b ∈ ofNat n) : b ∈ ascii "0123456789" := by
  obtain ⟨c, hc, rfl⟩ := List.mem_map.mp hb
  exact (byte_of_isDigit (Nat.isDigit_of_mem_toDigits (by decide) (by decide) hc)).2

/-- A number has a digit. -/
lemma ofNat_ne_nil : ofNat n ≠ [] := by
  rw [ofNat, ne_eq, List.map_eq_nil_iff]
  exact Nat.toDigits_ne_nil

/-- The digits of a number denote it. -/
theorem readNat_ofNat (n : ℕ) : readNat (ofNat n) = some n := by
  have hchars : (ofNat n).map (fun b => Char.ofNat b.toNat) = Nat.toDigits 10 n := by
    rw [ofNat, List.map_map]
    refine (List.map_congr_left fun c hc => ?_).trans (List.map_id _)
    exact (byte_of_isDigit (Nat.isDigit_of_mem_toDigits (by decide) (by decide) hc)).1
  have hdigits : ofNat n ≠ [] ∧ ∀ b ∈ ofNat n, b ∈ ascii "0123456789" :=
    ⟨ofNat_ne_nil, fun b hb => mem_ofNat hb⟩
  rw [readNat, if_pos hdigits, hchars, Nat.ofDigitChars_ten_toDigits]

/-- The digits of an integer denote it. -/
theorem readInt_ofInt (n : ℤ) : readInt (ofInt n) = some n := by
  unfold ofInt
  split_ifs with hneg
  · have hread : readInt (0x2d :: ofNat n.natAbs) = some (-(n.natAbs : ℤ)) := by
      rw [readInt, List.head?_cons, if_pos rfl, List.tail_cons, readNat_ofNat, Option.map_some]
    rw [hread, show -(n.natAbs : ℤ) = n by omega]
  · have hhead : (ofNat n.natAbs).head? ≠ some 0x2d := by
      intro hhead
      have hmem := mem_ofNat (List.mem_of_mem_head? hhead)
      revert hmem
      decide
    rw [readInt, if_neg hhead, readNat_ofNat, Option.map_some, show (n.natAbs : ℤ) = n by omega]

/-- A number below a power of ten has as many digits at most. -/
lemma length_ofNat_le {k : ℕ} (hk : 0 < k) (hn : n < 10 ^ k) : (ofNat n).length ≤ k := by
  rw [ofNat, List.length_map]
  exact (Nat.length_toDigits_le_iff (by decide) hk).mpr hn

/-- An integer between two powers of ten has as many digits at most, and a sign. -/
lemma length_ofInt_le {m : ℤ} {k : ℕ} (hk : 0 < k) (hm : m.natAbs < 10 ^ k) :
    (ofInt m).length ≤ k + 1 := by
  have hlength := length_ofNat_le hk hm
  unfold ofInt
  split_ifs
  · rw [List.length_cons]
    omega
  · omega

/-- The digits of an integer are digits, with a minus in front. -/
lemma mem_ofInt {m : ℤ} {b : UInt8} (hb : b ∈ ofInt m) : b ∈ ascii "-0123456789" := by
  have hdigit : ∀ b ∈ ascii "0123456789", b ∈ ascii "-0123456789" := by decide
  unfold ofInt at hb
  split_ifs at hb
  · rcases List.mem_cons.mp hb with rfl | hb
    · decide
    · exact hdigit b (mem_ofNat hb)
  · exact hdigit b (mem_ofNat hb)

end Decimal
