import Mathlib.Data.Int.Order.Basic
import Mathlib.Data.List.Basic
import Mathlib.Tactic.Common

/-!
# Byte strings

A C++ string holds arbitrary bytes, so texts are lists of bytes.  A claim about single bytes is a
finite check; `forall_byte` turns it into one that can be evaluated.
-/

/-- A string of arbitrary bytes. -/
abbrev ByteString := List UInt8

/-- The bytes of a literal in the ASCII character set. -/
def ascii (s : String) : ByteString := s.toList.map fun c => c.toNat.toUInt8

/-- A claim about the bytes of a text is decided byte by byte, and not for all bytes there are. -/
instance (priority := 2000) decidableForallMem (p : UInt8 → Prop) [DecidablePred p]
    (text : ByteString) : Decidable (∀ b ∈ text, p b) := text.decidableBAll p

/-- What holds of all numbers below 256, read as bytes, holds of all bytes. -/
theorem forall_byte {p : UInt8 → Prop} (h : ∀ n < 256, p (UInt8.ofNat n)) (b : UInt8) : p b := by
  have hb := h b.toNat b.toNat_lt
  rwa [UInt8.ofNat_toNat] at hb
