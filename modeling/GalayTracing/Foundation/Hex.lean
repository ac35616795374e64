import GalayTracing.Foundation.ByteString

/-!
# Hexadecimal texts

What a hexadecimal text denotes: every pair of digits, of either case, is one byte, the high half
first.  `Hex.encode` writes the canonical lower-case text, and a text denotes the bytes whose
encoding is the text itself with its letters lowered.
-/

namespace Hex

/-- The sixteen digits, in the order of their values. -/
def digits : ByteString := ascii "0123456789abcdef"

/-- The digit of a value. -/
def digit (n : ℕ) : UInt8 := digits.getD n 0

/-- A digit with the letters `A` to `F` lowered. -/
def lower (ch : UInt8) : UInt8 := if 0x41 ≤ ch ∧ ch ≤ 0x46 then ch + 0x20 else ch

/-- The value of a digit of either case; `none` for the other characters. -/
def value (ch : UInt8) : Option ℕ := digits.idxOf? (lower ch)

/-- The two digits of a byte, high half first. -/
def pair (byte : UInt8) : ByteString := [digit (byte.toNat / 16), digit (byte.toNat % 16)]

/-- The lower-case text of a string of bytes. -/
def encode (bytes : List UInt8) : ByteString := bytes.flatMap pair

@[simp] lemma encode_nil : encode [] = [] := rfl

@[simp] lemma encode_cons (byte : UInt8) (bytes : List UInt8) :
    encode (byte :: bytes) = pair byte ++ encode bytes := rfl

/-- The encoding has two digits for each byte. -/
@[simp] lemma length_encode (bytes : List UInt8) : (encode bytes).length = 2 * bytes.length := by
  induction bytes with
  | nil => rfl
  | cons byte bytes ih =>
    rw [encode_cons, List.length_append, ih, List.length_cons, pair, List.length_cons,
      List.length_singleton]
    omega

/-- The byte two digits stand for. -/
def byteOf (high low : ℕ) : UInt8 := UInt8.ofNat (16 * high + low)

/-- The digits of a byte have the values of its halves. -/
lemma value_digit {n : ℕ} (hn : n < 16) : value (digit n) = some n := by
  have hall : ∀ n < 16, value (digit n) = some n := by decide
  exact hall n hn

/-- The value of a digit is below sixteen. -/
lemma value_lt {ch : UInt8} {n : ℕ} (hv : value ch = some n) : n < 16 := by
  have hall : ∀ b : UInt8, (value b).all (· < 16) = true := forall_byte (by decide +kernel)
  have hch := hall ch
  rw [hv] at hch
  exact of_decide_eq_true hch

/-- A digit with its letter lowered is the canonical digit of its value. -/
lemma digit_of_value {ch : UInt8} {n : ℕ} (hv : value ch = some n) : digit n = lower ch := by
  have hall : ∀ b : UInt8, (value b).all (fun n => digit n == lower b) = true :=
    forall_byte (by decide +kernel)
  have hch := hall ch
  rw [hv] at hch
  exact beq_iff_eq.mp hch

/-- The halves of the byte that two digits stand for. -/
lemma pair_byteOf {high low : ℕ} (hh : high < 16) (hl : low < 16) :
    pair (byteOf high low) = [digit high, digit low] := by
  have hnat : (byteOf high low).toNat = 16 * high + low := by
    rw [byteOf, UInt8.toNat_ofNat']
    exact Nat.mod_eq_of_lt (by omega)
  rw [pair, hnat, show (16 * high + low) / 16 = high by omega,
    show (16 * high + low) % 16 = low by omega]

/-- A byte is the one its halves stand for. -/
lemma byteOf_halves (byte : UInt8) : byteOf (byte.toNat / 16) (byte.toNat % 16) = byte := by
  rw [byteOf, Nat.div_add_mod, UInt8.ofNat_toNat]

/-- `Denotes text bytes`: the text consists of two hexadecimal digits for each of the bytes. -/
inductive Denotes : ByteString → List UInt8 → Prop
  | nil : Denotes [] []
  | cons {h l : UInt8} {high low : ℕ} {text : ByteString} {bytes : List UInt8} :
    value h = some high → value l = some low → Denotes text bytes →
      Denotes (h :: l :: text) (byteOf high low :: bytes)

/-- The encoding of a string of bytes denotes it. -/
theorem denotes_encode (bytes : List UInt8) : Denotes (encode bytes) bytes := by
  induction bytes with
  | nil => exact .nil
  | cons byte bytes ih =>
    have hlt := byte.toNat_lt
    have hhigh : byte.toNat / 16 < 16 := by omega
    have hlow : byte.toNat % 16 < 16 := by omega
    have hcons := Denotes.cons (value_digit hhigh) (value_digit hlow) ih
    rw [byteOf_halves] at hcons
    exact hcons

/-- A text that denotes bytes has two characters for each of them. -/
lemma Denotes.length {text : ByteString} {bytes : List UInt8} (hd : Denotes text bytes) :
    text.length = 2 * bytes.length := by
  induction hd with
  | nil => rfl
  | cons _ _ _ ih =>
    rw [List.length_cons, List.length_cons, List.length_cons, ih]
    omega

/-- A text denotes one string of bytes at most. -/
lemma Denotes.unique {text : ByteString} {bytes bytes' : List UInt8} (hd : Denotes text bytes)
    (hd' : Denotes text bytes') : bytes = bytes' := by
  induction hd generalizing bytes' with
  | nil =>
    cases hd'
    rfl
  | cons hh hl _ ih =>
    cases hd' with
    | cons hh' hl' hrest =>
      obtain rfl := Option.some_inj.mp (hh.symm.trans hh')
      obtain rfl := Option.some_inj.mp (hl.symm.trans hl')
      rw [ih hrest]

/-- The encoding of what a text denotes is the text with its letters lowered. -/
theorem Denotes.encode_eq {text : ByteString} {bytes : List UInt8} (hd : Denotes text bytes) :
    encode bytes = text.map lower := by
  induction hd with
  | nil => rfl
  | cons hh hl _ ih =>
    rw [encode_cons, pair_byteOf (value_lt hh) (value_lt hl), ih, digit_of_value hh,
      digit_of_value hl]
    rfl

/-- The text of all zeros denotes the zero bytes. -/
lemma Denotes.eq_zero_iff {text : ByteString} {bytes : List UInt8} (hd : Denotes text bytes) :
    (∀ b ∈ bytes, b = 0) ↔ ∀ ch ∈ text, ch = 0x30 := by
  induction hd with
  | nil => simp
  | @cons h l high low text bytes hh hl _ ih =>
    have hzero : ∀ b : UInt8, value b = some 0 ↔ b = 0x30 := forall_byte (by decide +kernel)
    have hbyte : byteOf high low = 0 ↔ h = 0x30 ∧ l = 0x30 := by
      have hh16 := value_lt hh
      have hl16 := value_lt hl
      have hhz : h = 0x30 ↔ high = 0 := by rw [← hzero h, hh, Option.some_inj]
      have hlz : l = 0x30 ↔ low = 0 := by rw [← hzero l, hl, Option.some_inj]
      rw [hhz, hlz, ← UInt8.toNat_inj, byteOf, UInt8.toNat_ofNat', UInt8.toNat_zero,
        Nat.mod_eq_of_lt (by omega)]
      omega
    simp only [List.mem_cons, forall_eq_or_imp, ih, hbyte]
    exact and_assoc

/-- Whether a text denotes bytes can be told from its length and its characters. -/
lemma exists_denotes_iff {text : ByteString} {n : ℕ} :
    (∃ bytes, bytes.length = n ∧ Denotes text bytes) ↔
      text.length = 2 * n ∧ ∀ ch ∈ text, (value ch).isSome = true := by
  constructor
  · rintro ⟨bytes, rfl, hd⟩
    refine ⟨hd.length, ?_⟩
    induction hd with
    | nil => simp
    | cons hh hl _ ih => simpa [hh, hl] using ih
  · rintro ⟨hlen, hdigits⟩
    induction n generalizing text with
    | zero =>
      obtain rfl := List.length_eq_zero_iff.mp hlen
      exact ⟨[], rfl, .nil⟩
    | succ n ih =>
      match text, hlen with
      | h :: l :: rest, hlen =>
        simp only [List.mem_cons, forall_eq_or_imp] at hdigits
        obtain ⟨hh, hl, hrest⟩ := hdigits
        obtain ⟨bytes, hbytes, hd⟩ := ih (by simpa [Nat.mul_succ] using hlen) hrest
        obtain ⟨high, hh⟩ := Option.isSome_iff_exists.mp hh
        obtain ⟨low, hl⟩ := Option.isSome_iff_exists.mp hl
        exact ⟨byteOf high low :: bytes, by rw [List.length_cons, hbytes], .cons hh hl hd⟩

end Hex
