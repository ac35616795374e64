import GalayTracing.Foundation.Hex

/-!
# Trace and span identifiers

The hexadecimal codec of the identifiers and the two identifier types.  The codec works on buffers:
`parseHex` fills an array of bytes from a text and `formatHex` writes digits into a buffer of
characters, each with a loop over the bytes.  Reading a character outside the text is an error of
its own, the outer `none` of `parseHex`; the length check in front of the loop rules it out.

The results of the section on the codec say what the loops compute in terms of `Hex.Denotes` and
`Hex.encode`; nothing after it looks at the loops again.
-/

namespace GalayTracing

/-! ### Arrays of bytes -/

/-- `std::array<std::byte, n>`. -/
@[ext]
structure Bytes (n : ℕ) where
  /-- The bytes, in order. -/
  toList : List UInt8
  length_toList : toList.length = n
  deriving DecidableEq

namespace Bytes

variable {n : ℕ}

/-- The array of zeros. -/
def zero (n : ℕ) : Bytes n := ⟨List.replicate n 0, List.length_replicate⟩

/-- The array with one byte overwritten. -/
def set (bytes : Bytes n) (i : ℕ) (byte : UInt8) : Bytes n :=
  ⟨bytes.toList.set i byte, by rw [List.length_set, bytes.length_toList]⟩

/-- Overwriting a byte of an array is overwriting it in the list of its bytes. -/
@[simp] lemma toList_set (bytes : Bytes n) (i : ℕ) (byte : UInt8) :
    (bytes.set i byte).toList = bytes.toList.set i byte := rfl

@[simp] lemma toList_zero : (zero n).toList = List.replicate n 0 := rfl

end Bytes

/-! ### The hexadecimal codec -/

/-- `kHexDigits`. -/
def kHexDigits : ByteString := ascii "0123456789abcdef"

/-- `detail::hexValue`: the value of a hexadecimal digit, and -1 for the other characters. -/
def hexValue (ch : UInt8) : ℤ :=
  if 0x30 ≤ ch ∧ ch ≤ 0x39 then ch.toNat - 0x30
  else if 0x61 ≤ ch ∧ ch ≤ 0x66 then ch.toNat - 0x61 + 10
  else if 0x41 ≤ ch ∧ ch ≤ 0x46 then ch.toNat - 0x41 + 10
  else -1

/-- `detail::hasNonZeroByte`. -/
def hasNonZeroByte (bytes : List UInt8) : Bool := bytes.any (· != 0)

/-- The byte with the given halves, `(high << 4) | low`. -/
def joinHalves (high low : ℤ) : UInt8 := UInt8.ofNat (high.toNat <<< 4 ||| low.toNat)

variable {n : ℕ}

/-- The loop of `detail::parseHex` from the byte `i` on, with so many bytes remaining. -/
def parseHexLoop (hex : ByteString) : ℕ → ℕ → Bytes n → Option (Bool × Bytes n)
  | _, 0, out => some (true, out)
  | i, remaining + 1, out => do
    let high := hexValue (← hex[i * 2]?)
    let low := hexValue (← hex[i * 2 + 1]?)
    if high < 0 ∨ low < 0 then
      return (false, out)
    parseHexLoop hex (i + 1) remaining (out.set i (joinHalves high low))

/-- `detail::parseHex`: the success of the parse, and the array as it was left.  It is `none` if a
character outside the text is read. -/
def parseHex (hex : ByteString) (out : Bytes n) : Option (Bool × Bytes n) :=
  if hex.length ≠ n * 2 then some (false, out) else parseHexLoop hex 0 n out

/-- The loop of `detail::formatHex` over the bytes from the byte `i` on. -/
def formatHexLoop : ℕ → List UInt8 → ByteString → ByteString
  | _, [], out => out
  | i, byte :: bytes, out =>
    formatHexLoop (i + 1) bytes
      ((out.set (i * 2) (kHexDigits.getD (byte >>> 4).toNat 0)).set (i * 2 + 1)
        (kHexDigits.getD (byte &&& 0x0f).toNat 0))

/-- `detail::formatHex`: the success, and the buffer as it was left. -/
def formatHex (bytes : List UInt8) (out : ByteString) : Bool × ByteString :=
  if out.length < bytes.length * 2 then (false, out) else (true, formatHexLoop 0 bytes out)

/-- `hexValue` is the value of a digit, and negative exactly when there is none. -/
lemma hexValue_eq (ch : UInt8) : hexValue ch = (Hex.value ch).elim (-1) (fun v => (v : ℤ)) := by
  have hall : ∀ b : UInt8, hexValue b = (Hex.value b).elim (-1) (fun v => (v : ℤ)) :=
    forall_byte (by decide +kernel)
  exact hall ch

/-- The value of a digit. -/
lemma hexValue_of_value {ch : UInt8} {v : ℕ} (hv : Hex.value ch = some v) : hexValue ch = v := by
  rw [hexValue_eq, hv]
  rfl

/-- The value of a character that is no digit. -/
lemma hexValue_of_none {ch : UInt8} (hv : Hex.value ch = none) : hexValue ch = -1 := by
  rw [hexValue_eq, hv]
  rfl

/-- Joining the halves with shift and or is the byte the two digits stand for. -/
lemma joinHalves_eq {high low : ℕ} (hh : high < 16) (hl : low < 16) :
    joinHalves high low = Hex.byteOf high low := by
  have hall : ∀ high < 16, ∀ low < 16, joinHalves (high : ℕ) (low : ℕ) = Hex.byteOf high low := by
    decide +kernel
  exact hall high hh low hl

/-- The digits written for a byte are its hexadecimal digits. -/
lemma pair_eq (byte : UInt8) :
    Hex.pair byte =
      [kHexDigits.getD (byte >>> 4).toNat 0, kHexDigits.getD (byte &&& 0x0f).toNat 0] := by
  have hall : ∀ b : UInt8, Hex.pair b =
      [kHexDigits.getD (b >>> 4).toNat 0, kHexDigits.getD (b &&& 0x0f).toNat 0] :=
    forall_byte (by decide +kernel)
  exact hall byte

/-- Overwriting what follows a part of a list leaves that part alone. -/
lemma set_append_cons {α : Type*} (pre : List α) (a b : α) (post : List α) {i : ℕ}
    (hi : i = pre.length) : (pre ++ a :: post).set i b = pre ++ b :: post := by
  subst hi
  rw [List.set_append_right _ _ (Nat.le_refl _), Nat.sub_self, List.set_cons_zero]

/-- The loop of `parseHex` decodes the part of the text that is left, if it denotes bytes. -/
lemma parseHexLoop_of_denotes {pre text : ByteString} {bytes : List UInt8}
    (hd : Hex.Denotes text bytes) {i : ℕ} (hpre : pre.length = i * 2) {done todo : List UInt8}
    {out : Bytes n} (hout : out.toList = done ++ todo) (hdone : done.length = i)
    (htodo : todo.length = bytes.length) :
    ∃ out' : Bytes n, parseHexLoop (pre ++ text) i bytes.length out = some (true, out') ∧
      out'.toList = done ++ bytes := by
  induction hd generalizing pre i done todo out with
  | nil =>
    obtain rfl := List.length_eq_zero_iff.mp htodo
    exact ⟨out, rfl, hout⟩
  | @cons h l high low text bytes hh hl _ ih =>
    obtain ⟨old, todo, rfl⟩ := List.exists_of_length_succ todo htodo
    have hread : (pre ++ h :: l :: text)[i * 2]? = some h := by simp [← hpre]
    have hread' : (pre ++ h :: l :: text)[i * 2 + 1]? = some l := by simp [← hpre]
    have hsplit : pre ++ h :: l :: text = (pre ++ [h, l]) ++ text := by simp
    have hpre' : (pre ++ [h, l]).length = (i + 1) * 2 := by
      rw [List.length_append, hpre]
      simp
      omega
    have hout' : (out.set i (Hex.byteOf high low)).toList =
        (done ++ [Hex.byteOf high low]) ++ todo := by
      rw [Bytes.toList_set, hout, set_append_cons done _ _ _ hdone.symm]
      simp
    obtain ⟨out', hloop, hlist⟩ := ih hpre' hout' (by simp [hdone]) (by simpa using htodo)
    refine ⟨out', ?_, by simpa using hlist⟩
    rw [List.length_cons, parseHexLoop, hread, hread']
    simp only [Option.bind_eq_bind, Option.bind_some, hexValue_of_value hh, hexValue_of_value hl]
    rw [if_neg (by omega), joinHalves_eq (Hex.value_lt hh) (Hex.value_lt hl), hsplit]
    exact hloop

/-- The loop of `parseHex` fails, without reading outside the text, if the part of the text that is
left does not denote bytes. -/
lemma parseHexLoop_of_not_denotes {pre text : ByteString} {remaining i : ℕ}
    (hpre : pre.length = i * 2) (htext : text.length = 2 * remaining)
    (hnot : ∃ ch ∈ text, Hex.value ch = none) (out : Bytes n) :
    ∃ out' : Bytes n, parseHexLoop (pre ++ text) i remaining out = some (false, out') := by
  induction remaining generalizing pre text i out with
  | zero =>
    obtain rfl := List.length_eq_zero_iff.mp htext
    obtain ⟨ch, hch, -⟩ := hnot
    cases hch
  | succ remaining ih =>
    match text, htext with
    | h :: l :: text, htext =>
      have hread : (pre ++ h :: l :: text)[i * 2]? = some h := by simp [← hpre]
      have hread' : (pre ++ h :: l :: text)[i * 2 + 1]? = some l := by simp [← hpre]
      have hsplit : pre ++ h :: l :: text = (pre ++ [h, l]) ++ text := by simp
      rw [parseHexLoop, hread, hread']
      simp only [Option.bind_eq_bind, Option.bind_some]
      cases hh : Hex.value h with
      | none =>
        rw [hexValue_of_none hh, if_pos (Or.inl (by decide))]
        exact ⟨out, rfl⟩
      | some high =>
        cases hl : Hex.value l with
        | none =>
          rw [hexValue_of_none hl, if_pos (Or.inr (by decide))]
          exact ⟨out, rfl⟩
        | some low =>
          rw [hexValue_of_value hh, hexValue_of_value hl, if_neg (by omega), hsplit]
          apply ih
          · rw [List.length_append, hpre]
            simp
            omega
          · simpa [Nat.mul_succ] using htext
          · simpa [hh, hl] using hnot

/-- `parseHex` decodes a text that denotes bytes. -/
theorem parseHex_of_denotes {hex : ByteString} {bytes : Bytes n}
    (hd : Hex.Denotes hex bytes.toList) (out : Bytes n) :
    parseHex hex out = some (true, bytes) := by
  have hlen : hex.length = n * 2 := by rw [hd.length, bytes.length_toList, Nat.mul_comm]
  have hpre : ([] : ByteString).length = 0 * 2 := rfl
  have htodo : out.toList.length = bytes.toList.length := by
    rw [out.length_toList, bytes.length_toList]
  obtain ⟨out', hloop, hlist⟩ :=
    parseHexLoop_of_denotes hd hpre (List.nil_append out.toList).symm rfl htodo
  have heq : out' = bytes := Bytes.ext hlist
  rw [bytes.length_toList, heq] at hloop
  rw [parseHex, if_neg (not_not.mpr hlen)]
  exact hloop

/-- `parseHex` fails on every other text, and reads nothing outside it. -/
theorem parseHex_of_not_denotes {hex : ByteString}
    (hnot : ¬∃ bytes : Bytes n, Hex.Denotes hex bytes.toList) (out : Bytes n) :
    ∃ out' : Bytes n, parseHex hex out = some (false, out') := by
  rw [parseHex]
  split_ifs with hlen
  · exact ⟨out, rfl⟩
  · have hlen' : hex.length = 2 * n := by rw [not_not.mp hlen, Nat.mul_comm]
    have hpre : ([] : ByteString).length = 0 * 2 := rfl
    apply parseHexLoop_of_not_denotes hpre hlen'
    by_contra hall
    push Not at hall
    obtain ⟨bytes, hbytes, hd⟩ := Hex.exists_denotes_iff.mpr
      ⟨hlen', fun ch hch => Option.isSome_iff_ne_none.mpr (hall ch hch)⟩
    exact hnot ⟨⟨bytes, hbytes⟩, hd⟩

/-- The loop of `formatHex` writes the digits of the bytes and leaves the rest alone. -/
lemma formatHexLoop_eq (bytes : List UInt8) {i : ℕ} {done todo : ByteString}
    (hdone : done.length = i * 2) (htodo : bytes.length * 2 ≤ todo.length) :
    formatHexLoop i bytes (done ++ todo) =
      done ++ Hex.encode bytes ++ todo.drop (bytes.length * 2) := by
  induction bytes generalizing i done todo with
  | nil => simp [formatHexLoop]
  | cons byte bytes ih =>
    match todo, htodo with
    | [], htodo => exact absurd htodo (by simp)
    | [_], htodo => exact absurd htodo (by simp; omega)
    | a :: b :: todo, htodo =>
      have hset : ∀ x y : UInt8, ((done ++ a :: b :: todo).set (i * 2) x).set (i * 2 + 1) y =
          (done ++ [x, y]) ++ todo := by
        intro x y
        rw [set_append_cons done a x _ hdone.symm]
        have hlen : i * 2 + 1 = (done ++ [x]).length := by simp [hdone]
        simpa using set_append_cons (done ++ [x]) b y todo hlen
      rw [formatHexLoop, hset, ih (by simp [hdone]; omega) (by simp at htodo; omega)]
      simp [Hex.encode_cons, pair_eq, Nat.succ_mul]

/-- `formatHex` writes two digits for each byte and leaves the rest of the buffer alone. -/
theorem formatHex_of_le {bytes : List UInt8} {out : ByteString}
    (hout : bytes.length * 2 ≤ out.length) :
    formatHex bytes out = (true, Hex.encode bytes ++ out.drop (bytes.length * 2)) := by
  rw [formatHex, if_neg (Nat.not_lt.mpr hout)]
  have hdone : ([] : ByteString).length = 0 * 2 := rfl
  have hloop := formatHexLoop_eq bytes hdone hout
  rw [List.nil_append, List.nil_append] at hloop
  rw [hloop]

/-! ### The identifiers -/

/-- An identifier of `n` bytes: `TraceId` and `SpanId` differ in their length only. -/
@[ext]
structure Identifier (n : ℕ) where
  /-- `m_bytes`. -/
  bytes : Bytes n
  deriving DecidableEq

namespace Identifier

/-- The identifier of zeros, which is not valid. -/
def zero : Identifier n := ⟨Bytes.zero n⟩

/-- `isValid`: the identifier is not all zeros. -/
def isValid (id : Identifier n) : Bool := hasNonZeroByte id.bytes.toList

/-- `fromHex`: the identifier of a text, `zero` if the text is malformed.  It is `none` if a
character outside the text is read. -/
def fromHex (hex : ByteString) : Option (Identifier n) := do
  let (parsed, bytes) ← parseHex hex (zero (n := n)).bytes
  let id : Identifier n := ⟨bytes⟩
  if !parsed || !id.isValid then
    return zero
  return id

/-- `toHex`: the text of an identifier. -/
def toHex (id : Identifier n) : ByteString :=
  (formatHex id.bytes.toList (List.replicate (n * 2) 0)).2

/-- `toHexArray`: the same text in an array of fixed size. -/
def toHexArray (id : Identifier n) : ByteString := id.toHex

/-- The text of an identifier is the encoding of its bytes. -/
lemma toHex_eq (id : Identifier n) : id.toHex = Hex.encode id.bytes.toList := by
  rw [toHex, formatHex_of_le (by simp [id.bytes.length_toList]), id.bytes.length_toList,
    List.drop_eq_nil_of_le (by simp), List.append_nil]

/-- The identifier of zeros is not valid. -/
@[simp] lemma isValid_zero : (zero : Identifier n).isValid = false := by
  simp [isValid, zero, hasNonZeroByte]

/-- An identifier that is not valid is the identifier of zeros. -/
lemma eq_zero_of_not_isValid {id : Identifier n} (hid : id.isValid = false) : id = zero := by
  have hzero : ∀ b ∈ id.bytes.toList, b = 0 := by simpa [isValid, hasNonZeroByte] using hid
  refine Identifier.ext (Bytes.ext ?_)
  exact List.eq_replicate_iff.mpr ⟨id.bytes.length_toList, hzero⟩

/-- A text that denotes the bytes of an identifier is read as that identifier. -/
theorem fromHex_of_denotes {hex : ByteString} {id : Identifier n}
    (hd : Hex.Denotes hex id.bytes.toList) : fromHex hex = some id := by
  rw [fromHex, parseHex_of_denotes hd]
  cases hvalid : id.isValid with
  | true => simp [hvalid]
  | false =>
    obtain rfl := eq_zero_of_not_isValid hvalid
    simp

/-- Every other text is read as zero. -/
theorem fromHex_of_not_denotes {hex : ByteString}
    (hnot : ¬∃ bytes : Bytes n, Hex.Denotes hex bytes.toList) :
    fromHex hex = some (zero (n := n)) := by
  obtain ⟨out', hparse⟩ := parseHex_of_not_denotes hnot (zero (n := n)).bytes
  rw [fromHex, hparse]
  simp

/-- The text of an identifier is read as that identifier. -/
theorem fromHex_toHex (id : Identifier n) : fromHex id.toHex = some id := by
  rw [toHex_eq]
  exact fromHex_of_denotes (Hex.denotes_encode _)

/-- `fromHex` never reads outside its text. -/
lemma exists_fromHex_eq (hex : ByteString) : ∃ id : Identifier n, fromHex hex = some id := by
  by_cases hd : ∃ bytes : Bytes n, Hex.Denotes hex bytes.toList
  · obtain ⟨bytes, hd⟩ := hd
    exact ⟨⟨bytes⟩, fromHex_of_denotes hd⟩
  · exact ⟨zero, fromHex_of_not_denotes hd⟩

/-- A valid identifier is read from exactly the texts that denote its bytes. -/
theorem fromHex_eq_some_iff {hex : ByteString} {id : Identifier n} (hid : id.isValid = true) :
    fromHex hex = some id ↔ Hex.Denotes hex id.bytes.toList := by
  refine ⟨fun heq => ?_, fromHex_of_denotes⟩
  by_cases hd : ∃ bytes : Bytes n, Hex.Denotes hex bytes.toList
  · obtain ⟨bytes, hd⟩ := hd
    have hbytes : fromHex hex = some (⟨bytes⟩ : Identifier n) := fromHex_of_denotes hd
    rw [← Option.some_inj.mp (hbytes.symm.trans heq)]
    exact hd
  · rw [fromHex_of_not_denotes hd] at heq
    rw [← Option.some_inj.mp heq, isValid_zero] at hid
    cases hid

end Identifier

/-- `TraceId::kByteLength`. -/
def TraceId.kByteLength : ℕ := 16

/-- `TraceId::kHexLength`. -/
def TraceId.kHexLength : ℕ := TraceId.kByteLength * 2

/-- `SpanId::kByteLength`. -/
def SpanId.kByteLength : ℕ := 8

/-- `SpanId::kHexLength`. -/
def SpanId.kHexLength : ℕ := SpanId.kByteLength * 2

/-- The identifier of a trace. -/
abbrev TraceId := Identifier TraceId.kByteLength

/-- The identifier of a span. -/
abbrev SpanId := Identifier SpanId.kByteLength

end GalayTracing
