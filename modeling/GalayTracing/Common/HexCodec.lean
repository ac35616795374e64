import GalayTracing.Common.Identifiers

/-!
# The hexadecimal codec is exact

`formatHex` and `parseHex` are inverse to each other at every length, and the constructors of the
identifiers let nothing else through.  The texts that are accepted are described here by their
length and their characters; `Hex.Denotes` connects this description with the loops.
-/

namespace GalayTracing

/-- The hexadecimal digits of either case. -/
def hexDigits : ByteString := ascii "0123456789abcdefABCDEF"

/-- A text of two hexadecimal digits, of either case, for each of `n` bytes. -/
def IsHexText (n : ℕ) (hex : ByteString) : Prop := hex.length = 2 * n ∧ ∀ ch ∈ hex, ch ∈ hexDigits

variable {n : ℕ}

/-- A character has a value exactly if it is one of the digits. -/
lemma isSome_value_iff (ch : UInt8) : (Hex.value ch).isSome = true ↔ ch ∈ hexDigits := by
  have hall : ∀ b : UInt8, (Hex.value b).isSome = true ↔ b ∈ hexDigits :=
    forall_byte (by decide +kernel)
  exact hall ch

/-- The digits that are written are the lower-case ones. -/
lemma mem_kHexDigits_of_mem_encode {bytes : List UInt8} {ch : UInt8}
    (hch : ch ∈ Hex.encode bytes) : ch ∈ kHexDigits := by
  have hall : ∀ b : UInt8, ∀ ch ∈ Hex.pair b, ch ∈ kHexDigits := forall_byte (by decide +kernel)
  obtain ⟨byte, -, hpair⟩ := List.mem_flatMap.mp hch
  exact hall byte ch hpair

/-- Where characters are signed, the comparisons of `hexValue` go the same way: the bytes from
`0x80` on are below the digits then, and above them here. -/
lemma hexValue_eq_signed (ch : UInt8) :
    hexValue ch =
      let ch := ch.toInt8.toInt
      if 0x30 ≤ ch ∧ ch ≤ 0x39 then ch - 0x30
      else if 0x61 ≤ ch ∧ ch ≤ 0x66 then ch - 0x61 + 10
      else if 0x41 ≤ ch ∧ ch ≤ 0x46 then ch - 0x41 + 10
      else -1 := by
  revert ch
  exact forall_byte (by decide +kernel)

/-- A text denotes an array of `n` bytes exactly if it is a hexadecimal text of that length. -/
lemma isHexText_iff {hex : ByteString} :
    IsHexText n hex ↔ ∃ bytes : Bytes n, Hex.Denotes hex bytes.toList := by
  have hdigits : IsHexText n hex ↔ hex.length = 2 * n ∧ ∀ ch ∈ hex, (Hex.value ch).isSome = true :=
    and_congr_right fun _ => forall₂_congr fun ch _ => (isSome_value_iff ch).symm
  rw [hdigits, ← Hex.exists_denotes_iff]
  constructor
  · rintro ⟨bytes, hbytes, hd⟩
    exact ⟨⟨bytes, hbytes⟩, hd⟩
  · rintro ⟨bytes, hd⟩
    exact ⟨bytes.toList, bytes.length_toList, hd⟩

/-- `formatHex` of what a text denotes is the text lowered. -/
lemma formatHex_of_denotes {hex buffer : ByteString} {bytes : Bytes n}
    (hd : Hex.Denotes hex bytes.toList) (hbuffer : n * 2 ≤ buffer.length) :
    formatHex bytes.toList buffer = (true, hex.map Hex.lower ++ buffer.drop (n * 2)) := by
  rw [formatHex_of_le (by rwa [bytes.length_toList]), hd.encode_eq, bytes.length_toList]

/-- The text of an identifier that a text denotes is the text lowered. -/
lemma Identifier.toHex_of_denotes {hex : ByteString} {id : Identifier n}
    (hd : Hex.Denotes hex id.bytes.toList) : id.toHex = hex.map Hex.lower := by
  rw [toHex_eq, hd.encode_eq]

/-- The codec is exact at every length: what is written is read back, the texts that are read are
the hexadecimal texts of the right length and are written as they were, lowered, and everything
else becomes the identifier of zeros. -/
theorem hexCodec_exact (n : ℕ) :
    (∀ (bytes : Bytes n) (buffer : ByteString), n * 2 ≤ buffer.length →
      ∃ text : ByteString, text.length = 2 * n ∧ (∀ ch ∈ text, ch ∈ kHexDigits) ∧
        formatHex bytes.toList buffer = (true, text ++ buffer.drop (n * 2)) ∧
        ∀ out : Bytes n, parseHex text out = some (true, bytes)) ∧
    (∀ (hex : ByteString) (out : Bytes n), ∃ (parsed : Bool) (bytes : Bytes n),
      parseHex hex out = some (parsed, bytes) ∧ (parsed = true ↔ IsHexText n hex) ∧
        (parsed = true → ∀ buffer : ByteString, n * 2 ≤ buffer.length →
          formatHex bytes.toList buffer = (true, hex.map Hex.lower ++ buffer.drop (n * 2)))) ∧
    ∀ hex : ByteString,
      (IsHexText n hex → ∃ id : Identifier n, Identifier.fromHex hex = some id ∧
        id.toHex = hex.map Hex.lower ∧ id.toHexArray = hex.map Hex.lower) ∧
      (¬IsHexText n hex → Identifier.fromHex hex = some (Identifier.zero (n := n))) := by
  refine ⟨fun bytes buffer hbuffer => ?_, fun hex out => ?_, fun hex => ⟨fun hhex => ?_, ?_⟩⟩
  · refine ⟨Hex.encode bytes.toList, ?_, fun ch hch => mem_kHexDigits_of_mem_encode hch, ?_, ?_⟩
    · rw [Hex.length_encode, bytes.length_toList]
    · rw [formatHex_of_le (by rwa [bytes.length_toList]), bytes.length_toList]
    · exact parseHex_of_denotes (Hex.denotes_encode _)
  · by_cases hd : ∃ bytes : Bytes n, Hex.Denotes hex bytes.toList
    · obtain ⟨bytes, hbytes⟩ := hd
      refine ⟨true, bytes, parseHex_of_denotes hbytes out, ?_, fun _ buffer hbuffer => ?_⟩
      · simp only [isHexText_iff, true_iff]
        exact ⟨bytes, hbytes⟩
      · exact formatHex_of_denotes hbytes hbuffer
    · obtain ⟨bytes, hparse⟩ := parseHex_of_not_denotes hd out
      refine ⟨false, bytes, hparse, ?_, by intro h; cases h⟩
      simp only [isHexText_iff, Bool.false_eq_true, false_iff]
      exact hd
  · obtain ⟨bytes, hd⟩ := isHexText_iff.mp hhex
    have hid : Hex.Denotes hex (⟨bytes⟩ : Identifier n).bytes.toList := hd
    exact ⟨⟨bytes⟩, Identifier.fromHex_of_denotes hid, Identifier.toHex_of_denotes hid,
      Identifier.toHex_of_denotes hid⟩
  · intro hhex
    exact Identifier.fromHex_of_not_denotes (isHexText_iff.not.mp hhex)

end GalayTracing
