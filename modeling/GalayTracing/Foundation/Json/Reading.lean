import GalayTracing.Foundation.Json.Grammar

/-!
# Reading JSON values

The bytes that the characters of a string stand for, and the members of an object by their names.  A
code unit stands for its UTF-8 encoding; two surrogates stand for one character.
-/

namespace JsonChar

/-- The code unit of four digits. -/
def codeUnit (a b c d : UInt8) : ℕ :=
  [a, b, c, d].foldl (fun n ch => 16 * n + (Hex.value ch).getD 0) 0

/-- The UTF-8 encoding of a code point. -/
def encodeUtf8 (n : ℕ) : ByteString := String.utf8EncodeChar (Char.ofNat n)

/-- The bytes that the characters of a string stand for; `none` if a surrogate stands alone. -/
def unescape : List JsonChar → Option ByteString
  | [] => some []
  | .byte b :: chars => (unescape chars).map (b :: ·)
  | .escape c :: chars => (escaped c).bind fun b => (unescape chars).map (b :: ·)
  | .unicode a b c d :: chars =>
    let high := codeUnit a b c d
    if 0xd800 ≤ high ∧ high < 0xdc00 then
      match chars with
      | .unicode p q r s :: chars =>
        let low := codeUnit p q r s
        if 0xdc00 ≤ low ∧ low < 0xe000 then
          (unescape chars).map
            (encodeUtf8 (0x10000 + 0x400 * (high - 0xd800) + (low - 0xdc00)) ++ ·)
        else none
      | _ => none
    else if 0xdc00 ≤ high ∧ high < 0xe000 then none
    else (unescape chars).map (encodeUtf8 high ++ ·)

/-- The characters of a text that needs no escape sequences. -/
def plain (text : ByteString) : List JsonChar := text.map .byte

variable {text : ByteString} {chars : List JsonChar}

@[simp] lemma unescape_nil : unescape [] = some [] := rfl

/-- A byte stands for itself. -/
lemma unescape_byte (b : UInt8) (chars : List JsonChar) :
    unescape (.byte b :: chars) = (unescape chars).map (b :: ·) := rfl

/-- An escape sequence of two characters stands for one byte. -/
lemma unescape_escape {c b : UInt8} (hc : escaped c = some b) :
    unescape (.escape c :: chars) = (unescape chars).map (b :: ·) := by
  have hunfold : unescape (.escape c :: chars) =
      (escaped c).bind fun b => (unescape chars).map (b :: ·) := rfl
  rw [hunfold, hc, Option.bind_some]

/-- A backslash in front of a quote or of a backslash stands for that character. -/
lemma escaped_self {b : UInt8} (hb : b = 0x22 ∨ b = 0x5c) : escaped b = some b := by
  rcases hb with rfl | rfl
  · decide
  · decide

/-- A code unit stands for its encoding, unless it is a surrogate. -/
lemma exists_unescape_unicode (a b c d : UInt8) (chars : List JsonChar) :
    ∃ paired, unescape (.unicode a b c d :: chars) =
      if 0xd800 ≤ codeUnit a b c d ∧ codeUnit a b c d < 0xdc00 then paired
      else if 0xdc00 ≤ codeUnit a b c d ∧ codeUnit a b c d < 0xe000 then none
      else (unescape chars).map (encodeUtf8 (codeUnit a b c d) ++ ·) := by
  cases chars with
  | nil => exact ⟨_, rfl⟩
  | cons next chars =>
    cases next with
    | byte b => exact ⟨_, rfl⟩
    | escape c => exact ⟨_, rfl⟩
    | unicode p q r s => exact ⟨_, rfl⟩

/-- A code unit below 0x80 stands for one byte. -/
lemma unescape_unicode {a b c d byte : UInt8} (hunit : codeUnit a b c d = byte.toNat)
    (hbyte : byte < 0x80) :
    unescape (.unicode a b c d :: chars) = (unescape chars).map (byte :: ·) := by
  have hencode : ∀ b : UInt8, b < 0x80 → encodeUtf8 b.toNat = [b] := forall_byte (by decide +kernel)
  have hlt := byte.toNat_lt
  obtain ⟨paired, hunfold⟩ := exists_unescape_unicode a b c d chars
  rw [hunfold, hunit, if_neg (by omega), if_neg (by omega), hencode byte hbyte]
  rfl

/-- If every byte of a text is written as a character that stands for it, the text is read back. -/
lemma unescape_map {escape : UInt8 → JsonChar}
    (hescape : ∀ b chars, unescape (escape b :: chars) = (unescape chars).map (b :: ·))
    (text : ByteString) : unescape (text.map escape) = some text := by
  induction text with
  | nil => rfl
  | cons b text ih => rw [List.map_cons, hescape, ih, Option.map_some]

/-- A plain text stands for itself. -/
@[simp] lemma unescape_plain (text : ByteString) : unescape (plain text) = some text :=
  unescape_map unescape_byte text

/-- A plain text is its own rendering. -/
@[simp] lemma flatMap_render_plain (text : ByteString) : (plain text).flatMap render = text := by
  induction text with
  | nil => rfl
  | cons b text ih => exact congrArg (b :: ·) ih

/-- A loop that appends a character for each byte of a text appends the text of these characters. -/
lemma foldl_append_render {step : ByteString → UInt8 → ByteString} {escape : UInt8 → JsonChar}
    (hstep : ∀ out b, step out b = out ++ (escape b).render) (out text : ByteString) :
    text.foldl step out = out ++ (text.map escape).flatMap render := by
  induction text generalizing out with
  | nil => simp
  | cons b text ih =>
    rw [List.foldl_cons, ih, hstep, List.map_cons, List.flatMap_cons, List.append_assoc]

end JsonChar

namespace Json

/-- The value of the first member of an object with the given name. -/
def member (name : ByteString) : Json → Option Json
  | .object ms => (ms.find? fun m => decide (JsonChar.unescape m.1 = some name)).map (·.2)
  | _ => none

/-- The bytes a string stands for. -/
def asString : Json → Option ByteString
  | .string chars => JsonChar.unescape chars
  | _ => none

/-- The elements of an array. -/
def asArray : Json → Option (List Json)
  | .array vs => some vs
  | _ => none

/-- A truth value. -/
def asBool : Json → Option Bool
  | .bool b => some b
  | _ => none

/-- The member with the given name, read by a function, or a default when it is absent. -/
def readMemberD {α : Type} (name : ByteString) (absent : α) (read : Json → Option α) (v : Json) :
    Option α :=
  match v.member name with
  | none => some absent
  | some w => read w

/-- The value of a text that needs no escape sequences. -/
def plainJson (text : ByteString) : Json := .string (JsonChar.plain text)

/-- A member with a plain name. -/
def field (name : ByteString) (v : Json) : List JsonChar × Json := (JsonChar.plain name, v)

/-- The first member is found by its name, and the others are not. -/
lemma member_field_cons (key name : ByteString) (v : Json) (ms : List (List JsonChar × Json)) :
    (Json.object (field key v :: ms)).member name =
      if key = name then some v else (Json.object ms).member name := by
  by_cases hkey : key = name
  · simp [member, field, hkey]
  · simp [member, field, hkey]

/-- A member is searched in the first members, and then in the others. -/
lemma member_append (name : ByteString) (ms ns : List (List JsonChar × Json)) :
    (Json.object (ms ++ ns)).member name =
      ((Json.object ms).member name).or ((Json.object ns).member name) := by
  simp only [member, List.find?_append]
  cases ms.find? fun m => decide (JsonChar.unescape m.1 = some name) with
  | none => rfl
  | some m => rfl

@[simp] lemma member_nil (name : ByteString) : (Json.object []).member name = none := rfl

/-- A plain text is read back. -/
@[simp] lemma asString_plainJson (text : ByteString) : (plainJson text).asString = some text := by
  rw [plainJson, asString, JsonChar.unescape_plain]

/-! ### The texts of plain values -/

/-- A plain text is written between quotes. -/
lemma stringText_plain (text : ByteString) :
    stringText (JsonChar.plain text) = 0x22 :: text ++ [0x22] := by
  rw [stringText, JsonChar.flatMap_render_plain]

/-- The value of a plain text is written between quotes. -/
lemma render_plainJson (text : ByteString) : render (plainJson text) = 0x22 :: text ++ [0x22] := by
  rw [plainJson, render, stringText_plain]

/-- A member with a plain name is written as the name between quotes, a colon and the value. -/
lemma renderMember_field (name : ByteString) (v : Json) :
    renderMember (field name v) = 0x22 :: name ++ [0x22] ++ 0x3a :: render v := by
  rw [renderMember, field, stringText_plain]

/-- Every member of an object but the first one follows a comma. -/
lemma render_object_cons (m : List JsonChar × Json) (ms : List (List JsonChar × Json)) :
    render (.object (m :: ms)) =
      0x7b :: (renderMember m ++ ms.flatMap fun n => 0x2c :: renderMember n) ++ [0x7d] := by
  rw [render, renderMembers_cons]

/-! ### The restricted parts of plain values -/

/-- Hexadecimal digits are allowed in a string. -/
lemma valid_encode (bytes : List UInt8) : ∀ b ∈ Hex.encode bytes, (JsonChar.byte b).Valid := by
  have hpair : ∀ byte, ∀ b ∈ Hex.pair byte, (JsonChar.byte b).Valid :=
    forall_byte (by decide +kernel)
  intro b hb
  obtain ⟨byte, -, hb⟩ := List.mem_flatMap.mp hb
  exact hpair byte b hb

section Every

variable {p : Leaf → Prop} (hp : ∀ c : JsonChar, c.Valid → p (.char c))

include hp

/-- The characters of a plain text of bytes that are allowed in a string. -/
lemma forall_plain {text : ByteString} (htext : ∀ b ∈ text, (JsonChar.byte b).Valid) :
    ∀ c ∈ JsonChar.plain text, p (.char c) := by
  intro c hc
  obtain ⟨b, hb, rfl⟩ := List.mem_map.mp hc
  exact hp _ (htext b hb)

/-- A plain text of bytes that are allowed in a string. -/
lemma every_plainJson {text : ByteString} (htext : ∀ b ∈ text, (JsonChar.byte b).Valid) :
    (plainJson text).Every p :=
  every_string.mpr (forall_plain hp htext)

/-- A text of hexadecimal digits. -/
lemma every_encode (bytes : List UInt8) : (plainJson (Hex.encode bytes)).Every p :=
  every_plainJson hp (valid_encode bytes)

/-- The first member of an object has a plain name. -/
lemma every_field_cons {name : ByteString} (hname : ∀ b ∈ name, (JsonChar.byte b).Valid) {v : Json}
    {ms : List (List JsonChar × Json)} :
    (Json.object (field name v :: ms)).Every p ↔ v.Every p ∧ (Json.object ms).Every p := by
  rw [every_object_cons, field]
  exact and_congr_left fun _ => and_iff_right (forall_plain hp hname)

end Every

end Json
