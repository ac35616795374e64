import GalayTracing.Foundation.Hex
import Mathlib.Computability.RegularExpressions

/-!
# The grammar of JSON texts

The grammar of RFC 8259, read over bytes: a character of a string is any byte from 0x20 on other
than the quote and the backslash, or an escape sequence.  A value keeps its numbers and the
characters of its strings as they are written, so that a text without white space between its tokens
is determined by its value (`Json.render`).
-/

/-- A character of a string as it is written: a byte that stands for itself, a backslash and a
character, or `\u` and four digits. -/
inductive JsonChar
  | byte (b : UInt8)
  | escape (c : UInt8)
  | unicode (a b c d : UInt8)
  deriving DecidableEq

/-- A JSON value. -/
inductive Json
  | null
  | bool (b : Bool)
  | number (text : ByteString)
  | string (chars : List JsonChar)
  | array (elements : List Json)
  | object (members : List (List JsonChar × Json))

/-- Induction over values: what holds of the scalar values, of an array when it holds of its
elements, and of an object when it holds of the values of its members, holds of every value. -/
@[elab_as_elim]
theorem Json.induction {motive : Json → Prop} (null : motive .null)
    (bool : ∀ b, motive (.bool b)) (number : ∀ text, motive (.number text))
    (string : ∀ chars, motive (.string chars))
    (array : ∀ vs, (∀ v ∈ vs, motive v) → motive (.array vs))
    (object : ∀ ms, (∀ m ∈ ms, motive m.2) → motive (.object ms)) (v : Json) : motive v := by
  refine @Json.rec motive (fun vs => ∀ v ∈ vs, motive v) (fun ms => ∀ m ∈ ms, motive m.2)
    (fun m => motive m.2) null bool number string array object ?_ ?_ ?_ ?_ ?_ v
  · simp
  · intro v vs hv hvs
    exact List.forall_mem_cons.mpr ⟨hv, hvs⟩
  · simp
  · intro m ms hm hms
    exact List.forall_mem_cons.mpr ⟨hm, hms⟩
  · intro key v hv
    exact hv

namespace JsonChar

/-- The byte that an escape sequence of two characters stands for. -/
def escaped (c : UInt8) : Option UInt8 :=
  ((ascii "\"\\/bfnrt").zip [0x22, 0x5c, 0x2f, 0x08, 0x0c, 0x0a, 0x0d, 0x09]).lookup c

/-- The text of a character. -/
def render : JsonChar → ByteString
  | .byte b => [b]
  | .escape c => [0x5c, c]
  | .unicode a b c d => [0x5c, 0x75, a, b, c, d]

/-- The character is allowed in a string. -/
def Valid : JsonChar → Prop
  | .byte b => 0x20 ≤ b ∧ b ≠ 0x22 ∧ b ≠ 0x5c
  | .escape c => (escaped c).isSome = true
  | .unicode a b c d => ∀ ch ∈ [a, b, c, d], (Hex.value ch).isSome = true

instance : DecidablePred Valid
  | .byte b => inferInstanceAs (Decidable (0x20 ≤ b ∧ b ≠ 0x22 ∧ b ≠ 0x5c))
  | .escape c => inferInstanceAs (Decidable ((escaped c).isSome = true))
  | .unicode a b c d => inferInstanceAs (Decidable (∀ ch ∈ [a, b, c, d], _))

end JsonChar

namespace Json

/-! ### Numbers -/

section RegularExpression

open RegularExpression

/-- One of some characters. -/
def oneOf (chars : ByteString) : RegularExpression UInt8 := (chars.map char).sum

/-- The grammar of an unsigned sequence of digits. -/
def digitsGrammar : RegularExpression UInt8 :=
  oneOf (ascii "0123456789") * star (oneOf (ascii "0123456789"))

/-- The grammar of numbers: an optional minus, an integer without leading zeros, an optional
fraction and an optional exponent. -/
def numberGrammar : RegularExpression UInt8 :=
  (1 + oneOf (ascii "-")) *
    (oneOf (ascii "0") + oneOf (ascii "123456789") * star (oneOf (ascii "0123456789"))) *
    (1 + oneOf (ascii ".") * digitsGrammar) *
    (1 + oneOf (ascii "eE") * (1 + oneOf (ascii "+-")) * digitsGrammar)

end RegularExpression

/-- The text is a number. -/
def IsNumber (text : ByteString) : Prop := text ∈ numberGrammar.matches'

instance : DecidablePred IsNumber := fun text =>
  inferInstanceAs (Decidable (text ∈ numberGrammar.matches'))

/-! ### The grammar -/

/-- White space. -/
def IsSpace (text : ByteString) : Prop := ∀ b ∈ text, b ∈ ascii " \t\n\r"

/-- A string between its quotes. -/
def stringText (chars : List JsonChar) : ByteString :=
  0x22 :: chars.flatMap JsonChar.render ++ [0x22]

/-- What a part of a text can stand for: a value, a value between white space, several such values
separated by commas, a member of an object, and several members. -/
inductive Node
  | value (v : Json)
  | element (v : Json)
  | elements (vs : List Json)
  | member (key : List JsonChar) (v : Json)
  | members (ms : List (List JsonChar × Json))

/-- `Denotes text node`: the text stands for the node. -/
inductive Denotes : ByteString → Node → Prop
  | null : Denotes (ascii "null") (.value .null)
  | bool (b : Bool) : Denotes (ascii (if b then "true" else "false")) (.value (.bool b))
  | number {text : ByteString} : IsNumber text → Denotes text (.value (.number text))
  | string {chars : List JsonChar} :
      (∀ c ∈ chars, c.Valid) → Denotes (stringText chars) (.value (.string chars))
  | emptyArray {space : ByteString} :
      IsSpace space → Denotes (0x5b :: space ++ [0x5d]) (.value (.array []))
  | array {text : ByteString} {vs : List Json} :
      Denotes text (.elements vs) → Denotes (0x5b :: text ++ [0x5d]) (.value (.array vs))
  | emptyObject {space : ByteString} :
      IsSpace space → Denotes (0x7b :: space ++ [0x7d]) (.value (.object []))
  | object {text : ByteString} {ms : List (List JsonChar × Json)} :
      Denotes text (.members ms) → Denotes (0x7b :: text ++ [0x7d]) (.value (.object ms))
  | element {before text after : ByteString} {v : Json} :
      IsSpace before → Denotes text (.value v) → IsSpace after →
      Denotes (before ++ text ++ after) (.element v)
  | lastElement {text : ByteString} {v : Json} :
      Denotes text (.element v) → Denotes text (.elements [v])
  | consElement {text text' : ByteString} {v : Json} {vs : List Json} :
      Denotes text (.element v) → Denotes text' (.elements vs) →
      Denotes (text ++ 0x2c :: text') (.elements (v :: vs))
  | member {before after text : ByteString} {key : List JsonChar} {v : Json} :
      IsSpace before → (∀ c ∈ key, c.Valid) → IsSpace after → Denotes text (.element v) →
      Denotes (before ++ stringText key ++ after ++ 0x3a :: text) (.member key v)
  | lastMember {text : ByteString} {key : List JsonChar} {v : Json} :
      Denotes text (.member key v) → Denotes text (.members [(key, v)])
  | consMember {text text' : ByteString} {key : List JsonChar} {v : Json}
      {ms : List (List JsonChar × Json)} :
      Denotes text (.member key v) → Denotes text' (.members ms) →
      Denotes (text ++ 0x2c :: text') (.members ((key, v) :: ms))

/-- The whole text is one JSON value. -/
def Document (text : ByteString) (v : Json) : Prop := Denotes text (.element v)

/-! ### Texts without white space -/

mutual

/-- The text of a value without white space. -/
def render : Json → ByteString
  | .null => ascii "null"
  | .bool b => ascii (if b then "true" else "false")
  | .number text => text
  | .string chars => stringText chars
  | .array vs => 0x5b :: renderElements vs ++ [0x5d]
  | .object ms => 0x7b :: renderMembers ms ++ [0x7d]

/-- The values of an array, separated by commas. -/
def renderElements : List Json → ByteString
  | [] => []
  | [v] => render v
  | v :: w :: vs => render v ++ 0x2c :: renderElements (w :: vs)

/-- The members of an object, separated by commas. -/
def renderMembers : List (List JsonChar × Json) → ByteString
  | [] => []
  | [(key, v)] => stringText key ++ 0x3a :: render v
  | (key, v) :: m :: ms => stringText key ++ 0x3a :: render v ++ 0x2c :: renderMembers (m :: ms)

end

/-- A member of an object without white space. -/
def renderMember (m : List JsonChar × Json) : ByteString := stringText m.1 ++ 0x3a :: render m.2

/-- Every element but the first one follows a comma. -/
lemma renderElements_cons (v : Json) (vs : List Json) :
    renderElements (v :: vs) = render v ++ vs.flatMap fun w => 0x2c :: render w := by
  induction vs generalizing v with
  | nil => simp [renderElements]
  | cons w vs ih =>
    rw [renderElements, ih, List.flatMap_cons]
    rfl

/-- Every member but the first one follows a comma. -/
lemma renderMembers_cons (m : List JsonChar × Json) (ms : List (List JsonChar × Json)) :
    renderMembers (m :: ms) = renderMember m ++ ms.flatMap fun n => 0x2c :: renderMember n := by
  induction ms generalizing m with
  | nil => simp [renderMembers, renderMember]
  | cons n ms ih =>
    rw [renderMembers, ih, List.flatMap_cons]
    rfl

/-- The parts of a value that its grammar restricts: the numbers, and the characters of the
strings. -/
inductive Leaf
  | number (text : ByteString)
  | char (c : JsonChar)

/-- The part is as the grammar demands. -/
def Leaf.Valid : Leaf → Prop
  | .number text => IsNumber text
  | .char c => c.Valid

mutual

/-- The restricted parts of a value. -/
def leaves : Json → List Leaf
  | .null => []
  | .bool _ => []
  | .number text => [.number text]
  | .string chars => chars.map .char
  | .array vs => elementLeaves vs
  | .object ms => memberLeaves ms

/-- The restricted parts of the values of an array. -/
def elementLeaves : List Json → List Leaf
  | [] => []
  | v :: vs => leaves v ++ elementLeaves vs

/-- The restricted parts of the members of an object. -/
def memberLeaves : List (List JsonChar × Json) → List Leaf
  | [] => []
  | (key, v) :: ms => key.map .char ++ (leaves v ++ memberLeaves ms)

end

/-- All restricted parts of the value have a property. -/
def Every (p : Leaf → Prop) (v : Json) : Prop := ∀ leaf ∈ leaves v, p leaf

/-- All restricted parts of the value are as the grammar demands. -/
def Valid (v : Json) : Prop := v.Every Leaf.Valid

/-- The restricted parts of an array are those of its elements. -/
lemma mem_elementLeaves {leaf : Leaf} {vs : List Json} :
    leaf ∈ elementLeaves vs ↔ ∃ v ∈ vs, leaf ∈ leaves v := by
  induction vs with
  | nil => simp [elementLeaves]
  | cons v vs ih => simp [elementLeaves, ih]

/-- The restricted parts of an object are the characters of its keys and the parts of its values. -/
lemma mem_memberLeaves {leaf : Leaf} {ms : List (List JsonChar × Json)} :
    leaf ∈ memberLeaves ms ↔ ∃ m ∈ ms, leaf ∈ m.1.map .char ∨ leaf ∈ leaves m.2 := by
  induction ms with
  | nil => simp [memberLeaves]
  | cons m ms ih =>
    rw [memberLeaves, List.mem_append, List.mem_append, ih, ← or_assoc]
    simp only [List.mem_cons, exists_eq_or_imp]

section Every

variable {p : Leaf → Prop}

@[simp] lemma every_bool (b : Bool) : (Json.bool b).Every p := by simp [Every, leaves]

@[simp] lemma every_number {text : ByteString} :
    (Json.number text).Every p ↔ p (.number text) := by simp [Every, leaves]

@[simp] lemma every_string {chars : List JsonChar} :
    (Json.string chars).Every p ↔ ∀ c ∈ chars, p (.char c) := by simp [Every, leaves]

/-- A property of all restricted parts of an array. -/
lemma every_array {vs : List Json} : (Json.array vs).Every p ↔ ∀ v ∈ vs, v.Every p := by
  constructor
  · intro hvs v hv leaf hleaf
    exact hvs leaf (mem_elementLeaves.mpr ⟨v, hv, hleaf⟩)
  · intro hvs leaf hleaf
    obtain ⟨v, hv, hleaf⟩ := mem_elementLeaves.mp hleaf
    exact hvs v hv leaf hleaf

/-- A property of all restricted parts of an object. -/
lemma every_object {ms : List (List JsonChar × Json)} :
    (Json.object ms).Every p ↔ ∀ m ∈ ms, (∀ c ∈ m.1, p (.char c)) ∧ m.2.Every p := by
  constructor
  · intro hms m hm
    constructor
    · intro c hc
      exact hms _ (mem_memberLeaves.mpr ⟨m, hm, Or.inl (List.mem_map_of_mem hc)⟩)
    · intro leaf hleaf
      exact hms leaf (mem_memberLeaves.mpr ⟨m, hm, Or.inr hleaf⟩)
  · intro hms leaf hleaf
    obtain ⟨m, hm, hleaf⟩ := mem_memberLeaves.mp hleaf
    obtain ⟨hkey, hvalue⟩ := hms m hm
    rcases hleaf with hleaf | hleaf
    · obtain ⟨c, hc, rfl⟩ := List.mem_map.mp hleaf
      exact hkey c hc
    · exact hvalue leaf hleaf

@[simp] lemma every_object_nil : (Json.object []).Every p := by simp [Every, leaves, memberLeaves]

/-- The restricted parts of an object are those of its first member and those of the others. -/
lemma every_object_cons {m : List JsonChar × Json} {ms : List (List JsonChar × Json)} :
    (Json.object (m :: ms)).Every p ↔
      ((∀ c ∈ m.1, p (.char c)) ∧ m.2.Every p) ∧ (Json.object ms).Every p := by
  rw [every_object, every_object, List.forall_mem_cons]

/-- The restricted parts of an object are those of its first members and those of the others. -/
lemma every_object_append {ms ns : List (List JsonChar × Json)} :
    (Json.object (ms ++ ns)).Every p ↔ (Json.object ms).Every p ∧ (Json.object ns).Every p := by
  rw [every_object, every_object, every_object, List.forall_mem_append]

end Every

/-- A text that stands for a value stands for it as an element. -/
lemma Denotes.toElement {text : ByteString} {v : Json} (hd : Denotes text (.value v)) :
    Denotes text (.element v) := by
  have hspace : IsSpace [] := by simp [IsSpace]
  have helement := Denotes.element hspace hd hspace
  rwa [List.nil_append, List.append_nil] at helement

/-- A member without white space. -/
lemma Denotes.toMember {text : ByteString} {key : List JsonChar} {v : Json}
    (hkey : ∀ c ∈ key, c.Valid) (hd : Denotes text (.value v)) :
    Denotes (stringText key ++ 0x3a :: text) (.member key v) := by
  have hspace : IsSpace [] := by simp [IsSpace]
  have hmember := Denotes.member hspace hkey hspace hd.toElement
  rwa [List.nil_append, List.append_nil] at hmember

/-- The texts of values that stand for them stand for their sequence. -/
lemma denotes_renderElements {v : Json} {vs : List Json}
    (hvs : ∀ w ∈ v :: vs, Denotes (render w) (.value w)) :
    Denotes (renderElements (v :: vs)) (.elements (v :: vs)) := by
  induction vs generalizing v with
  | nil =>
    apply Denotes.lastElement
    exact (hvs v List.mem_cons_self).toElement
  | cons w vs ih =>
    apply Denotes.consElement
    · exact (hvs v List.mem_cons_self).toElement
    · exact ih fun u hu => hvs u (List.mem_cons_of_mem _ hu)

/-- The texts of members that stand for them stand for their sequence. -/
lemma denotes_renderMembers {m : List JsonChar × Json} {ms : List (List JsonChar × Json)}
    (hms : ∀ n ∈ m :: ms, (∀ c ∈ n.1, c.Valid) ∧ Denotes (render n.2) (.value n.2)) :
    Denotes (renderMembers (m :: ms)) (.members (m :: ms)) := by
  obtain ⟨hkey, hvalue⟩ := hms m List.mem_cons_self
  induction ms generalizing m with
  | nil =>
    apply Denotes.lastMember
    exact .toMember hkey hvalue
  | cons n ms ih =>
    have hrest : ∀ n' ∈ n :: ms, (∀ c ∈ n'.1, c.Valid) ∧ Denotes (render n'.2) (.value n'.2) :=
      fun n' hn' => hms n' (List.mem_cons_of_mem _ hn')
    apply Denotes.consMember
    · exact .toMember hkey hvalue
    · exact ih hrest (hrest n List.mem_cons_self).1 (hrest n List.mem_cons_self).2

/-- The text of a valid value stands for it. -/
theorem Valid.denotes_render {v : Json} (hv : v.Valid) : Denotes (render v) (.value v) := by
  induction v using Json.induction with
  | null => exact .null
  | bool b => exact .bool b
  | number text => exact .number (every_number.mp hv)
  | string chars => exact .string (every_string.mp hv)
  | array vs ih =>
    cases vs with
    | nil => exact @Denotes.emptyArray [] (by simp [IsSpace])
    | cons v vs =>
      have hvs := every_array.mp hv
      exact .array (denotes_renderElements fun w hw => ih w hw (hvs w hw))
  | object ms ih =>
    cases ms with
    | nil => exact @Denotes.emptyObject [] (by simp [IsSpace])
    | cons m ms =>
      have hms := every_object.mp hv
      exact .object (denotes_renderMembers fun n hn => ⟨(hms n hn).1, ih n hn (hms n hn).2⟩)

/-- The text of a valid value is a document. -/
theorem Valid.document_render {v : Json} (hv : v.Valid) : Document v.render v :=
  hv.denotes_render.toElement

end Json
