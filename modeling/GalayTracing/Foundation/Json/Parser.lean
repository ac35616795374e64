import GalayTracing.Foundation.Json.Grammar
import Mathlib.Data.List.TakeWhile

/-!
# Parsing JSON texts

A recursive descent parser, with a bound on the depth of its calls.  It reads every text of the
grammar (`parse_of_document`), so a text is a document of one value at most.

What the parser does on a part of a text is stated in `Parses` for each kind of node.  A value may
be followed by white space that belongs to the surrounding element, which is why the rests of texts
are compared after white space has been skipped.
-/

/-- The expression mentions only characters with a property. -/
def RegularExpression.only {α : Type*} (p : α → Bool) : RegularExpression α → Bool
  | .zero => true
  | .epsilon => true
  | .char a => p a
  | .plus P Q => P.only p && Q.only p
  | .comp P Q => P.only p && Q.only p
  | .star P => P.only p

/-- A text that matches an expression has only characters that the expression mentions. -/
theorem RegularExpression.all_of_only {α : Type*} {p : α → Bool} {P : RegularExpression α}
    {text : List α} (honly : P.only p = true) (hmatch : text ∈ P.matches') : text.all p = true := by
  induction P generalizing text with
  | zero => exact hmatch.elim
  | epsilon => rw [Set.eq_of_mem_singleton hmatch, List.all_nil]
  | char a =>
    rw [Set.eq_of_mem_singleton hmatch, List.all_cons, List.all_nil, Bool.and_true]
    exact honly
  | plus P Q ihP ihQ =>
    obtain ⟨hP, hQ⟩ := Bool.and_eq_true_iff.mp honly
    exact hmatch.elim (ihP hP) (ihQ hQ)
  | comp P Q ihP ihQ =>
    obtain ⟨hP, hQ⟩ := Bool.and_eq_true_iff.mp honly
    obtain ⟨left, hleft, right, hright, rfl⟩ := Language.mem_mul.mp hmatch
    rw [List.all_append, ihP hP hleft, ihQ hQ hright, Bool.and_true]
  | star P ih =>
    obtain ⟨parts, rfl, hparts⟩ := Language.mem_kstar.mp hmatch
    rw [List.all_flatten, List.all_eq_true]
    exact fun part hpart => ih honly (hparts part hpart)

namespace Json

/-! ### The parser -/

/-- The text without the white space at its front. -/
def skipSpace (text : ByteString) : ByteString := text.dropWhile (· ∈ ascii " \t\n\r")

/-- A character after white space. -/
def parseByte (b : UInt8) (text : ByteString) : Option ByteString :=
  match skipSpace text with
  | c :: rest => if c = b then some rest else none
  | [] => none

/-- A character in front of the characters that were parsed, if it is allowed in a string. -/
def consChar (c : JsonChar) (parsed : Option (List JsonChar × ByteString)) :
    Option (List JsonChar × ByteString) :=
  if c.Valid then parsed.map fun (chars, rest) => (c :: chars, rest) else none

/-- The characters of a string, up to the closing quote. -/
def parseChars : ByteString → Option (List JsonChar × ByteString)
  | [] => none
  | b :: rest =>
    if b = 0x22 then some ([], rest)
    else if b = 0x5c then
      match rest with
      | [] => none
      | c :: rest =>
        if c = 0x75 then
          match rest with
          | p :: q :: r :: s :: rest => consChar (.unicode p q r s) (parseChars rest)
          | _ => none
        else consChar (.escape c) (parseChars rest)
    else consChar (.byte b) (parseChars rest)

/-- The characters that end a literal or a number. -/
def isDelimiter (b : UInt8) : Bool := b ∈ ascii " \t\n\r\",:[]\x7b\x7d"

/-- A literal or a number. -/
def parseScalar (text : ByteString) : Option (Json × ByteString) :=
  let word := text.takeWhile (!isDelimiter ·)
  let rest := text.dropWhile (!isDelimiter ·)
  if word = ascii "null" then some (.null, rest)
  else if word = ascii "true" then some (.bool true, rest)
  else if word = ascii "false" then some (.bool false, rest)
  else if IsNumber word then some (.number word, rest)
  else none

/-- The key of a member, up to the value. -/
def parseKey (text : ByteString) : Option (List JsonChar × ByteString) := do
  let (key, rest) ← parseChars (← parseByte 0x22 text)
  return (key, ← parseByte 0x3a rest)

mutual

/-- A value, from its first character on. -/
def parseValue : ℕ → ByteString → Option (Json × ByteString)
  | 0, _ => none
  | _ + 1, [] => none
  | fuel + 1, b :: rest =>
    if b = 0x22 then do
      let (chars, rest) ← parseChars rest
      return (.string chars, rest)
    else if b = 0x5b then
      match parseByte 0x5d rest with
      | some rest => return (.array [], rest)
      | none => do
        let (vs, rest) ← parseElements fuel rest
        return (.array vs, rest)
    else if b = 0x7b then
      match parseByte 0x7d rest with
      | some rest => return (.object [], rest)
      | none => do
        let (ms, rest) ← parseMembers fuel rest
        return (.object ms, rest)
    else parseScalar (b :: rest)

/-- The elements of an array, up to its end. -/
def parseElements : ℕ → ByteString → Option (List Json × ByteString)
  | 0, _ => none
  | fuel + 1, text => do
    let (v, rest) ← parseValue fuel (skipSpace text)
    match parseByte 0x2c rest with
    | some rest =>
      let (vs, rest) ← parseElements fuel rest
      return (v :: vs, rest)
    | none =>
      let rest ← parseByte 0x5d rest
      return ([v], rest)

/-- The members of an object, up to its end. -/
def parseMembers : ℕ → ByteString → Option (List (List JsonChar × Json) × ByteString)
  | 0, _ => none
  | fuel + 1, text => do
    let (key, rest) ← parseKey text
    let (v, rest) ← parseValue fuel (skipSpace rest)
    match parseByte 0x2c rest with
    | some rest =>
      let (ms, rest) ← parseMembers fuel rest
      return ((key, v) :: ms, rest)
    | none =>
      let rest ← parseByte 0x7d rest
      return ([(key, v)], rest)

end

/-- The value of a text; `none` if the text is no document. -/
def parse (text : ByteString) : Option Json := do
  let (v, rest) ← parseValue (text.length + 1) (skipSpace text)
  if skipSpace rest = [] then some v else none

/-! ### Every document is parsed -/

variable {text word rest space : ByteString} {b : UInt8}

/-- White space in front of a text is skipped. -/
lemma skipSpace_append (hspace : IsSpace space) (text : ByteString) :
    skipSpace (space ++ text) = skipSpace text := by
  apply List.dropWhile_append_of_pos
  intro b hb
  exact decide_eq_true (hspace b hb)

/-- A text that does not begin with white space is left alone. -/
lemma skipSpace_cons (hb : b ∉ ascii " \t\n\r") (rest : ByteString) :
    skipSpace (b :: rest) = b :: rest := by
  rw [skipSpace, List.dropWhile_cons_of_neg]
  simpa using hb

/-- A character is found after white space. -/
lemma parseByte_append (hspace : IsSpace space) (hb : b ∉ ascii " \t\n\r") (rest : ByteString) :
    parseByte b (space ++ b :: rest) = some rest := by
  simp [parseByte, skipSpace_append hspace, skipSpace_cons hb]

/-- Only what follows the white space matters. -/
lemma parseByte_congr {text' : ByteString} (htext : skipSpace text = skipSpace text') (b : UInt8) :
    parseByte b text = parseByte b text' := by
  rw [parseByte, parseByte, htext]

/-- A string ends at the first quote that is not part of an escape sequence. -/
lemma parseChars_quote (rest : ByteString) : parseChars (0x22 :: rest) = some ([], rest) := by
  rw [parseChars.eq_def]
  rfl

/-- A character of a string is read from its text. -/
lemma parseChars_render {c : JsonChar} (hc : c.Valid) (text : ByteString) :
    parseChars (c.render ++ text) = consChar c (parseChars text) := by
  cases c with
  | byte b =>
    obtain ⟨-, hquote, hbackslash⟩ := hc
    rw [JsonChar.render, List.singleton_append, parseChars.eq_def]
    simp only [hquote, hbackslash, if_false]
  | escape c =>
    have hu : c ≠ 0x75 := by
      rintro rfl
      revert hc
      decide
    rw [JsonChar.render, List.cons_append, List.singleton_append, parseChars.eq_def]
    simp only [hu, if_false]
    rfl
  | unicode p q r s =>
    rw [JsonChar.render, parseChars.eq_def]
    rfl

/-- A string is read up to its closing quote. -/
lemma parseChars_append {chars : List JsonChar} (hchars : ∀ c ∈ chars, c.Valid)
    (rest : ByteString) :
    parseChars (chars.flatMap JsonChar.render ++ 0x22 :: rest) = some (chars, rest) := by
  induction chars with
  | nil => exact parseChars_quote rest
  | cons c chars ih =>
    obtain ⟨hc, hchars⟩ := List.forall_mem_cons.mp hchars
    rw [List.flatMap_cons, List.append_assoc, parseChars_render hc, ih hchars, consChar, if_pos hc]
    rfl

/-- The text ends a literal or a number in front of it. -/
def EndsWord (rest : ByteString) : Prop := ∀ b ∈ rest.head?, isDelimiter b = true

/-- A word that is followed by a delimiter is read as a whole. -/
lemma parseScalar_append (hword : word.all (!isDelimiter ·) = true) (hends : EndsWord rest) :
    parseScalar (word ++ rest) =
      if word = ascii "null" then some (.null, rest)
      else if word = ascii "true" then some (.bool true, rest)
      else if word = ascii "false" then some (.bool false, rest)
      else if IsNumber word then some (.number word, rest)
      else none := by
  have hword' := List.all_eq_true.mp hword
  have hrest : rest.takeWhile (!isDelimiter ·) = [] ∧ rest.dropWhile (!isDelimiter ·) = rest := by
    cases rest with
    | nil => exact ⟨rfl, rfl⟩
    | cons b rest =>
      have hb : isDelimiter b = true := hends b rfl
      simp [hb]
  simp only [parseScalar, List.takeWhile_append_of_pos hword', List.dropWhile_append_of_pos hword',
    hrest, List.append_nil]

/-- A value that begins with a quote is a string. -/
lemma parseValue_string (fuel : ℕ) (rest : ByteString) :
    parseValue (fuel + 1) (0x22 :: rest) =
      (parseChars rest).bind fun (chars, rest) => some (.string chars, rest) := rfl

/-- A value that begins with a bracket is an array. -/
lemma parseValue_array (fuel : ℕ) (rest : ByteString) :
    parseValue (fuel + 1) (0x5b :: rest) =
      match parseByte 0x5d rest with
      | some rest => some (.array [], rest)
      | none => (parseElements fuel rest).bind fun (vs, rest) => some (.array vs, rest) := rfl

/-- A value that begins with a brace is an object. -/
lemma parseValue_object (fuel : ℕ) (rest : ByteString) :
    parseValue (fuel + 1) (0x7b :: rest) =
      match parseByte 0x7d rest with
      | some rest => some (.object [], rest)
      | none => (parseMembers fuel rest).bind fun (ms, rest) => some (.object ms, rest) := rfl

/-- A text between two characters, and what follows it. -/
lemma enclosed_append (b c : UInt8) (text rest : ByteString) :
    b :: text ++ [c] ++ rest = b :: (text ++ c :: rest) := by simp

/-- A word is not the beginning of a string, an array or an object. -/
lemma parseValue_word {fuel : ℕ} (hword : word.all (!isDelimiter ·) = true) (hne : word ≠ [])
    (hfuel : word.length ≤ fuel) : parseValue fuel (word ++ rest) = parseScalar (word ++ rest) := by
  cases word with
  | nil => exact absurd rfl hne
  | cons b word =>
    have hb : isDelimiter b = false := by
      simpa using List.all_eq_true.mp hword b List.mem_cons_self
    have hneq : ∀ d, isDelimiter d = true → b ≠ d := by
      rintro d hd rfl
      rw [hb] at hd
      cases hd
    cases fuel with
    | zero => simp at hfuel
    | succ fuel =>
      rw [List.cons_append, parseValue, if_neg (hneq 0x22 (by decide)),
        if_neg (hneq 0x5b (by decide)), if_neg (hneq 0x7b (by decide))]

/-- A number consists of characters that do not end it. -/
lemma IsNumber.all_not_isDelimiter (hn : IsNumber text) : text.all (!isDelimiter ·) = true :=
  RegularExpression.all_of_only (by decide) hn

/-- A number is not empty, and not a literal. -/
lemma IsNumber.ne (hn : IsNumber text) (hword : ¬IsNumber word) : text ≠ word := by
  rintro rfl
  exact hword hn

/-- The text of a value begins with a character that is neither white space nor the end of an
array. -/
lemma Denotes.exists_cons {v : Json} (hd : Denotes text (.value v)) :
    ∃ b tail, text = b :: tail ∧ b ∉ ascii " \t\n\r" ∧ b ≠ 0x5d := by
  cases hd with
  | null => exact ⟨_, _, rfl, by decide, by decide⟩
  | bool b =>
    cases b with
    | true => exact ⟨_, _, rfl, by decide, by decide⟩
    | false => exact ⟨_, _, rfl, by decide, by decide⟩
  | number hn =>
    obtain ⟨b, tail, rfl⟩ := List.exists_cons_of_ne_nil (hn.ne (by decide : ¬IsNumber []))
    have hb : isDelimiter b = false := by
      simpa using List.all_eq_true.mp hn.all_not_isDelimiter b List.mem_cons_self
    refine ⟨b, tail, rfl, ?_, ?_⟩
    · intro hmem
      have hall : ∀ b ∈ ascii " \t\n\r", isDelimiter b = true := by decide
      rw [hall b hmem] at hb
      cases hb
    · rintro rfl
      revert hb
      decide
  | string _ => exact ⟨_, _, rfl, by decide, by decide⟩
  | emptyArray _ => exact ⟨_, _, rfl, by decide, by decide⟩
  | array _ => exact ⟨_, _, rfl, by decide, by decide⟩
  | emptyObject _ => exact ⟨_, _, rfl, by decide, by decide⟩
  | object _ => exact ⟨_, _, rfl, by decide, by decide⟩

/-- An element is not the end of an array. -/
lemma Denotes.parseByte_element {v : Json} (hd : Denotes text (.element v)) (rest : ByteString) :
    parseByte 0x5d (text ++ rest) = none := by
  cases hd with
  | element hbefore hd hafter =>
    obtain ⟨b, tail, rfl, hspace, hb⟩ := hd.exists_cons
    simp [parseByte, skipSpace_append hbefore, skipSpace_cons hspace, hb]

/-- The elements of an array do not begin with its end. -/
lemma Denotes.parseByte_elements {vs : List Json} (hd : Denotes text (.elements vs))
    (rest : ByteString) : parseByte 0x5d (text ++ rest) = none := by
  cases hd with
  | lastElement hd => exact hd.parseByte_element rest
  | consElement hd _ =>
    rw [List.append_assoc]
    exact hd.parseByte_element _

/-- A member is not the end of an object. -/
lemma Denotes.parseByte_member {key : List JsonChar} {v : Json} (hd : Denotes text (.member key v))
    (rest : ByteString) : parseByte 0x7d (text ++ rest) = none := by
  cases hd with
  | member hbefore _ _ _ =>
    have hquote : 0x22 ∉ ascii " \t\n\r" := by decide
    simp [parseByte, skipSpace_append hbefore, stringText, skipSpace_cons hquote]

/-- The members of an object do not begin with its end. -/
lemma Denotes.parseByte_members {ms : List (List JsonChar × Json)} (hd : Denotes text (.members ms))
    (rest : ByteString) : parseByte 0x7d (text ++ rest) = none := by
  cases hd with
  | lastMember hd => exact hd.parseByte_member rest
  | consMember hd _ =>
    rw [List.append_assoc]
    exact hd.parseByte_member _

/-- What the parser does on a text that stands for a node. -/
def Parses (text : ByteString) : Node → Prop
  | .value v => ∀ fuel rest, text.length ≤ fuel → EndsWord rest →
      parseValue fuel (text ++ rest) = some (v, rest)
  | .element v => ∀ fuel rest, text.length ≤ fuel → EndsWord rest →
      ∃ rest', parseValue fuel (skipSpace (text ++ rest)) = some (v, rest') ∧
        skipSpace rest' = skipSpace rest
  | .elements vs => ∀ fuel rest, text.length < fuel →
      parseElements fuel (text ++ 0x5d :: rest) = some (vs, rest)
  | .member key v => ∀ fuel rest, text.length ≤ fuel → EndsWord rest →
      ∃ rest₁ rest', parseKey (text ++ rest) = some (key, rest₁) ∧
        parseValue fuel (skipSpace rest₁) = some (v, rest') ∧ skipSpace rest' = skipSpace rest
  | .members ms => ∀ fuel rest, text.length < fuel →
      parseMembers fuel (text ++ 0x7d :: rest) = some (ms, rest)

/-- White space ends a word, and so does what ends it after white space. -/
lemma endsWord_append (hspace : IsSpace space) (hends : EndsWord rest) :
    EndsWord (space ++ rest) := by
  cases space with
  | nil => exact hends
  | cons b space =>
    have hall : ∀ b ∈ ascii " \t\n\r", isDelimiter b = true := by decide
    intro c hc
    obtain rfl : b = c := Option.some_inj.mp hc
    exact hall b (hspace b List.mem_cons_self)

/-- A delimiter ends a word. -/
lemma endsWord_cons (hb : isDelimiter b = true) : EndsWord (b :: rest) := by
  intro c hc
  obtain rfl : b = c := Option.some_inj.mp hc
  exact hb

/-- The parser reads what the grammar derives. -/
theorem Denotes.parses {node : Node} (hd : Denotes text node) : Parses text node := by
  induction hd with
  | null =>
    intro fuel rest hfuel hends
    rw [parseValue_word (by decide) (by decide) hfuel, parseScalar_append (by decide) hends]
    rfl
  | bool b =>
    intro fuel rest hfuel hends
    cases b with
    | true =>
      rw [parseValue_word (by decide) (by decide) hfuel, parseScalar_append (by decide) hends]
      rfl
    | false =>
      rw [parseValue_word (by decide) (by decide) hfuel, parseScalar_append (by decide) hends]
      rfl
  | number hn =>
    intro fuel rest hfuel hends
    rw [parseValue_word hn.all_not_isDelimiter (hn.ne (by decide)) hfuel,
      parseScalar_append hn.all_not_isDelimiter hends, if_neg (hn.ne (by decide)),
      if_neg (hn.ne (by decide)), if_neg (hn.ne (by decide)), if_pos hn]
  | @string chars hchars =>
    intro fuel rest hfuel hends
    cases fuel with
    | zero => simp [stringText] at hfuel
    | succ fuel =>
      rw [stringText, enclosed_append, parseValue_string, parseChars_append hchars]
      rfl
  | @emptyArray space hspace =>
    intro fuel rest hfuel hends
    cases fuel with
    | zero => simp at hfuel
    | succ fuel =>
      rw [enclosed_append, parseValue_array, parseByte_append hspace (by decide)]
  | @array text vs hd ih =>
    intro fuel rest hfuel hends
    cases fuel with
    | zero => simp at hfuel
    | succ fuel =>
      have hread := ih fuel rest (by simp at hfuel; omega)
      rw [enclosed_append, parseValue_array, hd.parseByte_elements, hread]
      rfl
  | @emptyObject space hspace =>
    intro fuel rest hfuel hends
    cases fuel with
    | zero => simp at hfuel
    | succ fuel =>
      rw [enclosed_append, parseValue_object, parseByte_append hspace (by decide)]
  | @object text ms hd ih =>
    intro fuel rest hfuel hends
    cases fuel with
    | zero => simp at hfuel
    | succ fuel =>
      have hread := ih fuel rest (by simp at hfuel; omega)
      rw [enclosed_append, parseValue_object, hd.parseByte_members, hread]
      rfl
  | @element before text after v hbefore hd hafter ih =>
    intro fuel rest hfuel hends
    obtain ⟨b, tail, rfl, hspace, -⟩ := hd.exists_cons
    refine ⟨after ++ rest, ?_, skipSpace_append hafter rest⟩
    have hread := ih fuel (after ++ rest) (by simp at hfuel ⊢; omega) (endsWord_append hafter hends)
    rw [List.append_assoc, List.append_assoc, skipSpace_append hbefore, List.cons_append,
      skipSpace_cons hspace, ← List.cons_append]
    exact hread
  | @lastElement text v hd ih =>
    intro fuel rest hfuel
    cases fuel with
    | zero => simp at hfuel
    | succ fuel =>
      obtain ⟨rest', hread, hrest⟩ :=
        ih fuel (0x5d :: rest) (by omega) (endsWord_cons (by decide))
      have hcomma : parseByte 0x2c rest' = none := by
        rw [parseByte_congr hrest]
        rfl
      have hend : parseByte 0x5d rest' = some rest := by
        rw [parseByte_congr hrest]
        rfl
      simp [parseElements, hread, hcomma, hend]
  | @consElement text text' v vs hd hd' ih ih' =>
    intro fuel rest hfuel
    cases fuel with
    | zero => simp at hfuel
    | succ fuel =>
      simp only [List.length_append, List.length_cons] at hfuel
      obtain ⟨rest', hread, hrest⟩ :=
        ih fuel (0x2c :: (text' ++ 0x5d :: rest)) (by omega) (endsWord_cons (by decide))
      have hcomma : parseByte 0x2c rest' = some (text' ++ 0x5d :: rest) := by
        rw [parseByte_congr hrest]
        rfl
      have hread' := ih' fuel rest (by omega)
      simp [parseElements, hread, hcomma, hread']
  | @member before after text key v hbefore hkey hafter hd ih =>
    intro fuel rest hfuel hends
    have hquote : parseByte 0x22 (before ++ stringText key ++ after ++ 0x3a :: text ++ rest) =
        some (key.flatMap JsonChar.render ++ 0x22 :: (after ++ 0x3a :: (text ++ rest))) := by
      have hbyte := parseByte_append hbefore (b := 0x22) (by decide)
        (key.flatMap JsonChar.render ++ 0x22 :: (after ++ 0x3a :: (text ++ rest)))
      simpa [stringText] using hbyte
    have hcolon : parseByte 0x3a (after ++ 0x3a :: (text ++ rest)) = some (text ++ rest) :=
      parseByte_append hafter (by decide) _
    obtain ⟨rest', hread, hrest⟩ := ih fuel rest (by simp at hfuel; omega) hends
    refine ⟨text ++ rest, rest', ?_, hread, hrest⟩
    simp only [parseKey, hquote, Option.bind_eq_bind, Option.bind_some, parseChars_append hkey,
      hcolon]
    rfl
  | @lastMember text key v hd ih =>
    intro fuel rest hfuel
    cases fuel with
    | zero => simp at hfuel
    | succ fuel =>
      obtain ⟨rest₁, rest', hkey, hread, hrest⟩ :=
        ih fuel (0x7d :: rest) (by omega) (endsWord_cons (by decide))
      have hcomma : parseByte 0x2c rest' = none := by
        rw [parseByte_congr hrest]
        rfl
      have hend : parseByte 0x7d rest' = some rest := by
        rw [parseByte_congr hrest]
        rfl
      simp [parseMembers, hkey, hread, hcomma, hend]
  | @consMember text text' key v ms hd hd' ih ih' =>
    intro fuel rest hfuel
    cases fuel with
    | zero => simp at hfuel
    | succ fuel =>
      simp only [List.length_append, List.length_cons] at hfuel
      obtain ⟨rest₁, rest', hkey, hread, hrest⟩ :=
        ih fuel (0x2c :: (text' ++ 0x7d :: rest)) (by omega) (endsWord_cons (by decide))
      have hcomma : parseByte 0x2c rest' = some (text' ++ 0x7d :: rest) := by
        rw [parseByte_congr hrest]
        rfl
      have hread' := ih' fuel rest (by omega)
      simp [parseMembers, hkey, hread, hcomma, hread']

/-! ### What is parsed is a document -/

/-- The white space in front of a text. -/
lemma exists_skipSpace (text : ByteString) :
    ∃ space, IsSpace space ∧ text = space ++ skipSpace text := by
  refine ⟨text.takeWhile (· ∈ ascii " \t\n\r"), ?_, List.takeWhile_append_dropWhile.symm⟩
  intro b hb
  simpa using List.mem_takeWhile_imp hb

/-- A character that was found stands behind white space. -/
lemma exists_of_parseByte (hb : parseByte b text = some rest) :
    ∃ space, IsSpace space ∧ text = space ++ b :: rest := by
  obtain ⟨space, hspace, htext⟩ := exists_skipSpace text
  refine ⟨space, hspace, htext.trans (congrArg (space ++ ·) ?_)⟩
  rw [parseByte] at hb
  split at hb
  · next c rest' hskip =>
    split_ifs at hb with hc
    rw [hskip, hc, Option.some_inj.mp hb]
  · cases hb

/-- A character in front of a string. -/
lemma consChar_eq_some {c : JsonChar} {parsed : Option (List JsonChar × ByteString)}
    {chars : List JsonChar} (hc : consChar c parsed = some (chars, rest)) :
    c.Valid ∧ ∃ chars', parsed = some (chars', rest) ∧ chars = c :: chars' := by
  rw [consChar] at hc
  split_ifs at hc with hvalid
  obtain ⟨⟨chars', rest'⟩, hparsed, heq⟩ := Option.map_eq_some_iff.mp hc
  obtain ⟨rfl, rfl⟩ := Prod.mk.inj heq
  exact ⟨hvalid, chars', hparsed, rfl⟩

/-- The text is that of some allowed characters, the closing quote and a rest. -/
def ReadsChars (text : ByteString) (chars : List JsonChar) (rest : ByteString) : Prop :=
  (∀ c ∈ chars, c.Valid) ∧ text = chars.flatMap JsonChar.render ++ 0x22 :: rest

/-- A character in front of a string that was read. -/
lemma readsChars_of_consChar {c : JsonChar} {parsed : Option (List JsonChar × ByteString)}
    {chars : List JsonChar} (hc : consChar c parsed = some (chars, rest))
    (hparsed : ∀ chars, parsed = some (chars, rest) → ReadsChars text chars rest) :
    ReadsChars (c.render ++ text) chars rest := by
  obtain ⟨hvalid, chars', heq, rfl⟩ := consChar_eq_some hc
  obtain ⟨hchars, htext⟩ := hparsed chars' heq
  refine ⟨List.forall_mem_cons.mpr ⟨hvalid, hchars⟩, ?_⟩
  rw [htext, List.flatMap_cons, List.append_assoc]

/-- A string that was read consists of allowed characters. -/
lemma readsChars_of_parseChars {chars : List JsonChar}
    (hp : parseChars text = some (chars, rest)) : ReadsChars text chars rest := by
  fun_induction parseChars text generalizing chars with
  | case1 => cases hp
  | case2 =>
    obtain ⟨rfl, rfl⟩ := Prod.mk.inj (Option.some_inj.mp hp)
    exact ⟨by simp, rfl⟩
  | case3 => cases hp
  | case4 _ p q r s rest' ih => exact readsChars_of_consChar hp fun chars => ih
  | case5 => cases hp
  | case6 _ c rest' hu ih => exact readsChars_of_consChar hp fun chars => ih
  | case7 b rest' hquote hbackslash ih => exact readsChars_of_consChar hp fun chars => ih

/-- A literal or a number that was read stands for its value. -/
lemma exists_of_parseScalar {v : Json} (hp : parseScalar text = some (v, rest)) :
    ∃ word, text = word ++ rest ∧ Denotes word (.value v) := by
  have hsplit : text = text.takeWhile (!isDelimiter ·) ++ text.dropWhile (!isDelimiter ·) :=
    List.takeWhile_append_dropWhile.symm
  refine ⟨text.takeWhile (!isDelimiter ·), ?_, ?_⟩
  · unfold parseScalar at hp
    simp only at hp
    split_ifs at hp <;>
      (obtain ⟨-, rfl⟩ := Prod.mk.inj (Option.some_inj.mp hp)
       exact hsplit)
  · unfold parseScalar at hp
    simp only at hp
    split_ifs at hp with hnull htrue hfalse hnumber
    · obtain ⟨rfl, -⟩ := Prod.mk.inj (Option.some_inj.mp hp)
      rw [hnull]
      exact .null
    · obtain ⟨rfl, -⟩ := Prod.mk.inj (Option.some_inj.mp hp)
      rw [htrue]
      exact .bool true
    · obtain ⟨rfl, -⟩ := Prod.mk.inj (Option.some_inj.mp hp)
      rw [hfalse]
      exact .bool false
    · obtain ⟨rfl, -⟩ := Prod.mk.inj (Option.some_inj.mp hp)
      exact .number hnumber

/-- What the calls with a bound read stands for what they return. -/
structure ParsesOnly (fuel : ℕ) : Prop where
  value : ∀ text v rest, parseValue fuel text = some (v, rest) →
    ∃ part, text = part ++ rest ∧ Denotes part (.value v)
  elements : ∀ text vs rest, parseElements fuel text = some (vs, rest) →
    ∃ part, text = part ++ 0x5d :: rest ∧ Denotes part (.elements vs)
  members : ∀ text ms rest, parseMembers fuel text = some (ms, rest) →
    ∃ part, text = part ++ 0x7d :: rest ∧ Denotes part (.members ms)

/-- A value that was read after white space, followed by a character after white space. -/
lemma ParsesOnly.element {fuel : ℕ} (hfuel : ParsesOnly fuel) {rest' : ByteString} {v : Json}
    (hv : parseValue fuel (skipSpace text) = some (v, rest)) (hb : parseByte b rest = some rest') :
    ∃ part, text = part ++ b :: rest' ∧ Denotes part (.element v) := by
  obtain ⟨before, hbefore, htext⟩ := exists_skipSpace text
  obtain ⟨part, hpart, hdenotes⟩ := hfuel.value _ _ _ hv
  obtain ⟨after, hafter, rfl⟩ := exists_of_parseByte hb
  refine ⟨before ++ part ++ after, ?_, .element hbefore hdenotes hafter⟩
  rw [htext, hpart, List.append_assoc, List.append_assoc]

/-- A key that was read. -/
lemma exists_of_parseKey {key : List JsonChar} (hp : parseKey text = some (key, rest)) :
    ∃ before after, IsSpace before ∧ (∀ c ∈ key, c.Valid) ∧ IsSpace after ∧
      text = before ++ stringText key ++ after ++ 0x3a :: rest := by
  simp only [parseKey, Option.bind_eq_bind, Option.bind_eq_some_iff] at hp
  obtain ⟨rest₁, hquote, ⟨key', rest₂⟩, hchars, rest₃, hcolon, heq⟩ := hp
  obtain ⟨rfl, rfl⟩ := Prod.mk.inj (Option.some_inj.mp heq)
  obtain ⟨before, hbefore, rfl⟩ := exists_of_parseByte hquote
  obtain ⟨hkey, rfl⟩ := readsChars_of_parseChars hchars
  obtain ⟨after, hafter, rfl⟩ := exists_of_parseByte hcolon
  exact ⟨before, after, hbefore, hkey, hafter, by simp [stringText]⟩

/-- The parser reads only what the grammar derives. -/
theorem parsesOnly (fuel : ℕ) : ParsesOnly fuel := by
  induction fuel with
  | zero =>
    constructor
    · intro text v rest hp
      cases hp
    · intro text vs rest hp
      cases hp
    · intro text ms rest hp
      cases hp
  | succ fuel ih =>
    constructor
    · intro text v rest hp
      cases text with
      | nil => cases hp
      | cons b text =>
        by_cases hquote : b = 0x22
        · subst hquote
          rw [parseValue_string, Option.bind_eq_some_iff] at hp
          obtain ⟨⟨chars, rest'⟩, hchars, heq⟩ := hp
          obtain ⟨rfl, rfl⟩ := Prod.mk.inj (Option.some_inj.mp heq)
          obtain ⟨hvalid, rfl⟩ := readsChars_of_parseChars hchars
          exact ⟨stringText chars, by rw [stringText, enclosed_append], .string hvalid⟩
        by_cases harray : b = 0x5b
        · subst harray
          rw [parseValue_array] at hp
          split at hp
          · next rest' hend =>
            obtain ⟨rfl, rfl⟩ := Prod.mk.inj (Option.some_inj.mp hp)
            obtain ⟨space, hspace, rfl⟩ := exists_of_parseByte hend
            exact ⟨_, (enclosed_append _ _ _ _).symm, .emptyArray hspace⟩
          · obtain ⟨⟨vs, rest'⟩, helements, heq⟩ := Option.bind_eq_some_iff.mp hp
            obtain ⟨rfl, rfl⟩ := Prod.mk.inj (Option.some_inj.mp heq)
            obtain ⟨part, rfl, hpart⟩ := ih.elements _ _ _ helements
            exact ⟨_, (enclosed_append _ _ _ _).symm, .array hpart⟩
        by_cases hobject : b = 0x7b
        · subst hobject
          rw [parseValue_object] at hp
          split at hp
          · next rest' hend =>
            obtain ⟨rfl, rfl⟩ := Prod.mk.inj (Option.some_inj.mp hp)
            obtain ⟨space, hspace, rfl⟩ := exists_of_parseByte hend
            exact ⟨_, (enclosed_append _ _ _ _).symm, .emptyObject hspace⟩
          · obtain ⟨⟨ms, rest'⟩, hmembers, heq⟩ := Option.bind_eq_some_iff.mp hp
            obtain ⟨rfl, rfl⟩ := Prod.mk.inj (Option.some_inj.mp heq)
            obtain ⟨part, rfl, hpart⟩ := ih.members _ _ _ hmembers
            exact ⟨_, (enclosed_append _ _ _ _).symm, .object hpart⟩
        rw [parseValue, if_neg hquote, if_neg harray, if_neg hobject] at hp
        exact exists_of_parseScalar hp
    · intro text vs rest hp
      simp only [parseElements, Option.bind_eq_bind, Option.bind_eq_some_iff] at hp
      obtain ⟨⟨v, rest₁⟩, hv, hp⟩ := hp
      split at hp
      · next rest₂ hcomma =>
        simp only [Option.bind_eq_some_iff] at hp
        obtain ⟨⟨ws, rest₃⟩, hws, heq⟩ := hp
        obtain ⟨rfl, rfl⟩ := Prod.mk.inj (Option.some_inj.mp heq)
        obtain ⟨part, rfl, hpart⟩ := ih.element hv hcomma
        obtain ⟨part', rfl, hpart'⟩ := ih.elements _ _ _ hws
        exact ⟨part ++ 0x2c :: part', by simp, .consElement hpart hpart'⟩
      · obtain ⟨rest₂, hend, heq⟩ := Option.bind_eq_some_iff.mp hp
        obtain ⟨rfl, rfl⟩ := Prod.mk.inj (Option.some_inj.mp heq)
        obtain ⟨part, rfl, hpart⟩ := ih.element hv hend
        exact ⟨part, rfl, .lastElement hpart⟩
    · intro text ms rest hp
      simp only [parseMembers, Option.bind_eq_bind, Option.bind_eq_some_iff] at hp
      obtain ⟨⟨key, rest₁⟩, hkey, ⟨v, rest₂⟩, hv, hp⟩ := hp
      obtain ⟨before, after, hbefore, hvalid, hafter, rfl⟩ := exists_of_parseKey hkey
      split at hp
      · next rest₃ hcomma =>
        simp only [Option.bind_eq_some_iff] at hp
        obtain ⟨⟨ns, rest₄⟩, hns, heq⟩ := hp
        obtain ⟨rfl, rfl⟩ := Prod.mk.inj (Option.some_inj.mp heq)
        obtain ⟨part, rfl, hpart⟩ := ih.element hv hcomma
        obtain ⟨part', rfl, hpart'⟩ := ih.members _ _ _ hns
        have hmember := Denotes.member hbefore hvalid hafter hpart
        exact ⟨_ ++ 0x2c :: part', by simp, .consMember hmember hpart'⟩
      · obtain ⟨rest₃, hend, heq⟩ := Option.bind_eq_some_iff.mp hp
        obtain ⟨rfl, rfl⟩ := Prod.mk.inj (Option.some_inj.mp heq)
        obtain ⟨part, rfl, hpart⟩ := ih.element hv hend
        have hmember := Denotes.member hbefore hvalid hafter hpart
        exact ⟨_, by simp, .lastMember hmember⟩

/-- The parser accepts the documents, with the values they stand for. -/
theorem parse_eq_some_iff {v : Json} : parse text = some v ↔ Document text v := by
  constructor
  · intro hp
    simp only [parse, Option.bind_eq_bind, Option.bind_eq_some_iff] at hp
    obtain ⟨⟨v', rest⟩, hread, hrest⟩ := hp
    split_ifs at hrest with hnil
    obtain rfl := Option.some_inj.mp hrest
    obtain ⟨before, hbefore, htext⟩ := exists_skipSpace text
    obtain ⟨part, hpart, hdenotes⟩ := (parsesOnly _).value _ _ _ hread
    obtain ⟨after, hafter, hafter'⟩ := exists_skipSpace rest
    rw [hnil, List.append_nil] at hafter'
    rw [htext, hpart, hafter', ← List.append_assoc]
    exact .element hbefore hdenotes hafter
  · intro hd
    obtain ⟨rest', hread, hrest⟩ :=
      Denotes.parses hd (text.length + 1) [] (by omega) (by simp [EndsWord])
    rw [List.append_nil] at hread
    have hnil : skipSpace rest' = [] := hrest
    simp [parse, hread, hnil]

end Json
