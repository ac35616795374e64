import GalayTracing.Foundation.Json.Parser

/-!
# A scanner for texts that are no JSON

An automaton with four states that only distinguishes the inside of the strings from the outside.
Every document takes it from the outside back to the outside (`Denotes.stays`); a control byte in a
string, or the words `nan` and `inf` outside the strings, stop it.  So a text that was put together
from parts of which one stops the automaton is no document (`Every.stays`).
-/

namespace Json

/-- The state of the scanner. -/
inductive ScanState
  | outside
  | afterN
  | inside
  | escaped
  deriving DecidableEq

/-- One step of the scanner. -/
def scanByte : ScanState → UInt8 → Option ScanState
  | .outside, b =>
    if b = 0x22 then some .inside
    else if b = 0x6e then some .afterN
    else if b = 0x69 then none
    else some .outside
  | .afterN, b => if b = 0x75 then some .outside else none
  | .inside, b =>
    if b < 0x20 then none
    else if b = 0x22 then some .outside
    else if b = 0x5c then some .escaped
    else some .inside
  | .escaped, b => if b < 0x20 then none else some .inside

/-- The scanner on a text. -/
def scan (s : ScanState) (text : ByteString) : Option ScanState := text.foldlM scanByte s

/-- The text takes the scanner back to the state it starts in. -/
def Stays (s : ScanState) (text : ByteString) : Prop := scan s text = some s

instance (s : ScanState) (text : ByteString) : Decidable (Stays s text) :=
  inferInstanceAs (Decidable (scan s text = some s))

variable {s : ScanState} {text text' : ByteString}

/-- The scanner on two texts, one after the other. -/
lemma scan_append (s : ScanState) (text text' : ByteString) :
    scan s (text ++ text') = (scan s text).bind fun t => scan t text' :=
  List.foldlM_append

/-- Two texts at which the scanner stays, one after the other. -/
lemma Stays.append (htext : Stays s text) (htext' : Stays s text') : Stays s (text ++ text') := by
  rw [Stays, scan_append, htext]
  exact htext'

lemma stays_nil (s : ScanState) : Stays s [] := rfl

/-- A text of single bytes at each of which the scanner stays. -/
lemma stays_of_all (hall : text.all fun b => decide (Stays s [b])) : Stays s text := by
  induction text with
  | nil => exact stays_nil s
  | cons b text ih =>
    obtain ⟨hb, hall⟩ := Bool.and_eq_true_iff.mp (List.all_cons ▸ hall)
    exact (of_decide_eq_true hb).append (ih hall)

/-- A text of parts, with separators between them, at each of which the scanner stays. -/
lemma stays_intercalate {separator : ByteString} (hseparator : Stays s separator)
    {parts : List ByteString} (hparts : ∀ part ∈ parts, Stays s part) :
    Stays s (separator.intercalate parts) := by
  induction parts with
  | nil => exact stays_nil s
  | cons part parts ih =>
    obtain ⟨hpart, hparts⟩ := List.forall_mem_cons.mp hparts
    by_cases hnil : parts = []
    · rw [hnil, List.intercalate_singleton]
      exact hpart
    · rw [List.intercalate_cons_of_ne_nil hnil]
      exact (hpart.append hseparator).append (ih hparts)

/-! ### Documents -/

/-- The scanner stays inside a string at every character that is allowed there. -/
lemma stays_render {c : JsonChar} (hc : c.Valid) : Stays .inside c.render := by
  cases c with
  | byte b =>
    obtain ⟨hcontrol, hquote, hbackslash⟩ := hc
    have hlt : ¬b < 0x20 := UInt8.not_lt.mpr hcontrol
    simp [Stays, scan, JsonChar.render, scanByte, hlt, hquote, hbackslash]
  | escape c =>
    have hescape : ∀ c, (JsonChar.escaped c).isSome = true → Stays .inside [0x5c, c] :=
      forall_byte (by decide +kernel)
    exact hescape c hc
  | unicode p q r t =>
    have hdigit : ∀ ch, (Hex.value ch).isSome = true → Stays .inside [ch] :=
      forall_byte (by decide +kernel)
    have hdigits : Stays .inside [p, q, r, t] := by
      apply stays_of_all
      exact List.all_eq_true.mpr fun ch hch => decide_eq_true (hdigit ch (hc ch hch))
    have hbackslash : Stays .inside [0x5c, 0x75] := by decide
    exact hbackslash.append hdigits

/-- The scanner stays outside the strings at a string. -/
lemma stays_stringText {chars : List JsonChar}
    (hchars : Stays .inside (chars.flatMap JsonChar.render)) :
    Stays .outside (stringText chars) := by
  have hopen : scan .outside [0x22] = some .inside := rfl
  rw [Stays, stringText, ← List.singleton_append, List.append_assoc, scan_append, hopen,
    Option.bind_some, scan_append, hchars]
  rfl

/-- Characters at which the scanner stays. -/
lemma stays_flatMap_render {chars : List JsonChar} (hchars : ∀ c ∈ chars, Stays .inside c.render) :
    Stays .inside (chars.flatMap JsonChar.render) := by
  induction chars with
  | nil => exact stays_nil _
  | cons c chars ih =>
    obtain ⟨hc, hchars⟩ := List.forall_mem_cons.mp hchars
    exact hc.append (ih hchars)

/-- The scanner stays outside the strings at white space. -/
lemma IsSpace.stays (hspace : IsSpace text) : Stays .outside text := by
  apply stays_of_all
  have hall : ∀ b ∈ ascii " \t\n\r", Stays .outside [b] := by decide
  exact List.all_eq_true.mpr fun b hb => decide_eq_true (hall b (hspace b hb))

/-- A document takes the scanner from the outside back to the outside. -/
theorem Denotes.stays {node : Node} (hd : Denotes text node) : Stays .outside text := by
  have hbyte : ∀ b ∈ ascii "[]\x7b\x7d,:", Stays .outside [b] := by decide
  have henclose : ∀ b c text, b ∈ ascii "[]\x7b\x7d,:" → c ∈ ascii "[]\x7b\x7d,:" →
      Stays .outside text → Stays .outside (b :: text ++ [c]) := by
    intro b c text hb hc htext
    exact ((hbyte b hb).append htext).append (hbyte c hc)
  have hseparate : ∀ b text text', b ∈ ascii "[]\x7b\x7d,:" → Stays .outside text →
      Stays .outside text' → Stays .outside (text ++ b :: text') := by
    intro b text text' hb htext htext'
    exact htext.append ((hbyte b hb).append htext')
  induction hd with
  | null => decide
  | bool b => cases b <;> decide
  | number hn => exact stays_of_all (RegularExpression.all_of_only (by decide) hn)
  | string hchars =>
    exact stays_stringText (stays_flatMap_render fun c hc => stays_render (hchars c hc))
  | emptyArray hspace => exact henclose _ _ _ (by decide) (by decide) hspace.stays
  | array _ ih => exact henclose _ _ _ (by decide) (by decide) ih
  | emptyObject hspace => exact henclose _ _ _ (by decide) (by decide) hspace.stays
  | object _ ih => exact henclose _ _ _ (by decide) (by decide) ih
  | element hbefore _ hafter ih => exact (hbefore.stays.append ih).append hafter.stays
  | lastElement _ ih => exact ih
  | consElement _ _ ih ih' => exact hseparate _ _ _ (by decide) ih ih'
  | member hbefore hkey hafter _ ih =>
    have hkey' := stays_stringText (stays_flatMap_render fun c hc => stays_render (hkey c hc))
    exact hseparate _ _ _ (by decide) ((hbefore.stays.append hkey').append hafter.stays) ih
  | lastMember _ ih => exact ih
  | consMember _ _ ih ih' => exact hseparate _ _ _ (by decide) ih ih'

/-! ### The text of a value that need not be valid -/

/-- The text of a restricted part. -/
def Leaf.render : Leaf → ByteString
  | .number text => text
  | .char c => c.render

/-- The state in which the scanner reaches a restricted part. -/
def Leaf.state : Leaf → ScanState
  | .number _ => .outside
  | .char _ => .inside

/-- The scanner stays at the part. -/
def Leaf.Stays (leaf : Leaf) : Prop := Json.Stays leaf.state leaf.render

/-- The scanner stays at the part or stops in it. -/
def Leaf.Neutral (leaf : Leaf) : Prop := scan leaf.state leaf.render = none ∨ leaf.Stays

/-- The scanner stays at a part that is as the grammar demands. -/
lemma stays_leaf {leaf : Leaf} (hleaf : leaf.Valid) : leaf.Stays := by
  cases leaf with
  | number text => exact Denotes.stays (.number hleaf)
  | char c => exact stays_render hleaf

/-- The scanner stays at the text or stops in it, and it only stays if it stays at all the parts. -/
structure Reveals (s : ScanState) (text : ByteString) (parts : List Leaf) : Prop where
  neutral : scan s text = none ∨ Stays s text
  parts : Stays s text → ∀ leaf ∈ parts, leaf.Stays

/-- A text without restricted parts. -/
lemma Stays.reveals (htext : Stays s text) : Reveals s text [] :=
  ⟨Or.inr htext, fun _ => by simp⟩

/-- Two texts, one after the other. -/
lemma Reveals.append {parts parts' : List Leaf} (htext : Reveals s text parts)
    (htext' : Reveals s text' parts') : Reveals s (text ++ text') (parts ++ parts') := by
  rcases htext.neutral with hnone | hstays
  · have happend : scan s (text ++ text') = none := by rw [scan_append, hnone, Option.bind_none]
    constructor
    · exact Or.inl happend
    · intro hstays
      rw [Stays, happend] at hstays
      cases hstays
  · have happend : scan s (text ++ text') = scan s text' := by
      rw [scan_append, hstays, Option.bind_some]
    have hiff : Stays s (text ++ text') ↔ Stays s text' := by rw [Stays, Stays, happend]
    constructor
    · rw [happend, hiff]
      exact htext'.neutral
    · intro hboth
      exact List.forall_mem_append.mpr ⟨htext.parts hstays, htext'.parts (hiff.mp hboth)⟩

/-- A string. -/
lemma reveals_stringText {chars : List JsonChar} (hchars : ∀ c ∈ chars, (Leaf.char c).Neutral) :
    Reveals .outside (stringText chars) (chars.map .char) := by
  have hreveals : Reveals .inside (chars.flatMap JsonChar.render) (chars.map .char) := by
    induction chars with
    | nil => exact (stays_nil _).reveals
    | cons c chars ih =>
      obtain ⟨hc, hchars⟩ := List.forall_mem_cons.mp hchars
      have hfirst : Reveals .inside c.render [.char c] :=
        ⟨hc, fun hstays => List.forall_mem_singleton.mpr hstays⟩
      exact hfirst.append (ih hchars)
  have hscan : scan .outside (stringText chars) =
      (scan .inside (chars.flatMap JsonChar.render)).bind fun t => scan t [0x22] := by
    rw [stringText, List.cons_append, ← scan_append]
    rfl
  rcases hreveals.neutral with hnone | hstays
  · rw [hnone] at hscan
    refine ⟨Or.inl hscan, fun hstays => ?_⟩
    rw [Stays, hscan] at hstays
    cases hstays
  · exact ⟨Or.inr (stays_stringText hstays), fun _ => hreveals.parts hstays⟩

/-- The elements of an array. -/
lemma reveals_renderElements {vs : List Json}
    (hvs : ∀ v ∈ vs, Reveals .outside (render v) (leaves v)) :
    Reveals .outside (renderElements vs) (elementLeaves vs) := by
  have hcomma : Reveals .outside [0x2c] [] := Stays.reveals (by decide)
  induction vs with
  | nil => exact (stays_nil _).reveals
  | cons v vs ih =>
    obtain ⟨hv, hvs⟩ := List.forall_mem_cons.mp hvs
    cases vs with
    | nil => simpa [renderElements, elementLeaves] using hv
    | cons w vs => exact hv.append (hcomma.append (ih hvs))

/-- The members of an object. -/
lemma reveals_renderMembers {ms : List (List JsonChar × Json)}
    (hms : ∀ m ∈ ms, Reveals .outside (stringText m.1) (m.1.map .char) ∧
      Reveals .outside (render m.2) (leaves m.2)) :
    Reveals .outside (renderMembers ms) (memberLeaves ms) := by
  have hcomma : Reveals .outside [0x2c] [] := Stays.reveals (by decide)
  have hcolon : Reveals .outside [0x3a] [] := Stays.reveals (by decide)
  induction ms with
  | nil => exact (stays_nil _).reveals
  | cons m ms ih =>
    obtain ⟨⟨hkey, hv⟩, hms⟩ := List.forall_mem_cons.mp hms
    have hmember := hkey.append (hcolon.append hv)
    cases ms with
    | nil => simpa [renderMembers, memberLeaves] using hmember
    | cons n ms =>
      have happend := hmember.append (hcomma.append (ih hms))
      simpa [renderMembers, memberLeaves] using happend

/-- The text of a value reveals the restricted parts of the value. -/
theorem reveals_render {v : Json} (hv : v.Every Leaf.Neutral) :
    Reveals .outside (render v) (leaves v) := by
  induction v using Json.induction with
  | null => exact Stays.reveals (by decide)
  | bool b => cases b <;> exact Stays.reveals (by decide)
  | number text =>
    exact ⟨every_number.mp hv, fun hstays => List.forall_mem_singleton.mpr hstays⟩
  | string chars => exact reveals_stringText (every_string.mp hv)
  | array vs ih =>
    have hbracket : Reveals .outside [0x5b] [] ∧ Reveals .outside [0x5d] [] :=
      ⟨Stays.reveals (by decide), Stays.reveals (by decide)⟩
    have hvs := every_array.mp hv
    have helements := reveals_renderElements fun v hmem => ih v hmem (hvs v hmem)
    simpa [render, leaves] using (hbracket.1.append helements).append hbracket.2
  | object ms ih =>
    have hbrace : Reveals .outside [0x7b] [] ∧ Reveals .outside [0x7d] [] :=
      ⟨Stays.reveals (by decide), Stays.reveals (by decide)⟩
    have hms := every_object.mp hv
    have hmembers := reveals_renderMembers fun m hmem =>
      ⟨reveals_stringText (hms m hmem).1, ih m hmem (hms m hmem).2⟩
    simpa [render, leaves] using (hbrace.1.append hmembers).append hbrace.2

/-- If the text of a value is a document, the scanner stays at all restricted parts of the value. -/
theorem Every.stays {v w : Json} (hv : v.Every Leaf.Neutral) (hd : Document v.render w) :
    v.Every Leaf.Stays :=
  (reveals_render hv).parts (Denotes.stays hd)

end Json
