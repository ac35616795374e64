import GalayTracing.BatchSpanProcessor.State
import GalayTracing.Foundation.Json.Reading
import GalayTracing.Foundation.Json.Scanner
import GalayTracing.Kernel.Span

/-!
# The lines of a file exporter

The exporter writes one line for each span.  Its strings escape the quote and the backslash only, so
a name with a control byte gives a line that is no JSON document, or two lines if that byte is the
newline.  All other names are read back.
-/

namespace GalayTracing

open Json

namespace FileSpanExporter

/-- One step of the loop of `appendJsonString`. -/
def appendJsonChar (out : ByteString) (ch : UInt8) : ByteString :=
  let out := if ch = 0x22 ∨ ch = 0x5c then out ++ [0x5c] else out
  out ++ [ch]

/-- `appendJsonString`. -/
def appendJsonString (out value : ByteString) : ByteString :=
  value.foldl appendJsonChar (out ++ ascii "\"") ++ ascii "\""

/-- `renderSpanJson`. -/
def renderSpanJson (span : Span) : ByteString :=
  let context := span.spanContext
  let line := ascii "\x7b\"name\":"
  let line := appendJsonString line span.name
  let line := line ++ ascii ",\"trace_id\":\""
  let line := line ++ context.traceId.toHex
  let line := line ++ ascii "\",\"span_id\":\""
  let line := line ++ context.spanId.toHex
  let line := line ++ ascii "\",\"sampled\":"
  let line := line ++ if context.sampled then ascii "true" else ascii "false"
  line ++ ascii "\x7d"

/-- The stream `m_out`: whether it is open and has not failed, and the text of its file.  The writes
to a good stream succeed. -/
structure OutputStream where
  good : Bool
  text : ByteString
  deriving DecidableEq

/-- Writing to the stream: a stream that is not good ignores it. -/
def OutputStream.write (out : OutputStream) (text : ByteString) : OutputStream :=
  if out.good then { out with text := out.text ++ text } else out

/-- `FileSpanExporter::exportSpans`. -/
def exportSpans (out : OutputStream) (spans : List Span) : ExportResult × OutputStream :=
  if !out.good then (.kFailure, out)
  else
    let out := spans.foldl (fun out span => (out.write (renderSpanJson span)).write [0x0a]) out
    (if out.good then .kSuccess else .kFailure, out)

/-- The stream after a sequence of calls of `exportSpans`. -/
def exportAll (out : OutputStream) (batches : List (List Span)) : OutputStream :=
  batches.foldl (fun out spans => (exportSpans out spans).2) out

/-- The line is a JSON object, from which the name, the identifiers and the sampled flag of the span
are read back. -/
def ReadsBack (span : Span) (line : ByteString) : Prop :=
  ∃ ms, Document line (.object ms) ∧
    ((Json.object ms).member (ascii "name")).bind asString = some span.name ∧
    ((Json.object ms).member (ascii "trace_id")).bind
      (fun v => v.asString.bind Identifier.fromHex) = some span.spanContext.traceId ∧
    ((Json.object ms).member (ascii "span_id")).bind
      (fun v => v.asString.bind Identifier.fromHex) = some span.spanContext.spanId ∧
    ((Json.object ms).member (ascii "sampled")).bind asBool = some span.spanContext.sampled

/-- What was appended to the text consists of one line for each span, in their order. -/
def AppendsLines (before after : ByteString) (spans : List Span) : Prop :=
  ∃ appended lines, after = before ++ appended ∧ appended.splitOn 0x0a = lines ++ [[]] ∧
    List.Forall₂ ReadsBack spans lines

/-! ### The value of a line -/

/-- The character written for a byte of a name. -/
def escapeChar (b : UInt8) : JsonChar := if b = 0x22 ∨ b = 0x5c then .escape b else .byte b

/-- The members of a line. -/
def lineMembers (span : Span) : List (List JsonChar × Json) :=
  [field (ascii "name") (.string (span.name.map escapeChar)),
    field (ascii "trace_id") (plainJson span.spanContext.traceId.toHex),
    field (ascii "span_id") (plainJson span.spanContext.spanId.toHex),
    field (ascii "sampled") (.bool span.spanContext.sampled)]

/-- `appendJsonString` writes a string, valid or not. -/
lemma appendJsonString_eq (out value : ByteString) :
    appendJsonString out value = out ++ render (.string (value.map escapeChar)) := by
  have hchar : ∀ out b, appendJsonChar out b = out ++ (escapeChar b).render := by
    intro out b
    unfold appendJsonChar escapeChar
    split_ifs
    · simp [JsonChar.render]
    · simp [JsonChar.render]
  have hloop := JsonChar.foldl_append_render hchar
  simp [appendJsonString, hloop, render, stringText, ascii]

/-- A line is the text of its value. -/
lemma renderSpanJson_eq (span : Span) :
    renderSpanJson span = render (.object (lineMembers span)) := by
  simp only [renderSpanJson, appendJsonString_eq, lineMembers, render_object_cons,
    List.flatMap_cons, List.flatMap_nil, renderMember_field, render_plainJson]
  by_cases hsampled : span.spanContext.sampled = true
  · simp [hsampled, render, ascii]
  · simp [hsampled, render, ascii]

/-- The text of the lines of some spans. -/
def linesText (spans : List Span) : ByteString :=
  spans.flatMap fun span => render (.object (lineMembers span)) ++ [0x0a]

/-- Exporting a batch appends its lines. -/
lemma exportSpans_of_good {out : OutputStream} (hgood : out.good = true) (spans : List Span) :
    exportSpans out spans = (.kSuccess, { good := true, text := out.text ++ linesText spans }) := by
  have hloop : ∀ out : OutputStream, out.good = true →
      spans.foldl (fun out span => (out.write (renderSpanJson span)).write [0x0a]) out =
        { good := true, text := out.text ++ linesText spans } := by
    induction spans with
    | nil =>
      rintro ⟨good, text⟩ hgood
      simp [linesText, show good = true from hgood]
    | cons span spans ih =>
      intro out hgood
      rw [List.foldl_cons, ih _ (by simp [OutputStream.write, hgood])]
      simp [OutputStream.write, hgood, linesText, renderSpanJson_eq]
  simp [exportSpans, hgood, hloop out hgood]

/-- A sequence of calls appends the lines of all batches. -/
lemma exportAll_of_good {out : OutputStream} (hgood : out.good = true)
    (batches : List (List Span)) :
    (exportAll out batches).text = out.text ++ linesText batches.flatten := by
  induction batches generalizing out with
  | nil => simp [exportAll, linesText]
  | cons spans batches ih =>
    have hrest := @ih { good := true, text := out.text ++ linesText spans } rfl
    rw [exportAll, List.foldl_cons, exportSpans_of_good hgood]
    exact hrest.trans (by simp [linesText])

/-! ### The names that are read back -/

/-- No name of a span has a control byte. -/
def NoControls (spans : List Span) : Prop := ∀ span ∈ spans, ∀ b ∈ span.name, 0x20 ≤ b

instance (spans : List Span) : Decidable (NoControls spans) :=
  inferInstanceAs (Decidable (∀ span ∈ spans, ∀ b ∈ span.name, 0x20 ≤ b))

/-- The restricted parts of a line are valid characters and those of the name. -/
lemma every_lineMembers {p : Leaf → Prop} (hp : ∀ c : JsonChar, c.Valid → p (.char c))
    (span : Span) :
    (Json.object (lineMembers span)).Every p ↔ ∀ b ∈ span.name, p (.char (escapeChar b)) := by
  have hhex : ∀ {n : ℕ} (id : Identifier n), (plainJson id.toHex).Every p := by
    intro n id
    rw [Identifier.toHex_eq]
    exact every_encode hp _
  rw [lineMembers, every_field_cons hp (by decide), every_field_cons hp (by decide),
    every_field_cons hp (by decide), every_field_cons hp (by decide)]
  simp [hhex]

/-- A byte that is no control byte is written as a character that is allowed in a string. -/
lemma valid_escapeChar {b : UInt8} (hb : 0x20 ≤ b) : (escapeChar b).Valid := by
  have hall : ∀ b : UInt8, 0x20 ≤ b → (escapeChar b).Valid := forall_byte (by decide +kernel)
  exact hall b hb

/-- The scanner stops at a control byte in a name. -/
lemma neutral_escapeChar (b : UInt8) : (Leaf.char (escapeChar b)).Neutral := by
  by_cases hb : 0x20 ≤ b
  · exact Or.inr (stays_render (valid_escapeChar hb))
  · left
    have hall : ∀ b : UInt8, ¬0x20 ≤ b → scan .inside (escapeChar b).render = none :=
      forall_byte (by decide +kernel)
    exact hall b hb

/-- The scanner stays only at the bytes that are no control bytes. -/
lemma le_of_stays_escapeChar {b : UInt8} (hb : (Leaf.char (escapeChar b)).Stays) : 0x20 ≤ b := by
  have hall : ∀ b : UInt8, Stays .inside (escapeChar b).render → 0x20 ≤ b :=
    forall_byte (by decide +kernel)
  exact hall b hb

/-- A name is read back from its string. -/
lemma unescape_map_escapeChar (name : ByteString) :
    JsonChar.unescape (name.map escapeChar) = some name := by
  apply JsonChar.unescape_map
  intro b chars
  unfold escapeChar
  split_ifs with hb
  · exact JsonChar.unescape_escape (JsonChar.escaped_self hb)
  · exact JsonChar.unescape_byte b chars

/-- The line of a span whose name has no control byte is read back. -/
lemma readsBack_of_le {span : Span} (hname : ∀ b ∈ span.name, 0x20 ≤ b) :
    ReadsBack span (render (.object (lineMembers span))) := by
  have hchar : ∀ c : JsonChar, c.Valid → (Leaf.char c).Valid := fun c hc => hc
  have hvalid : (Json.object (lineMembers span)).Valid :=
    (every_lineMembers hchar span).mpr fun b hb => valid_escapeChar (hname b hb)
  refine ⟨lineMembers span, hvalid.document_render, ?_, ?_, ?_, ?_⟩
  · simp [lineMembers, member_field_cons, asString, unescape_map_escapeChar]
  · simp +decide [lineMembers, member_field_cons, Identifier.fromHex_toHex]
  · simp +decide [lineMembers, member_field_cons, Identifier.fromHex_toHex]
  · simp +decide [lineMembers, member_field_cons, asBool]

/-- The line of a span whose name has no control byte is one line. -/
lemma newline_notMem_line {span : Span} (hname : ∀ b ∈ span.name, 0x20 ≤ b) :
    0x0a ∉ render (.object (lineMembers span)) := by
  have hhex : ∀ {n : ℕ} (id : Identifier n), 0x0a ∉ id.toHex := by
    intro n id hmem
    rw [Identifier.toHex_eq] at hmem
    have hvalid := valid_encode _ _ hmem
    revert hvalid
    decide
  have hchars : 0x0a ∉ (span.name.map escapeChar).flatMap JsonChar.render := by
    have hchar : ∀ b : UInt8, 0x20 ≤ b → 0x0a ∉ (escapeChar b).render :=
      forall_byte (by decide +kernel)
    intro hmem
    obtain ⟨c, hc, hmem⟩ := List.mem_flatMap.mp hmem
    obtain ⟨b, hb, rfl⟩ := List.mem_map.mp hc
    exact hchar b (hname b hb) hmem
  simp only [lineMembers, render_object_cons, List.flatMap_cons, List.flatMap_nil,
    renderMember_field, render_plainJson]
  by_cases hsampled : span.spanContext.sampled = true
  · simp [hhex, hchars, hsampled, render, stringText, ascii]
  · simp [hhex, hchars, hsampled, render, stringText, ascii]

/-- Lines without control bytes in the names are split and read back. -/
lemma exists_lines_of_noControls {spans : List Span} (hspans : NoControls spans) :
    ∃ lines, (linesText spans).splitOn 0x0a = lines ++ [[]] ∧
      List.Forall₂ ReadsBack spans lines := by
  induction spans with
  | nil => exact ⟨[], by simp [linesText], .nil⟩
  | cons span spans ih =>
    obtain ⟨hspan, hspans⟩ := List.forall_mem_cons.mp hspans
    obtain ⟨lines, hsplit, hlines⟩ := ih hspans
    refine ⟨render (.object (lineMembers span)) :: lines, ?_, .cons (readsBack_of_le hspan) hlines⟩
    rw [linesText, List.flatMap_cons, List.append_assoc, List.singleton_append,
      List.splitOn_append_cons_self_of_not_mem (newline_notMem_line hspan)]
    exact congrArg _ hsplit

/-- If every line of a text is a document, the scanner stays at the text. -/
lemma stays_of_lines {text : ByteString} {lines : List ByteString}
    (hsplit : text.splitOn 0x0a = lines ++ [[]])
    (hlines : ∀ line ∈ lines, ∃ v, Document line v) : Stays .outside text := by
  have hjoin : ∀ line ∈ lines ++ [[]], Stays .outside line := by
    rw [List.forall_mem_append, List.forall_mem_singleton]
    constructor
    · intro line hline
      obtain ⟨v, hv⟩ := hlines line hline
      exact Denotes.stays hv
    · exact stays_nil _
  have htext : [0x0a].intercalate (text.splitOn 0x0a) = text := List.intercalate_splitOn 0x0a
  rw [hsplit] at htext
  rw [← htext]
  exact stays_intercalate (by decide) hjoin

/-- The lines of some spans reveal the characters of their names. -/
lemma reveals_linesText (spans : List Span) :
    Reveals .outside (linesText spans)
      (spans.flatMap fun span => leaves (.object (lineMembers span))) := by
  induction spans with
  | nil => exact (stays_nil _).reveals
  | cons span spans ih =>
    have hchar : ∀ c : JsonChar, c.Valid → (Leaf.char c).Neutral :=
      fun c hc => Or.inr (stays_render hc)
    have hneutral : (Json.object (lineMembers span)).Every Leaf.Neutral :=
      (every_lineMembers hchar span).mpr fun b _ => neutral_escapeChar b
    have hline := reveals_render hneutral
    have hnewline : Reveals .outside [0x0a] [] := Stays.reveals (by decide)
    have happend := (hline.append hnewline).append ih
    rw [List.append_nil] at happend
    exact happend

/-- If the scanner stays at the lines of some spans, no name has a control byte. -/
lemma noControls_of_stays {spans : List Span} (hstays : Stays .outside (linesText spans)) :
    NoControls spans := by
  have hparts := (reveals_linesText spans).parts hstays
  have hchar : ∀ c : JsonChar, c.Valid → (Leaf.char c).Stays := fun c hc => stays_render hc
  intro span hspan b hb
  have hline : (Json.object (lineMembers span)).Every Leaf.Stays := by
    intro leaf hleaf
    exact hparts leaf (List.mem_flatMap.mpr ⟨span, hspan, hleaf⟩)
  exact le_of_stays_escapeChar ((every_lineMembers hchar span).mp hline b hb)

/-- Lines from which spans are read back are documents. -/
lemma documents_of_readsBack {spans : List Span} {lines : List ByteString}
    (hlines : List.Forall₂ ReadsBack spans lines) : ∀ line ∈ lines, ∃ v, Document line v := by
  induction hlines with
  | nil => simp
  | cons hline _ ih =>
    obtain ⟨ms, hdocument, -⟩ := hline
    exact List.forall_mem_cons.mpr ⟨⟨_, hdocument⟩, ih⟩

/-- The calls append one line for each span, from which it is read back, if and only if no name has
a control byte. -/
theorem exportAll_appendsLines_iff (out : OutputStream) (hgood : out.good = true)
    (batches : List (List Span)) :
    AppendsLines out.text (exportAll out batches).text batches.flatten ↔
      NoControls batches.flatten := by
  rw [exportAll_of_good hgood]
  constructor
  · rintro ⟨appended, lines, happended, hsplit, hlines⟩
    obtain rfl := List.append_cancel_left happended
    apply noControls_of_stays
    exact stays_of_lines hsplit (documents_of_readsBack hlines)
  · intro hspans
    obtain ⟨lines, hsplit, hlines⟩ := exists_lines_of_noControls hspans
    exact ⟨linesText batches.flatten, lines, rfl, hsplit, hlines⟩

/-- Two batches, with a quote and a backslash in a name. -/
theorem exportAll_appendsLines_sample :
    AppendsLines [] (exportAll { good := true, text := [] }
      [[{ name := ascii "a\"\\" }, {}], [{ name := ascii "b" }]]).text
      [[{ name := ascii "a\"\\" }, {}], [{ name := ascii "b" }]].flatten := by
  apply (exportAll_appendsLines_iff { good := true, text := [] } rfl _).mpr
  decide

/-- A newline in the name of a span. -/
theorem newlineInName_not_appendsLines :
    ¬AppendsLines [] (exportAll { good := true, text := [] } [[{ name := [0x0a] }]]).text
      [[{ name := [0x0a] }]].flatten := by
  rw [exportAll_of_good rfl]
  rintro ⟨appended, lines, happended, hsplit, hlines⟩
  obtain rfl := List.append_cancel_left happended
  have hnone := noControls_of_stays (stays_of_lines hsplit (documents_of_readsBack hlines)) _
    List.mem_cons_self 0x0a List.mem_cons_self
  revert hnone
  decide

end FileSpanExporter

end GalayTracing
