import GalayTracing.Common.HexCodec
import GalayTracing.Foundation.Decimal
import GalayTracing.Foundation.TextLines
import GalayTracing.Kernel.Span
import GalayTracing.Log.LogRecord
import Mathlib.Data.List.Forall2

/-!
# Log lines

The line that `ConsoleSink` writes for a record, and the one that `SpdlogSink` renders.  Both put
the message between quotes as it is, and the message is the last thing on the line: quotes inside it
do no harm, but a newline makes two lines of one record.

A structured event is turned into a record first, whose message is put together from the name and
the fields of the event.  `std::to_string` of a `double` is a parameter.
-/

namespace GalayTracing

/-! ### Structured events -/

/-- `LogFieldValue`. -/
inductive LogFieldValue
  | int64 (value : Int64)
  | uint64 (value : UInt64)
  | double (value : Double)
  | bool (value : Bool)
  | string (value : ByteString)
  deriving DecidableEq

/-- `LogField`. -/
structure LogField where
  name : ByteString
  value : LogFieldValue
  deriving DecidableEq

/-- `StructuredLogRecord`. -/
structure StructuredLogRecord where
  level : LogLevel := .kInfo
  name : ByteString
  fields : List LogField := []
  source : SourceLocation := {}
  context : Option LogContext := none
  deriving DecidableEq

section Event

variable (toString : Double → ByteString)

/-- The characters of a number are appended if they fit in the buffer of `appendFieldValue`. -/
def appendBuffer (message chars : ByteString) : ByteString :=
  if chars.length ≤ 32 then message ++ chars else message

/-- `appendFieldValue`. -/
def appendFieldValue (message : ByteString) : LogFieldValue → ByteString
  | .int64 value => appendBuffer message (Decimal.ofInt value.toInt)
  | .uint64 value => appendBuffer message (Decimal.ofInt value.toNat)
  | .double value => message ++ toString value
  | .bool value => message ++ if value then ascii "true" else ascii "false"
  | .string value => message ++ value

/-- One step of the loop of `makeLogRecord`. -/
def appendField (message : ByteString) (field : LogField) : ByteString :=
  let message := message ++ ascii " "
  let message := message ++ field.name
  let message := message ++ ascii "="
  appendFieldValue toString message field.value

/-- `makeLogRecord` at a reading of the clock, which the record takes as its time. -/
def makeLogRecord (record : StructuredLogRecord) (now : ℤ) : LogRecord where
  level := record.level
  message := record.fields.foldl (appendField toString) record.name
  source := record.source
  context := record.context
  timestamp := now

end Event

/-! ### The sinks -/

/-- `logLevelName`. -/
def logLevelName : LogLevel → ByteString
  | .kTrace => ascii "TRACE"
  | .kDebug => ascii "DEBUG"
  | .kInfo => ascii "INFO"
  | .kWarn => ascii "WARN"
  | .kError => ascii "ERROR"
  | .kOff => ascii "OFF"

/-- `ConsoleSink::write`, given the text that was written before. -/
def ConsoleSink.write (out : ByteString) (record : LogRecord) : ByteString :=
  let out := out ++ ascii "level=" ++ logLevelName record.level
  let out :=
    match record.context with
    | some context =>
      out ++ ascii " trace_id=" ++ context.traceId.toHex ++ ascii " span_id=" ++
        context.spanId.toHex
    | none => out
  out ++ ascii " file=" ++ record.source.file ++ ascii ":" ++ Decimal.ofNat record.source.line ++
    ascii " msg=\"" ++ record.message ++ ascii "\"\n"

/-- `renderRecord` of `SpdlogSink`. -/
def SpdlogSink.renderRecord (record : LogRecord) : ByteString :=
  let line := []
  let line := line ++ ascii "level="
  let line := line ++ logLevelName record.level
  let line :=
    match record.context with
    | some context =>
      let line := line ++ ascii " trace_id="
      let line := line ++ context.traceId.toHex
      let line := line ++ ascii " span_id="
      line ++ context.spanId.toHex
    | none => line
  let line := line ++ ascii " file="
  let line := line ++ record.source.file
  let line := line ++ ascii ":"
  let line := line ++ Decimal.ofNat record.source.line
  let line := line ++ ascii " msg=\""
  let line := line ++ record.message
  line ++ ascii "\""

/-! ### Reading a line -/

/-- What can be read from a line. -/
structure LineView where
  /-- The level of the record. -/
  level : LogLevel
  /-- The identifiers of the record's context, if it has one. -/
  identity : Option (TraceId × SpanId)
  /-- The message of the record. -/
  message : ByteString
  deriving DecidableEq

/-- What should be read from the line of a record. -/
def LogRecord.view (record : LogRecord) : LineView where
  level := record.level
  identity := record.context.map fun context => (context.traceId, context.spanId)
  message := record.message

/-- The rest of a text after a token. -/
def expect (token text : ByteString) : Option ByteString :=
  if token.isPrefixOf text then some (text.drop token.length) else none

/-- The level of a given name. -/
def readLevel (name : ByteString) : Option LogLevel :=
  [.kTrace, .kDebug, .kInfo, .kWarn, .kError, .kOff].find? fun level => logLevelName level == name

/-- The identifiers after the level, if there are any, and the rest of the text. -/
def readIdentity (text : ByteString) : Option (Option (TraceId × SpanId) × ByteString) :=
  match expect (ascii " trace_id=") text with
  | none => some (none, text)
  | some text => do
    let traceId ← Identifier.fromHex (text.take TraceId.kHexLength)
    let text ← expect (ascii " span_id=") (text.drop TraceId.kHexLength)
    let spanId ← Identifier.fromHex (text.take SpanId.kHexLength)
    return (some (traceId, spanId), text.drop SpanId.kHexLength)

/-- Reading a line: the level ends at the first space, and the message is what stands between the
first quote and the last character. -/
def readLine (line : ByteString) : Option LineView := do
  let text ← expect (ascii "level=") line
  let level ← readLevel (text.takeWhile (· != 0x20))
  let (identity, text) ← readIdentity (text.dropWhile (· != 0x20))
  let quoted := (text.dropWhile (· != 0x22)).drop 1
  return { level, identity, message := quoted.dropLast }

/-- A token in front of a text is read. -/
lemma expect_append (token text : ByteString) : expect token (token ++ text) = some text := by
  rw [expect, if_pos (List.isPrefixOf_iff_prefix.mpr (List.prefix_append token text)),
    List.drop_left]

/-- The name of a level denotes it, and has no space. -/
lemma readLevel_logLevelName (level : LogLevel) :
    readLevel (logLevelName level) = some level ∧ ∀ b ∈ logLevelName level, (b != 0x20) = true := by
  cases level <;> decide

/-- The identifiers of a record's context, as they stand on the line. -/
def identityText : Option LogContext → ByteString
  | some context =>
    ascii " trace_id=" ++ (context.traceId.toHex ++ (ascii " span_id=" ++ context.spanId.toHex))
  | none => []

/-- The place of a record, as it stands on the line, up to the quote before the message. -/
def placeText (source : SourceLocation) : ByteString :=
  ascii " file=" ++ (source.file ++ (ascii ":" ++ (Decimal.ofNat source.line ++ ascii " msg=")))

/-- The line of a record. -/
lemma renderRecord_eq (record : LogRecord) :
    SpdlogSink.renderRecord record = ascii "level=" ++ (logLevelName record.level ++
      (identityText record.context ++
        (placeText record.source ++ 0x22 :: (record.message ++ [0x22])))) := by
  have hquote : ascii " msg=\"" = ascii " msg=" ++ [0x22] := rfl
  have hlast : ascii "\"" = [0x22] := rfl
  unfold SpdlogSink.renderRecord identityText placeText
  cases record.context with
  | none => simp [hquote, hlast]
  | some context => simp [hquote, hlast]

/-- The console writes the same line, and a newline. -/
lemma consoleSink_write_eq (out : ByteString) (record : LogRecord) :
    ConsoleSink.write out record = out ++ (SpdlogSink.renderRecord record ++ [0x0a]) := by
  have hlast : ascii "\"\n" = ascii "\"" ++ [0x0a] := rfl
  unfold ConsoleSink.write SpdlogSink.renderRecord
  cases record.context with
  | none => simp [hlast]
  | some context => simp [hlast]

/-- The identifiers are read, and the place is left. -/
lemma readIdentity_append (context : Option LogContext) (source : SourceLocation)
    (text : ByteString) :
    readIdentity (identityText context ++ (placeText source ++ text)) =
      some (context.map fun context => (context.traceId, context.spanId),
        placeText source ++ text) := by
  cases context with
  | none => rfl
  | some context =>
    have htrace : context.traceId.toHex.length = TraceId.kHexLength := by
      rw [Identifier.toHex_eq, Hex.length_encode, context.traceId.bytes.length_toList]
      rfl
    have hspan : context.spanId.toHex.length = SpanId.kHexLength := by
      rw [Identifier.toHex_eq, Hex.length_encode, context.spanId.bytes.length_toList]
      rfl
    rw [readIdentity, identityText, List.append_assoc, List.append_assoc, List.append_assoc,
      expect_append]
    simp only [List.take_left' htrace, List.drop_left' htrace, Identifier.fromHex_toHex,
      Option.bind_eq_bind, Option.bind_some, expect_append, List.take_left' hspan,
      List.drop_left' hspan]
    rfl

/-- The place of a record has no quote if the name of its file has none. -/
lemma quote_notMem_placeText {source : SourceLocation} (hfile : 0x22 ∉ source.file) :
    ∀ b ∈ placeText source, (b != 0x22) = true := by
  have hliteral : ∀ b ∈ ascii " file=" ++ (ascii ":" ++ ascii " msg="), b ≠ 0x22 := by decide
  have hdigit : ∀ b ∈ ascii "0123456789", b ≠ 0x22 := by decide
  intro b hb
  rw [bne_iff_ne]
  simp only [placeText, List.mem_append] at hb hliteral
  rcases hb with hb | hb | hb | hb | hb
  · exact hliteral b (Or.inl hb)
  · rintro rfl
    exact hfile hb
  · exact hliteral b (Or.inr (Or.inl hb))
  · exact hdigit b (Decimal.mem_ofNat hb)
  · exact hliteral b (Or.inr (Or.inr hb))

/-- The line of a record is read back, whatever its message is. -/
theorem readLine_renderRecord {record : LogRecord} (hfile : 0x22 ∉ record.source.file) :
    readLine (SpdlogSink.renderRecord record) = some record.view := by
  obtain ⟨hlevel, hname⟩ := readLevel_logLevelName record.level
  have hspace : ∃ text, identityText record.context ++ (placeText record.source ++
      0x22 :: (record.message ++ [0x22])) = 0x20 :: text := by
    cases record.context with
    | none => exact ⟨_, rfl⟩
    | some context => exact ⟨_, rfl⟩
  obtain ⟨text, htext⟩ := hspace
  have hidentity := readIdentity_append record.context record.source
    (0x22 :: (record.message ++ [0x22]))
  have hquoted : (placeText record.source ++ 0x22 :: (record.message ++ [0x22])).dropWhile
      (· != 0x22) = 0x22 :: (record.message ++ [0x22]) :=
    List.dropWhile_append_of_pos (quote_notMem_placeText hfile)
  rw [renderRecord_eq, readLine, expect_append]
  simp only [Option.bind_eq_bind, Option.bind_some]
  rw [List.takeWhile_append_of_pos hname, List.dropWhile_append_of_pos hname]
  have htake : (identityText record.context ++ (placeText record.source ++
      0x22 :: (record.message ++ [0x22]))).takeWhile (· != 0x20) = [] := by
    rw [htext]
    rfl
  have hdrop : (identityText record.context ++ (placeText record.source ++
      0x22 :: (record.message ++ [0x22]))).dropWhile (· != 0x20) =
        identityText record.context ++ (placeText record.source ++
          0x22 :: (record.message ++ [0x22])) := by
    rw [htext]
    rfl
  rw [htake, List.append_nil, hlevel, hdrop, hidentity]
  simp only [Option.bind_some, hquoted, List.drop_succ_cons, List.drop_zero, List.dropLast_concat]
  rfl

/-! ### Newlines -/

/-- The value of a field has no newline of its own. -/
def LogFieldValue.NoNewline : LogFieldValue → Prop
  | .string value => 0x0a ∉ value
  | _ => True

/-- Neither the name nor the value of a field has a newline. -/
def LogField.NoNewline (field : LogField) : Prop := 0x0a ∉ field.name ∧ field.value.NoNewline

/-- What is written to a log: a record, or an event that is made one at a reading of the clock. -/
inductive LogEntry
  | plain (record : LogRecord)
  | structured (event : StructuredLogRecord) (now : ℤ)

namespace LogEntry

/-- The place of an entry in the source. -/
def source : LogEntry → SourceLocation
  | plain record => record.source
  | structured event _ => event.source

/-- The message of a record, or the name and the fields of an event, have no newline. -/
def NoNewline : LogEntry → Prop
  | plain record => 0x0a ∉ record.message
  | structured event _ => 0x0a ∉ event.name ∧ ∀ field ∈ event.fields, field.NoNewline

/-- The record that the sinks are given. -/
def toRecord (toString : Double → ByteString) : LogEntry → LogRecord
  | plain record => record
  | structured event now => makeLogRecord toString event now

/-- The place of an entry is that of its record. -/
@[simp] lemma source_toRecord (toString : Double → ByteString) (entry : LogEntry) :
    (entry.toRecord toString).source = entry.source := by
  cases entry <;> rfl

end LogEntry

variable {toString : Double → ByteString}

/-- Appending the characters of a number adds no newline. -/
lemma newline_notMem_appendBuffer {message : ByteString} (n : ℤ) :
    0x0a ∉ appendBuffer message (Decimal.ofInt n) ↔ 0x0a ∉ message := by
  have hdigits : 0x0a ∉ Decimal.ofInt n := by
    intro hmem
    have hall : ∀ b ∈ ascii "-0123456789", b ≠ 0x0a := by decide
    exact hall _ (Decimal.mem_ofInt hmem) rfl
  unfold appendBuffer
  split_ifs
  · rw [List.mem_append, not_or]
    exact and_iff_left hdigits
  · exact Iff.rfl

/-- Appending the value of a field adds a newline if the value has one. -/
lemma newline_notMem_appendFieldValue (hdouble : ∀ d, 0x0a ∉ toString d) {message : ByteString}
    (value : LogFieldValue) :
    0x0a ∉ appendFieldValue toString message value ↔ 0x0a ∉ message ∧ value.NoNewline := by
  match value with
  | .int64 value =>
    rw [appendFieldValue, newline_notMem_appendBuffer]
    exact (and_iff_left trivial).symm
  | .uint64 value =>
    rw [appendFieldValue, newline_notMem_appendBuffer]
    exact (and_iff_left trivial).symm
  | .double value =>
    rw [appendFieldValue, List.mem_append, not_or]
    exact and_congr_right fun _ => iff_of_true (hdouble value) trivial
  | .bool true => simp [appendFieldValue, LogFieldValue.NoNewline, ascii]
  | .bool false => simp [appendFieldValue, LogFieldValue.NoNewline, ascii]
  | .string value =>
    rw [appendFieldValue, List.mem_append, not_or]
    exact Iff.rfl

/-- The message of an event has a newline if its name or one of its fields has one. -/
lemma newline_notMem_foldl (hdouble : ∀ d, 0x0a ∉ toString d) (fields : List LogField)
    {message : ByteString} : 0x0a ∉ fields.foldl (appendField toString) message ↔
      0x0a ∉ message ∧ ∀ field ∈ fields, field.NoNewline := by
  induction fields generalizing message with
  | nil => simp
  | cons field fields ih =>
    have hspace : 0x0a ∉ ascii " " := by decide
    have hequals : 0x0a ∉ ascii "=" := by decide
    rw [List.foldl_cons, ih, appendField, newline_notMem_appendFieldValue hdouble,
      List.forall_mem_cons]
    simp only [List.mem_append, LogField.NoNewline, hspace, hequals, or_false, not_or]
    tauto

/-- The message of an entry has a newline if the entry has one. -/
lemma newline_notMem_message (hdouble : ∀ d, 0x0a ∉ toString d) (entry : LogEntry) :
    0x0a ∉ (entry.toRecord toString).message ↔ entry.NoNewline := by
  cases entry with
  | plain record => exact Iff.rfl
  | structured event now => exact newline_notMem_foldl hdouble event.fields

/-- The text of an identifier has no newline. -/
lemma newline_notMem_toHex {n : ℕ} (id : Identifier n) : 0x0a ∉ id.toHex := by
  have hall : ∀ b ∈ kHexDigits, b ≠ 0x0a := by decide
  rw [Identifier.toHex_eq]
  intro hmem
  exact hall _ (mem_kHexDigits_of_mem_encode hmem) rfl

/-- The line of a record has a newline if its message has one. -/
lemma newline_notMem_renderRecord {record : LogRecord} (hfile : 0x0a ∉ record.source.file) :
    0x0a ∉ SpdlogSink.renderRecord record ↔ 0x0a ∉ record.message := by
  have hname : 0x0a ∉ logLevelName record.level := by cases record.level <;> decide
  have hidentity : 0x0a ∉ identityText record.context := by
    cases record.context with
    | none => exact List.not_mem_nil
    | some context =>
      simp only [identityText, List.mem_append, newline_notMem_toHex, or_false, false_or]
      decide
  have hplace : 0x0a ∉ placeText record.source := by
    have hall : ∀ b ∈ ascii "0123456789", b ≠ 0x0a := by decide
    have hline : 0x0a ∉ Decimal.ofNat record.source.line := fun hmem =>
      hall _ (Decimal.mem_ofNat hmem) rfl
    simp only [placeText, List.mem_append, hfile, hline, false_or]
    decide
  have hlevel : 0x0a ∉ ascii "level=" := by decide
  rw [renderRecord_eq]
  simp [hlevel, hname, hidentity, hplace]

/-! ### The text of the console -/

/-- The text that `ConsoleSink` writes for some entries. -/
def consoleText (toString : Double → ByteString) (entries : List LogEntry) : ByteString :=
  entries.foldl (fun out entry => ConsoleSink.write out (entry.toRecord toString)) []

/-- The log can be trusted: the text splits at the newlines into one line for each entry, in their
order, from which its level, its identifiers and its message are read, and the other sink renders
the same lines. -/
def LinesReadBack (toString : Double → ByteString) (entries : List LogEntry) : Prop :=
  (∃ lines, (consoleText toString entries).splitOn 0x0a = lines ++ [[]] ∧
    List.Forall₂ (fun entry line => readLine line = some (entry.toRecord toString).view)
      entries lines) ∧
  ∀ entry ∈ entries, ConsoleSink.write [] (entry.toRecord toString) =
    SpdlogSink.renderRecord (entry.toRecord toString) ++ [0x0a]

/-- The text consists of the lines of the entries. -/
lemma consoleText_eq (entries : List LogEntry) : consoleText toString entries =
    TextLines.join 0x0a
      (entries.map fun entry => SpdlogSink.renderRecord (entry.toRecord toString)) := by
  have hloop : ∀ out : ByteString,
      entries.foldl (fun out entry => ConsoleSink.write out (entry.toRecord toString)) out =
        out ++ TextLines.join 0x0a
          (entries.map fun entry => SpdlogSink.renderRecord (entry.toRecord toString)) := by
    induction entries with
    | nil => simp [TextLines.join]
    | cons entry entries ih =>
      intro out
      rw [List.foldl_cons, ih, consoleSink_write_eq, List.map_cons, TextLines.join_cons]
      simp
  rw [consoleText, hloop, List.nil_append]

/-- The log can be trusted if and only if no message of a record, and no name, field name or string
field of an event has a newline; other bytes, quotes included, do no harm. -/
theorem linesReadBack_iff (toString : Double → ByteString) (hdouble : ∀ d, 0x0a ∉ toString d)
    (entries : List LogEntry)
    (hfile : ∀ entry ∈ entries, 0x0a ∉ entry.source.file ∧ 0x22 ∉ entry.source.file) :
    LinesReadBack toString entries ↔ ∀ entry ∈ entries, entry.NoNewline := by
  have hline : ∀ entry ∈ entries,
      0x0a ∉ SpdlogSink.renderRecord (entry.toRecord toString) ↔ entry.NoNewline := by
    intro entry hentry
    rw [newline_notMem_renderRecord, newline_notMem_message hdouble]
    rw [LogEntry.source_toRecord]
    exact (hfile entry hentry).1
  have hlines : (∀ line ∈ entries.map fun entry =>
      SpdlogSink.renderRecord (entry.toRecord toString), 0x0a ∉ line) ↔
        ∀ entry ∈ entries, entry.NoNewline := by
    rw [List.forall_mem_map]
    exact forall₂_congr hline
  constructor
  · rintro ⟨⟨lines, hsplit, hread⟩, -⟩
    rw [← hlines]
    apply TextLines.notMem_of_length_splitOn
    rw [← consoleText_eq, hsplit, List.length_append, List.length_map, ← hread.length_eq,
      List.length_singleton]
  · intro hentries
    refine ⟨⟨entries.map fun entry => SpdlogSink.renderRecord (entry.toRecord toString), ?_, ?_⟩,
      fun entry _ => consoleSink_write_eq [] (entry.toRecord toString)⟩
    · rw [consoleText_eq]
      exact TextLines.splitOn_join (hlines.mpr hentries)
    · rw [List.forall₂_map_right_iff, List.forall₂_same]
      intro entry hentry
      apply readLine_renderRecord
      rw [LogEntry.source_toRecord]
      exact (hfile entry hentry).2

/-- A record with a quote in its message, and an event with a number. -/
theorem linesReadBack_sample :
    LinesReadBack (fun _ => ascii "0.000000")
      [.plain { message := ascii "say \"hi\"", source := {}, context := none, timestamp := 0 },
        .structured { name := ascii "tick", fields := [⟨ascii "n", .int64 1⟩] } 0] := by
  refine (linesReadBack_iff _ ?_ _ ?_).mpr ?_
  · exact fun _ => by decide
  · simp [LogEntry.source]
  · simp [LogEntry.NoNewline, LogField.NoNewline, LogFieldValue.NoNewline, ascii]

/-- A message that contains a newline and a forged line. -/
theorem newlineInMessage_not_linesReadBack :
    ¬LinesReadBack (fun _ => ascii "0.000000")
      [.plain
        { message := ascii "x\"\nlevel=ERROR file=:0 msg=\"forged"
          source := {}
          context := none
          timestamp := 0 }] := by
  rintro ⟨⟨lines, hsplit, hread⟩, -⟩
  have hlength := congrArg List.length hsplit
  rw [TextLines.length_splitOn, List.length_append, ← hread.length_eq] at hlength
  revert hlength
  decide

end GalayTracing
