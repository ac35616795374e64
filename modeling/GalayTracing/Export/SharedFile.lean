import GalayTracing.Export.FileSpanExporter
import GalayTracing.Export.SpanExporter
import GalayTracing.Foundation.Monitor

/-!
# A file exporter that several threads use

The worker of a processor exports and flushes while a caller of `shutdown` closes the file, so the
calls of an exporter come from several threads.  Each call takes the mutex, and inside it uses a
buffered stream, whose writes may fail at any byte.  As the calls are behind a mutex, the stream is
what the sequential machine of the monitor makes of it.  When all its writes succeed, a body of
`exportSpans` computes what the function `exportSpans` does (`exportSpans_iff_body`).

`kSuccess` says only that the stream has accepted the lines of a batch.  They are in the file once a
later `forceFlush` answers `true`, which it does only if no call has failed so far
(`persisted_of_flush`); and when the file has been closed, nothing reaches it any more
(`closed_for_good`).
-/

namespace GalayTracing

namespace FileSpanExporter

open SpanExporter

/-! ### The stream -/

/-- The stream `m_out` over its file. -/
structure FileStream where
  /-- The file is open. -/
  isOpen : Bool
  /-- No operation has failed so far. -/
  good : Bool
  /-- What the file holds. -/
  file : ByteString
  /-- What the stream has accepted, but not yet written to the file. -/
  buffer : ByteString := []
  deriving DecidableEq

/-- How an operation that may write to the file comes out. -/
inductive Outcome
  /-- The file takes what there is to write, except for the last `kept` bytes. -/
  | accepted (kept : ℕ)
  /-- A write fails, and leaves some bytes in the file. -/
  | failed (left : ByteString)
  deriving DecidableEq

namespace FileStream

/-- The constructor, which opens the file to append to it. -/
def new (opens : Bool) (file : ByteString) : FileStream where
  isOpen := opens
  good := opens
  file := file

/-- A write has failed. -/
def fail (out : FileStream) (left : ByteString) : FileStream :=
  { out with good := false, file := out.file ++ left, buffer := [] }

/-- `m_out << text`.  A stream that is not good ignores the text, and a closed one cannot take
it. -/
def put (out : FileStream) (text : ByteString) (outcome : Outcome) : FileStream :=
  if !out.good then out
  else if !out.isOpen then { out with good := false }
  else
    match outcome with
    | .accepted kept =>
      let pending := out.buffer ++ text
      { out with
        file := out.file ++ pending.take (pending.length - kept)
        buffer := pending.drop (pending.length - kept) }
    | .failed left => out.fail left

/-- `m_out.flush()`.  There is nothing to flush when the file is closed. -/
def flush (out : FileStream) (outcome : Outcome) : FileStream :=
  if !out.isOpen then out
  else
    match outcome with
    | .accepted _ => { out with file := out.file ++ out.buffer, buffer := [] }
    | .failed left => out.fail left

/-- `m_out.close()`, which fails when the file is closed already. -/
def close (out : FileStream) (outcome : Outcome) : FileStream :=
  if !out.isOpen then { out with good := false }
  else { out.flush outcome with isOpen := false }

end FileStream

/-! ### The calls -/

/-- The program points of the calls while they hold the mutex. -/
inductive Point
  /-- `if (!m_out)` of `exportSpans`. -/
  | test (spans : List Span)
  /-- `m_out << renderSpanJson(span)` for the next of the spans in `rest`, and the final test when
  there is none. -/
  | putLine (done rest : List Span)
  /-- `<< '\n'` after the line of `span`. -/
  | putNewline (done : List Span) (span : Span) (rest : List Span)
  /-- `m_out.flush()` of `forceFlush`. -/
  | flush
  /-- `static_cast<bool>(m_out)` of `forceFlush`. -/
  | flushed
  /-- `m_out.flush()` of `shutdown`. -/
  | closeFlush
  /-- `m_out.close()` of `shutdown`. -/
  | close
  /-- The call is about to return. -/
  | done (answer : Answer)
  deriving DecidableEq

/-- The operations of the calls while they hold the mutex. -/
inductive Op
  /-- `!m_out` is tested, and `good` says whether the stream is good. -/
  | test (spans : List Span) (good : Bool)
  /-- `m_out << renderSpanJson(span)`. -/
  | putLine (done : List Span) (span : Span) (rest : List Span) (outcome : Outcome)
  /-- `<< '\n'`. -/
  | putNewline (done : List Span) (span : Span) (rest : List Span) (outcome : Outcome)
  /-- The loop is over, and `m_out` is tested. -/
  | result (spans : List Span) (good : Bool)
  /-- `m_out.flush()` of `forceFlush`. -/
  | flush (outcome : Outcome)
  /-- `m_out` is tested in `forceFlush`. -/
  | flushed (good : Bool)
  /-- `m_out.flush()` of `shutdown`. -/
  | closeFlush (outcome : Outcome)
  /-- `m_out.close()`. -/
  | close (outcome : Outcome)
  deriving DecidableEq

/-- Where the body of a call starts. -/
def start : Call → Point
  | .exportSpans spans => .test spans
  | .forceFlush => .flush
  | .shutdown => .closeFlush

/-- The operations, as the functions have them. -/
def command : Op → Command FileStream Point
  | .test spans good =>
    { source := .test spans
      guard := fun out => out.good == good
      update := id
      target := if good then .putLine [] spans else .done (.result .kFailure) }
  | .putLine done span rest outcome =>
    { source := .putLine done (span :: rest)
      guard := fun _ => true
      update := fun out => out.put (renderSpanJson span) outcome
      target := .putNewline done span rest }
  | .putNewline done span rest outcome =>
    { source := .putNewline done span rest
      guard := fun _ => true
      update := fun out => out.put [0x0a] outcome
      target := .putLine (done ++ [span]) rest }
  | .result spans good =>
    { source := .putLine spans []
      guard := fun out => out.good == good
      update := id
      target := .done (.result (if good then .kSuccess else .kFailure)) }
  | .flush outcome =>
    { source := .flush
      guard := fun _ => true
      update := fun out => out.flush outcome
      target := .flushed }
  | .flushed good =>
    { source := .flushed
      guard := fun out => out.good == good
      update := id
      target := .done (.flag good) }
  | .closeFlush outcome =>
    { source := .closeFlush
      guard := fun _ => true
      update := fun out => out.flush outcome
      target := .close }
  | .close outcome =>
    { source := .close
      guard := fun _ => true
      update := fun out => out.close outcome
      target := .done (.flag true) }

/-- A file exporter: the mutex `m_mutex` and the stream `m_out`. -/
def exporter : Monitor FileStream Call Answer Point Op where
  start := start
  body := command
  answer
    | .done answer => some answer
    | _ => none

/-- A file exporter that the threads `ι` use. -/
def sharedFile (ι : Type) [DecidableEq ι] (opens : Bool) (file : ByteString) :
    Lts (Monitor.State ι FileStream Call Answer Point) (Monitor.Label ι Call Answer Op) :=
  exporter.system ι (.new opens file)

/-- The batches that have been exported successfully, in the order in which their calls held the
mutex. -/
def written (h : List (Monitor.Section Call Answer Op)) : List (List Span) :=
  (Monitor.answers h).filterMap fun
    | (.exportSpans spans, .result .kSuccess) => some spans
    | _ => none

@[simp]
lemma written_append (h h' : List (Monitor.Section Call Answer Op)) :
    written (h ++ h') = written h ++ written h' := by
  rw [written, Monitor.answers_append, List.filterMap_append]
  rfl

/-! ### The operations of the stream -/

namespace FileStream

variable {out : FileStream} {outcome : Outcome} {text : ByteString}

/-- If the stream is good after an insertion, it has accepted the text. -/
lemma put_of_good (hgood : (out.put text outcome).good = true) :
    out.good = true ∧ out.isOpen = true ∧ (out.put text outcome).isOpen = true ∧
      (out.put text outcome).file ++ (out.put text outcome).buffer =
        out.file ++ out.buffer ++ text := by
  unfold put at hgood ⊢
  split_ifs at hgood ⊢ with hbad hclosed
  · simp [hgood] at hbad
  · have hg : out.good = true := by simpa using hbad
    have hopen : out.isOpen = true := by simpa using hclosed
    cases outcome with
    | failed left => cases hgood
    | accepted kept => simp [hg, hopen]

/-- If the stream is good after it was flushed, nothing has been lost. -/
lemma flush_of_good (hgood : (out.flush outcome).good = true) :
    out.good = true ∧ (out.flush outcome).file ++ (out.flush outcome).buffer =
      out.file ++ out.buffer ∧ (out.isOpen = true → (out.flush outcome).buffer = []) := by
  unfold flush at hgood ⊢
  split_ifs at hgood ⊢ with hclosed
  · exact ⟨hgood, rfl, fun hopen => by simp [hopen] at hclosed⟩
  · cases outcome with
    | failed left => cases hgood
    | accepted kept => exact ⟨hgood, by simp, fun _ => rfl⟩

/-- Flushing does not close the file. -/
lemma flush_isOpen (out : FileStream) (outcome : Outcome) :
    (out.flush outcome).isOpen = out.isOpen := by
  unfold flush fail
  cases outcome <;> split_ifs <;> rfl

/-- A file that was closed is closed. -/
lemma close_isOpen (out : FileStream) (outcome : Outcome) :
    (out.close outcome).isOpen = false := by
  unfold close
  split_ifs with hclosed
  · simpa using hclosed
  · rfl

/-- If the stream is good after it was closed, everything is in the file. -/
lemma close_of_good (hgood : (out.close outcome).good = true) :
    out.good = true ∧ (out.close outcome).file = out.file ++ out.buffer ∧
      (out.close outcome).buffer = [] := by
  unfold close at hgood ⊢
  split_ifs at hgood ⊢ with hclosed
  have hopen : out.isOpen = true := by simpa using hclosed
  have hflush : (out.flush outcome).good = true := hgood
  obtain ⟨hg, htext, hempty⟩ := flush_of_good hflush
  rw [hempty hopen, List.append_nil] at htext
  exact ⟨hg, htext, hempty hopen⟩

end FileStream

/-- No operation makes a stream good again. -/
lemma good_of_command {op : Op} {out : FileStream}
    (hgood : ((command op).update out).good = true) : out.good = true := by
  cases op with
  | test | result | flushed => exact hgood
  | putLine | putNewline => exact (FileStream.put_of_good hgood).1
  | flush | closeFlush => exact (FileStream.flush_of_good hgood).1
  | close => exact (FileStream.close_of_good hgood).1

/-- Nothing is taken from the file. -/
lemma file_prefix_command (op : Op) (out : FileStream) :
    out.file <+: ((command op).update out).file := by
  have hput : ∀ text outcome, out.file <+: (out.put text outcome).file := by
    intro text outcome
    unfold FileStream.put
    split_ifs
    · exact List.prefix_rfl
    · exact List.prefix_rfl
    · cases outcome <;> exact List.prefix_append _ _
  have hflush : ∀ outcome, out.file <+: (out.flush outcome).file := by
    intro outcome
    unfold FileStream.flush
    split_ifs
    · exact List.prefix_rfl
    · cases outcome <;> exact List.prefix_append _ _
  cases op with
  | test | result | flushed => exact List.prefix_rfl
  | putLine | putNewline => exact hput _ _
  | flush | closeFlush => exact hflush _
  | close outcome =>
    simp only [command, FileStream.close]
    split_ifs
    · exact List.prefix_rfl
    · exact hflush _

/-! ### The function and its body -/

/-- The stream as the function sees it: what it has accepted counts as written. -/
def FileStream.view (out : FileStream) : OutputStream where
  good := out.good
  text := out.file ++ out.buffer

/-- An insertion whose write succeeds is one into what the function sees. -/
lemma FileStream.view_put {out : FileStream} (hopen : out.good = true → out.isOpen = true)
    (text : ByteString) (kept : ℕ) :
    (out.put text (.accepted kept)).view = out.view.write text := by
  by_cases hgood : out.good = true
  · simp [put, view, OutputStream.write, hgood, hopen hgood]
  · simp [put, view, OutputStream.write, hgood]

/-- The writes of the operation succeed. -/
def Op.succeeds : Op → Bool
  | .putLine _ _ _ (.failed _) | .putNewline _ _ _ (.failed _) => false
  | .flush (.failed _) | .closeFlush (.failed _) | .close (.failed _) => false
  | _ => true

/-- The rest of the loop of `exportSpans`, and the test at its end. -/
def exportRest (out : OutputStream) (rest : List Span) : ExportResult × OutputStream :=
  let out := rest.foldl (fun out span => (out.write (renderSpanJson span)).write [0x0a]) out
  (if out.good then .kSuccess else .kFailure, out)

/-- What a body of `exportSpans` still computes when it has come to a program point. -/
def Point.remaining (out : OutputStream) : Point → Option (ExportResult × OutputStream)
  | .test spans => some (exportSpans out spans)
  | .putLine _ rest => some (exportRest out rest)
  | .putNewline _ _ rest => some (exportRest (out.write [0x0a]) rest)
  | .done (.result value) => some (value, out)
  | _ => none

/-- An operation that succeeds leaves the rest of the function to compute. -/
lemma remaining_command {op : Op} {out : FileStream} {r : ExportResult × OutputStream}
    (hopen : out.good = true → out.isOpen = true) (hop : op.succeeds = true)
    (hg : (command op).guard out = true)
    (hrest : (command op).source.remaining out.view = some r) :
    (command op).target.remaining ((command op).update out).view = some r ∧
      (((command op).update out).good = true → ((command op).update out).isOpen = true) := by
  cases op with
  | test spans good =>
    obtain rfl : out.good = good := beq_iff_eq.mp hg
    refine ⟨?_, hopen⟩
    rw [← hrest]
    cases hgood : out.good <;>
      simp [command, Point.remaining, exportSpans, exportRest, FileStream.view, hgood]
  | putLine front span rest outcome =>
    cases outcome with
    | failed left => cases hop
    | accepted kept =>
      refine ⟨?_, fun hgood => (FileStream.put_of_good hgood).2.2.1⟩
      rw [← hrest]
      simp only [command, Point.remaining, FileStream.view_put hopen]
      rfl
  | putNewline front span rest outcome =>
    cases outcome with
    | failed left => cases hop
    | accepted kept =>
      refine ⟨?_, fun hgood => (FileStream.put_of_good hgood).2.2.1⟩
      rw [← hrest]
      simp only [command, Point.remaining, FileStream.view_put hopen]
  | result spans good =>
    obtain rfl : out.good = good := beq_iff_eq.mp hg
    exact ⟨hrest, hopen⟩
  | flush | flushed | closeFlush | close => cases hrest

/-- Operations that succeed leave the rest of the function to compute. -/
lemma remaining_exec {d out out' : FileStream} {c c' : Call} {q q' : Point} {ops : List Op}
    {r : ExportResult × OutputStream} (hopen : out.good = true → out.isOpen = true)
    (hops : ∀ op ∈ ops, op.succeeds = true) (hrest : q.remaining out.view = some r)
    (hexec : (exporter.sequential d).exec (out, some (c, q)) (ops.map .act) =
      some (out', some (c', q'))) : q'.remaining out'.view = some r := by
  induction ops generalizing out q with
  | nil =>
    cases hexec
    exact hrest
  | cons op ops ih =>
    obtain ⟨hop, hops⟩ := List.forall_mem_cons.mp hops
    obtain ⟨s, hs, hexec⟩ := Option.bind_eq_some_iff.mp hexec
    replace hs : exporter.sectionStep (out, some (c, q)) (.act op) = some s := hs
    obtain ⟨hg, c₁, hcurrent, rfl⟩ := Monitor.sectionStep_act_iff.mp hs
    obtain ⟨rfl, rfl⟩ := Prod.mk.inj (Option.some_inj.mp hcurrent)
    obtain ⟨hrest, hopen⟩ := remaining_command hopen hop hg hrest
    exact ih hopen hops hrest hexec

/-- On a good stream, the loop can come to its end with writes that succeed. -/
lemma exists_loop {d out : FileStream} {c : Call} (hgood : out.good = true)
    (hopen : out.isOpen = true) (front rest : List Span) :
    ∃ (ops : List Op) (out' : FileStream), (∀ op ∈ ops, op.succeeds = true) ∧
      (exporter.sequential d).exec (out, some (c, .putLine front rest)) (ops.map .act) =
        some (out', some (c, .done (.result .kSuccess))) := by
  induction rest generalizing out front with
  | nil =>
    have hg : (command (.result front true)).guard out = true := beq_iff_eq.mpr hgood
    exact ⟨[.result front true], out, by simp [Op.succeeds],
      Monitor.exec_act_cons (M := exporter) (.result front true) hg []⟩
  | cons span rest ih =>
    let putLine : Op := .putLine front span rest (.accepted 0)
    let putNewline : Op := .putNewline front span rest (.accepted 0)
    let line := out.put (renderSpanJson span) (.accepted 0)
    have hline : line.good = true ∧ line.isOpen = true := by
      simp [line, FileStream.put, hgood, hopen]
    have hnext : (line.put [0x0a] (.accepted 0)).good = true ∧
        (line.put [0x0a] (.accepted 0)).isOpen = true := by
      simp [FileStream.put, hline]
    obtain ⟨ops, out', hops, hexec⟩ := ih hnext.1 hnext.2 (front ++ [span])
    refine ⟨putLine :: putNewline :: ops, out', ?_, ?_⟩
    · simpa [putLine, putNewline, Op.succeeds] using hops
    · refine (Monitor.exec_act_cons (M := exporter) putLine rfl _).trans ?_
      exact (Monitor.exec_act_cons (M := exporter) putNewline rfl _).trans hexec

/-- A body of `exportSpans` can come to its end with writes that succeed. -/
lemma exists_body {out : FileStream} (hopen : out.good = true → out.isOpen = true)
    (spans : List Span) :
    ∃ (ops : List Op) (out' : FileStream) (value : ExportResult),
      (∀ op ∈ ops, op.succeeds = true) ∧
        (exporter.sequential out).Run (.enter (.exportSpans spans) :: ops.map .act)
          (out', some (.exportSpans spans, .done (.result value))) := by
  by_cases hgood : out.good = true
  · obtain ⟨ops, out', hops, hexec⟩ := exists_loop hgood (hopen hgood) [] spans
    have hg : (command (.test spans true)).guard out = true := beq_iff_eq.mpr hgood
    refine ⟨.test spans true :: ops, out', .kSuccess, by simpa [Op.succeeds] using hops, ?_⟩
    exact (Monitor.exec_act_cons (M := exporter) (.test spans true) hg _).trans hexec
  · have hg : (command (.test spans false)).guard out = true := by simp [command, hgood]
    exact ⟨[.test spans false], out, .kFailure, by simp [Op.succeeds],
      Monitor.exec_act_cons (M := exporter) (.test spans false) hg []⟩

/-- A body of `exportSpans` whose writes succeed computes what the function computes. -/
lemma exportSpans_of_body {out out' : FileStream} {spans : List Span} {ops : List Op}
    {value : ExportResult} (hopen : out.good = true → out.isOpen = true)
    (hops : ∀ op ∈ ops, op.succeeds = true)
    (hr : (exporter.sequential out).Run (.enter (.exportSpans spans) :: ops.map .act)
      (out', some (.exportSpans spans, .done (.result value)))) :
    exportSpans out.view spans = (value, out'.view) := by
  have hrest : Point.remaining out.view (.test spans) = some (exportSpans out.view spans) := rfl
  exact (Option.some_inj.mp (remaining_exec hopen hops hrest hr)).symm

/-- The function computes what the bodies of `exportSpans` compute whose writes succeed. -/
theorem exportSpans_iff_body {out : FileStream} (hopen : out.good = true → out.isOpen = true)
    (spans : List Span) (value : ExportResult) (after : OutputStream) :
    exportSpans out.view spans = (value, after) ↔
      ∃ (ops : List Op) (out' : FileStream), (∀ op ∈ ops, op.succeeds = true) ∧
        out'.view = after ∧
        (exporter.sequential out).Run (.enter (.exportSpans spans) :: ops.map .act)
          (out', some (.exportSpans spans, .done (.result value))) := by
  constructor
  · intro hvalue
    obtain ⟨ops, out', value', hops, hr⟩ := exists_body hopen spans
    obtain ⟨rfl, rfl⟩ := Prod.mk.inj (hvalue.symm.trans (exportSpans_of_body hopen hops hr))
    exact ⟨ops, out', hops, rfl, hr⟩
  · rintro ⟨ops, out', hops, rfl, hr⟩
    exact exportSpans_of_body hopen hops hr

/-! ### What the stream has accepted -/

/-- The text a call in progress has given to the stream. -/
def inProgress : Option (Call × Point) → ByteString
  | some (.exportSpans spans, .done (.result .kSuccess)) => linesText spans
  | some (_, .putLine done _) => linesText done
  | some (_, .putNewline done span _) => linesText done ++ renderSpanJson span
  | _ => []

/-- What holds at a program point of a call. -/
def Point.Right (out : FileStream) : Call → Point → Prop
  | .exportSpans spans, .test spans' => spans' = spans
  | .exportSpans spans, .putLine front rest => front ++ rest = spans
  | .exportSpans spans, .putNewline front span rest => front ++ span :: rest = spans
  | .exportSpans _, .done (.result value) => value = .kSuccess ↔ out.good = true
  | .forceFlush, .flush => True
  | .forceFlush, .flushed => out.good = true → out.buffer = []
  | .forceFlush, .done (.flag value) => value = true → out.good = true ∧ out.buffer = []
  | .shutdown, .closeFlush | .shutdown, .close => True
  | .shutdown, .done (.flag _) => out.isOpen = false
  | _, _ => False

/-- As long as no operation has failed, the file and the buffer hold the lines of the batches that
have been exported, and those of the batch in progress. -/
structure Sound (file : ByteString) (h : List (Monitor.Section Call Answer Op)) (out : FileStream)
    (current : Option (Call × Point)) : Prop where
  text : out.good = true →
    out.file ++ out.buffer = file ++ linesText (written h).flatten ++ inProgress current
  closed : out.good = true → out.isOpen = false → out.buffer = []
  right : ∀ c q, current = some (c, q) → q.Right out c
  success : out.good = true → ∀ c value, (c, Answer.result value) ∈ Monitor.answers h →
    value = .kSuccess

/-- A line and its newline. -/
lemma linesText_concat (spans : List Span) (span : Span) :
    linesText (spans ++ [span]) = linesText spans ++ renderSpanJson span ++ [0x0a] := by
  simp [linesText, renderSpanJson_eq]

lemma linesText_append (spans spans' : List Span) :
    linesText (spans ++ spans') = linesText spans ++ linesText spans' := List.flatMap_append

/-- The text of a call grows by what the stream accepts from it. -/
lemma text_command {c : Call} {op : Op} {out : FileStream} {before : ByteString}
    (hright : (command op).source.Right out c) (hg : (command op).guard out = true)
    (hgood : ((command op).update out).good = true)
    (htext : out.file ++ out.buffer = before ++ inProgress (some (c, (command op).source))) :
    ((command op).update out).file ++ ((command op).update out).buffer =
      before ++ inProgress (some (c, (command op).target)) := by
  cases op with
  | test spans good =>
    cases c with
    | exportSpans => cases good <;> exact htext
    | forceFlush | shutdown => cases hright
  | putLine front span rest outcome =>
    cases c with
    | exportSpans =>
      refine (FileStream.put_of_good hgood).2.2.2.trans ?_
      rw [htext, List.append_assoc]
      rfl
    | forceFlush | shutdown => cases hright
  | putNewline front span rest outcome =>
    cases c with
    | exportSpans =>
      refine (FileStream.put_of_good hgood).2.2.2.trans ?_
      rw [htext, List.append_assoc]
      exact congrArg _ (linesText_concat front span).symm
    | forceFlush | shutdown => cases hright
  | result spans good =>
    cases c with
    | exportSpans spans' =>
      obtain rfl : out.good = good := beq_iff_eq.mp hg
      obtain rfl : spans ++ [] = spans' := hright
      have hg' : out.good = true := hgood
      refine htext.trans ?_
      simp [command, inProgress, hg']
    | forceFlush | shutdown => cases hright
  | flush outcome =>
    cases c with
    | forceFlush => exact (FileStream.flush_of_good hgood).2.1.trans htext
    | exportSpans | shutdown => cases hright
  | flushed good =>
    cases c with
    | forceFlush => exact htext
    | exportSpans | shutdown => cases hright
  | closeFlush outcome =>
    cases c with
    | shutdown => exact (FileStream.flush_of_good hgood).2.1.trans htext
    | exportSpans | forceFlush => cases hright
  | close outcome =>
    cases c with
    | shutdown =>
      obtain ⟨-, hfile, hempty⟩ := FileStream.close_of_good hgood
      refine (congrArg₂ _ hfile hempty).trans ?_
      rw [List.append_nil]
      exact htext
    | exportSpans | forceFlush => cases hright

/-- A stream that is good keeps nothing back after its file has been closed. -/
lemma closed_command {op : Op} {out : FileStream}
    (hclosed : out.good = true → out.isOpen = false → out.buffer = [])
    (hgood : ((command op).update out).good = true)
    (hnot : ((command op).update out).isOpen = false) :
    ((command op).update out).buffer = [] := by
  cases op with
  | test | result | flushed => exact hclosed hgood hnot
  | putLine | putNewline =>
    obtain ⟨-, -, hopen, -⟩ := FileStream.put_of_good hgood
    exact absurd (hopen.symm.trans hnot) nofun
  | flush outcome | closeFlush outcome =>
    have hflush : (out.flush outcome).isOpen = false := hnot
    rw [FileStream.flush_isOpen] at hflush
    have hsame : out.flush outcome = out := by simp [FileStream.flush, hflush]
    refine (congrArg FileStream.buffer hsame).trans (hclosed ?_ hflush)
    exact (FileStream.flush_of_good hgood).1
  | close outcome => exact (FileStream.close_of_good hgood).2.2

/-- Every program point is reached with what holds there. -/
lemma right_command {c : Call} {op : Op} {out : FileStream}
    (hclosed : out.good = true → out.isOpen = false → out.buffer = [])
    (hright : (command op).source.Right out c) (hg : (command op).guard out = true) :
    (command op).target.Right ((command op).update out) c := by
  cases op with
  | test spans good =>
    cases c with
    | exportSpans spans' =>
      obtain rfl : out.good = good := beq_iff_eq.mp hg
      obtain rfl : spans = spans' := hright
      cases hgood : out.good with
      | true => simp [command, Point.Right]
      | false => simp [command, Point.Right, hgood]
    | forceFlush | shutdown => cases hright
  | putLine front span rest outcome =>
    cases c with
    | exportSpans => exact hright
    | forceFlush | shutdown => cases hright
  | putNewline front span rest outcome =>
    cases c with
    | exportSpans => exact (List.append_assoc front [span] rest).trans hright
    | forceFlush | shutdown => cases hright
  | result spans good =>
    cases c with
    | exportSpans spans' =>
      obtain rfl : out.good = good := beq_iff_eq.mp hg
      cases hgood : out.good <;> simp [command, Point.Right, hgood]
    | forceFlush | shutdown => cases hright
  | flush outcome =>
    cases c with
    | forceFlush =>
      intro hgood
      cases hopen : out.isOpen with
      | true => exact (FileStream.flush_of_good hgood).2.2 hopen
      | false =>
        have hnot : ((command (.flush outcome)).update out).isOpen = false :=
          (FileStream.flush_isOpen out outcome).trans hopen
        exact closed_command hclosed hgood hnot
    | exportSpans | shutdown => cases hright
  | flushed good =>
    cases c with
    | forceFlush =>
      obtain rfl : out.good = good := beq_iff_eq.mp hg
      exact fun hgood => ⟨hgood, hright hgood⟩
    | exportSpans | shutdown => cases hright
  | closeFlush outcome =>
    cases c with
    | shutdown => trivial
    | exportSpans | forceFlush => cases hright
  | close outcome =>
    cases c with
    | shutdown => exact FileStream.close_isOpen out outcome
    | exportSpans | forceFlush => cases hright

variable {opens : Bool} {file : ByteString}

/-- What is known of the stream holds after every sequence of calls. -/
theorem sound_of_run {h : List (Monitor.Section Call Answer Op)}
    {s : FileStream × Option (Call × Point)}
    (hr : (exporter.sequential (.new opens file)).Run h s) : Sound file h s.1 s.2 := by
  induction hr using Lts.run_induction with
  | nil =>
    refine ⟨fun _ => ?_, fun _ _ => rfl, fun c q hq => absurd hq.symm (Option.some_ne_none _),
      fun _ c value hmem => absurd hmem List.not_mem_nil⟩
    simp [exporter, Monitor.sequential, FileStream.new, written, Monitor.answers, linesText,
      inProgress]
  | concat h a s s' hr hs ih =>
    cases a with
    | enter c =>
      obtain ⟨hfree, rfl⟩ := Monitor.sectionStep_enter_iff.mp hs
      have hnone : inProgress (some (c, exporter.start c)) = inProgress s.2 := by
        rw [hfree]
        cases c <;> rfl
      refine ⟨fun hgood => ?_, ih.closed, fun c' q hq => ?_, fun hgood => ?_⟩
      · rw [hnone, written_append, ih.text hgood]
        exact congrArg (file ++ linesText ·.flatten ++ inProgress s.2) (List.append_nil _).symm
      · obtain ⟨rfl, rfl⟩ := Prod.mk.inj (Option.some_inj.mp hq)
        cases c <;> trivial
      · rw [Monitor.answers_append]
        exact (List.append_nil (Monitor.answers h)).symm ▸ ih.success hgood
    | act op =>
      obtain ⟨hg, c, hcurrent, rfl⟩ := Monitor.sectionStep_act_iff.mp hs
      have hright := ih.right c _ hcurrent
      refine ⟨fun hgood => ?_, fun hgood => closed_command ih.closed hgood, fun c' q hq => ?_,
        fun hgood => ?_⟩
      · have htext := ih.text (good_of_command hgood)
        rw [hcurrent] at htext
        rw [written_append]
        refine (text_command hright hg hgood htext).trans ?_
        exact congrArg (file ++ linesText ·.flatten ++ _) (List.append_nil _).symm
      · obtain ⟨rfl, rfl⟩ := Prod.mk.inj (Option.some_inj.mp hq)
        exact right_command ih.closed hright hg
      · rw [Monitor.answers_append]
        exact (List.append_nil (Monitor.answers h)).symm ▸ ih.success (good_of_command hgood)
    | leave c a =>
      obtain ⟨q, hcurrent, ha, rfl⟩ := Monitor.sectionStep_leave_iff.mp hs
      obtain rfl : q = .done a := by
        cases q with
        | done answer => exact congrArg Point.done (Option.some_inj.mp ha)
        | _ => cases ha
      have hright := ih.right c _ hcurrent
      refine ⟨fun hgood => ?_, ih.closed, fun c' q hq => absurd hq.symm (Option.some_ne_none _),
        fun hgood c' value hmem => ?_⟩
      · have htext := ih.text hgood
        rw [hcurrent] at htext
        rw [htext, written_append, List.flatten_append, linesText_append]
        cases c with
        | exportSpans spans =>
          cases a with
          | result value =>
            obtain rfl : value = .kSuccess := hright.mpr hgood
            simp [inProgress, written, Monitor.answers]
          | flag value => cases hright
        | forceFlush | shutdown => simp [inProgress, written, Monitor.answers, linesText]
      · rw [Monitor.answers_append] at hmem
        rcases List.mem_append.mp hmem with hold | hnew
        · exact ih.success hgood c' value hold
        · obtain ⟨rfl, rfl⟩ := Prod.mk.inj (List.mem_singleton.mp hnew)
          cases c' with
          | exportSpans spans => exact hright.mpr hgood
          | forceFlush | shutdown => cases hright

/-! ### A flushed file -/

variable {ι : Type} [DecidableEq ι] {t : ι} {a : Answer}
  {s s' : Monitor.State ι FileStream Call Answer Point}
  {h h' : List (Monitor.Label ι Call Answer Op)}

/-- The successful batches of a history of the threads. -/
def exportedBatches (h : List (Monitor.Label ι Call Answer Op)) : List (List Span) :=
  written (h.flatMap Monitor.Label.sections)

omit [DecidableEq ι] in
@[simp]
lemma exportedBatches_append (h h' : List (Monitor.Label ι Call Answer Op)) :
    exportedBatches (h ++ h') = exportedBatches h ++ exportedBatches h' := by
  simp only [exportedBatches, List.flatMap_append, written_append]

/-- What is known of the stream holds however the calls are interleaved. -/
lemma sound_of_shared_run (hr : (sharedFile ι opens file).Run h s) :
    Sound file (h.flatMap Monitor.Label.sections) s.data s.current :=
  sound_of_run (Monitor.run_sequential hr)

/-- A call that has come to its end has the answer that was computed at the end of its body. -/
lemma current_of_leave {c : Call} {a : Answer} (hr : (sharedFile ι opens file).Run h s)
    (hs : exporter.step s (.leave t c a) = some s') :
    s.current = some (c, .done a) ∧ s'.data = s.data := by
  obtain ⟨q, hpc, ha, rfl⟩ := Monitor.step_leave_iff.mp hs
  obtain rfl : q = .done a := by
    cases q with
    | done answer => exact congrArg Point.done (Option.some_inj.mp ha)
    | _ => cases ha
  exact ⟨(Monitor.exclusive_of_run hr).current hpc, rfl⟩

/-- No step takes anything from the file. -/
lemma file_prefix_step {a : Monitor.Label ι Call Answer Op} (hs : exporter.step s a = some s') :
    s.data.file <+: s'.data.file := by
  cases a with
  | call t c =>
    obtain ⟨-, rfl⟩ := Monitor.step_call_iff.mp hs
    exact List.prefix_rfl
  | enter t c =>
    obtain ⟨-, -, rfl⟩ := Monitor.step_enter_iff.mp hs
    exact List.prefix_rfl
  | act t op =>
    obtain ⟨-, c, -, rfl⟩ := Monitor.step_act_iff.mp hs
    exact file_prefix_command op s.data
  | leave t c a =>
    obtain ⟨q, -, -, rfl⟩ := Monitor.step_leave_iff.mp hs
    exact List.prefix_rfl
  | ret t c a =>
    obtain ⟨-, rfl⟩ := Monitor.step_ret_iff.mp hs
    exact List.prefix_rfl

/-- What is in the file stays there. -/
lemma file_prefix_of_run (hr : (sharedFile ι opens file).Run h s)
    (hr' : (sharedFile ι opens file).Run (h ++ h') s') : s.data.file <+: s'.data.file := by
  induction hr' using Lts.run_induction_from with
  | nil s' hr' =>
    rw [List.append_nil] at hr'
    rw [hr.unique hr']
  | concat h' a s₁ s' hr' hs ih => exact ih.trans (file_prefix_step hs)

/-- When a `forceFlush` has answered `true`, all calls of `exportSpans` before it have been
successful, and the file consists of what it held at first and of their lines. -/
lemma file_of_flush (hr : (sharedFile ι opens file).Run h s)
    (hs : exporter.step s (.leave t .forceFlush (.flag true)) = some s') :
    s'.data.file = file ++ linesText (exportedBatches h).flatten ∧
      ∀ c value, (c, Answer.result value) ∈ Monitor.answers (h.flatMap Monitor.Label.sections) →
        value = .kSuccess := by
  obtain ⟨hcurrent, hdata⟩ := current_of_leave hr hs
  have hS := sound_of_shared_run hr
  obtain ⟨hgood, hempty⟩ := hS.right _ _ hcurrent rfl
  refine ⟨?_, hS.success hgood⟩
  have htext := hS.text hgood
  rw [hempty, hcurrent, List.append_nil] at htext
  rw [hdata, htext]
  exact List.append_nil _

/-- When a `forceFlush` has answered `true`, the file consists of what it held at first and of the
lines of the batches of all calls of `exportSpans` that held the mutex before it, batch by batch in
their order; all these calls have been successful, and whatever happens later, their lines stay in
the file. -/
theorem persisted_of_flush
    (hr : (sharedFile ι opens file).Run (h ++ .leave t .forceFlush (.flag true) :: h') s) :
    (∀ c value, (c, Answer.result value) ∈ Monitor.answers (h.flatMap Monitor.Label.sections) →
      value = .kSuccess) ∧
    ∃ s₁, (sharedFile ι opens file).Run (h ++ [.leave t .forceFlush (.flag true)]) s₁ ∧
      s₁.data.file = file ++ linesText (exportedBatches h).flatten ∧
      s₁.data.file <+: s.data.file := by
  rw [List.append_cons] at hr
  obtain ⟨s₁, hr₁⟩ := hr.of_append
  obtain ⟨s₀, hr₀, hs₀⟩ := (Lts.run_concat_iff _).mp hr₁
  obtain ⟨hfile, hsuccess⟩ := file_of_flush hr₀ hs₀
  exact ⟨hsuccess, s₁, hr₁, hfile, file_prefix_of_run hr₁ hr⟩

/-- The first thread exports a span, whose line stays in the buffer at first, and flushes it. -/
def exportAndFlush : List (Monitor.Label Thread Call Answer Op) :=
  [.call .t₁ (.exportSpans [{}]), .call .t₂ .shutdown, .enter .t₁ (.exportSpans [{}]),
    .act .t₁ (.test [{}] true), .act .t₁ (.putLine [] {} [] (.accepted 100)),
    .act .t₁ (.putNewline [] {} [] (.accepted 10)), .act .t₁ (.result [{}] true),
    .leave .t₁ (.exportSpans [{}]) (.result .kSuccess),
    .ret .t₁ (.exportSpans [{}]) (.result .kSuccess), .call .t₁ .forceFlush,
    .enter .t₁ .forceFlush, .act .t₁ (.flush (.accepted 0)), .act .t₁ (.flushed true)]

/-- The second thread closes the file. -/
def closeFile : List (Monitor.Label Thread Call Answer Op) :=
  [.enter .t₂ .shutdown, .act .t₂ (.closeFlush (.accepted 0)), .act .t₂ (.close (.accepted 0))]

/-- The line of the span is in the file, also after the file was closed. -/
theorem persisted_exportAndFlush :
    ∃ s s₁, (sharedFile Thread true []).Run
        (exportAndFlush ++ .leave .t₁ .forceFlush (.flag true) :: closeFile) s ∧
      (sharedFile Thread true []).Run
        (exportAndFlush ++ [.leave .t₁ .forceFlush (.flag true)]) s₁ ∧
      s₁.data.file = [] ++ linesText (exportedBatches exportAndFlush).flatten ∧
      s₁.data.file <+: s.data.file := by
  obtain ⟨s, hr, -⟩ := Lts.exists_run_of_any (L := sharedFile Thread true [])
    (h := exportAndFlush ++ .leave .t₁ .forceFlush (.flag true) :: closeFile)
    (p := fun _ => true) (by decide)
  obtain ⟨-, s₁, hr₁, hfile, hprefix⟩ := persisted_of_flush hr
  exact ⟨s, s₁, hr, hr₁, hfile, hprefix⟩

/-! ### A closed file -/

/-- What holds at a program point of a call that took the mutex after the file was closed. -/
def Point.Refused (out : FileStream) : Call → Point → Prop
  | _, .putLine front _ => out.good = true → front = []
  | _, .putNewline _ _ _ => out.good = false
  | .exportSpans spans, .done (.result .kSuccess) => spans = []
  | _, _ => True

/-- The operations of a closed stream leave its file alone. -/
lemma closed_of_command (op : Op) {out : FileStream} (hclosed : out.isOpen = false) :
    ((command op).update out).isOpen = false ∧ ((command op).update out).file = out.file := by
  have hput : ∀ text outcome,
      (out.put text outcome).isOpen = false ∧ (out.put text outcome).file = out.file := by
    intro text outcome
    by_cases hgood : out.good = true <;> simp [FileStream.put, hclosed, hgood]
  have hflush : ∀ outcome,
      (out.flush outcome).isOpen = false ∧ (out.flush outcome).file = out.file := by
    simp [FileStream.flush, hclosed]
  have hclose : ∀ outcome,
      (out.close outcome).isOpen = false ∧ (out.close outcome).file = out.file := by
    simp [FileStream.close, hclosed]
  cases op with
  | test | result | flushed => exact ⟨hclosed, rfl⟩
  | putLine | putNewline => exact hput _ _
  | flush | closeFlush => exact hflush _
  | close => exact hclose _

/-- An insertion into a closed stream fails. -/
lemma good_put_of_closed {out : FileStream} (hclosed : out.isOpen = false) (text : ByteString)
    (outcome : Outcome) : (out.put text outcome).good = false := by
  refine Bool.eq_false_iff.mpr fun hgood => ?_
  rw [(FileStream.put_of_good hgood).2.1] at hclosed
  cases hclosed

/-- A call that finds the file closed gets nowhere with a span. -/
lemma refused_command {c : Call} {op : Op} {out : FileStream} (hclosed : out.isOpen = false)
    (hright : (command op).source.Right out c) (hrefused : (command op).source.Refused out c)
    (hg : (command op).guard out = true) :
    (command op).target.Refused ((command op).update out) c := by
  cases op with
  | test spans good =>
    cases good with
    | true => exact fun _ => rfl
    | false => cases c <;> trivial
  | putLine front span rest outcome => exact good_put_of_closed hclosed _ _
  | putNewline front span rest outcome =>
    intro hgood
    rw [(FileStream.put_of_good hgood).2.1] at hclosed
    cases hclosed
  | result spans good =>
    obtain rfl : out.good = good := beq_iff_eq.mp hg
    cases c with
    | exportSpans spans' =>
      obtain rfl : spans ++ [] = spans' := hright
      cases hgood : out.good with
      | true => exact (List.append_nil spans).trans (hrefused hgood)
      | false => trivial
    | forceFlush | shutdown => cases hright
  | flush | flushed | closeFlush | close => cases c <;> trivial

/-- Once the file is closed, nothing reaches it, and no span is exported successfully. -/
lemma refused_of_run {h₀ h : List (Monitor.Section Call Answer Op)}
    {s₀ s : FileStream × Option (Call × Point)}
    (hr₀ : (exporter.sequential (.new opens file)).Run h₀ s₀) (hclosed : s₀.1.isOpen = false)
    (hfree : s₀.2 = none) (hr : (exporter.sequential (.new opens file)).Run (h₀ ++ h) s) :
    (s.1.isOpen = false ∧ s.1.file = s₀.1.file) ∧
      (∀ c q, s.2 = some (c, q) → q.Refused s.1 c) ∧
      ∀ spans, (Call.exportSpans spans, Answer.result .kSuccess) ∈ Monitor.answers h →
        spans = [] := by
  induction hr using Lts.run_induction_from with
  | nil s hr =>
    rw [List.append_nil] at hr
    obtain rfl := hr₀.unique hr
    refine ⟨⟨hclosed, rfl⟩, fun c q hq => ?_, fun _ hmem => absurd hmem List.not_mem_nil⟩
    rw [hfree] at hq
    cases hq
  | concat h a s s' hr hs ih =>
    obtain ⟨⟨hclosed, hfile⟩, hrefused, hempty⟩ := ih
    cases a with
    | enter c =>
      obtain ⟨-, rfl⟩ := Monitor.sectionStep_enter_iff.mp hs
      refine ⟨⟨hclosed, hfile⟩, fun c' q hq => ?_, ?_⟩
      · obtain ⟨rfl, rfl⟩ := Prod.mk.inj (Option.some_inj.mp hq)
        cases c <;> trivial
      · simpa [Monitor.answers] using hempty
    | act op =>
      obtain ⟨hg, c, hcurrent, rfl⟩ := Monitor.sectionStep_act_iff.mp hs
      obtain ⟨hclosed', hfile'⟩ := closed_of_command op hclosed
      refine ⟨⟨hclosed', hfile'.trans hfile⟩, fun c' q hq => ?_, ?_⟩
      · obtain ⟨rfl, rfl⟩ := Prod.mk.inj (Option.some_inj.mp hq)
        exact refused_command hclosed ((sound_of_run hr).right c _ hcurrent)
          (hrefused c _ hcurrent) hg
      · simpa [Monitor.answers] using hempty
    | leave c a =>
      obtain ⟨q, hcurrent, ha, rfl⟩ := Monitor.sectionStep_leave_iff.mp hs
      refine ⟨⟨hclosed, hfile⟩, fun c' q hq => absurd hq.symm (Option.some_ne_none _),
        fun spans hmem => ?_⟩
      rw [Monitor.answers_append] at hmem
      rcases List.mem_append.mp hmem with hold | hnew
      · exact hempty spans hold
      · obtain ⟨rfl, rfl⟩ := Prod.mk.inj (List.mem_singleton.mp hnew)
        have hdone := hrefused _ _ hcurrent
        cases q with
        | done answer =>
          obtain rfl := Option.some_inj.mp ha
          exact hdone
        | _ => cases ha

/-- Once a `shutdown` has given the mutex back, the file stays as it is, and no call of
`exportSpans` with a span that takes the mutex after it is successful. -/
theorem closed_for_good (hr : (sharedFile ι opens file).Run (h ++ [.leave t .shutdown a]) s)
    (hr' : (sharedFile ι opens file).Run ((h ++ [.leave t .shutdown a]) ++ h') s') :
    s'.data.file = s.data.file ∧ ∀ spans,
      (Call.exportSpans spans, Answer.result .kSuccess) ∈
        Monitor.answers (h'.flatMap Monitor.Label.sections) → spans = [] := by
  obtain ⟨s₀, hr₀, hs₀⟩ := (Lts.run_concat_iff _).mp hr
  obtain ⟨hcurrent, hdata⟩ := current_of_leave hr₀ hs₀
  have hclosed : s.data.isOpen = false := by
    have hright := (sound_of_shared_run hr₀).right _ _ hcurrent
    rw [hdata]
    cases a with
    | flag value => exact hright
    | result value => cases hright
  have hfree : s.current = none := by
    obtain ⟨q, -, -, rfl⟩ := Monitor.step_leave_iff.mp hs₀
    rfl
  have hseq := Monitor.run_sequential hr'
  rw [List.flatMap_append] at hseq
  obtain ⟨⟨-, hfile⟩, -, hempty⟩ :=
    refused_of_run (Monitor.run_sequential hr) hclosed hfree hseq
  exact ⟨hfile, hempty⟩

/-- An export that takes the mutex after the file was closed. -/
def lateExport : List (Monitor.Label Thread Call Answer Op) :=
  [.call .t₃ (.exportSpans [{}]), .enter .t₃ (.exportSpans [{}]), .act .t₃ (.test [{}] true),
    .act .t₃ (.putLine [] {} [] (.accepted 0)), .act .t₃ (.putNewline [] {} [] (.accepted 0)),
    .act .t₃ (.result [{}] false), .leave .t₃ (.exportSpans [{}]) (.result .kFailure)]

/-- The late export fails, and leaves the file as it is. -/
theorem closed_lateExport :
    ∃ s s', (sharedFile Thread true []).Run
        ((.call .t₂ .shutdown :: closeFile) ++ [.leave .t₂ .shutdown (.flag true)]) s ∧
      (sharedFile Thread true []).Run (((.call .t₂ .shutdown :: closeFile) ++
        [.leave .t₂ .shutdown (.flag true)]) ++ lateExport) s' ∧ s'.data.file = s.data.file := by
  obtain ⟨s, hr, -⟩ := Lts.exists_run_of_any (L := sharedFile Thread true [])
    (h := (.call .t₂ .shutdown :: closeFile) ++ [.leave .t₂ .shutdown (.flag true)])
    (p := fun _ => true) (by decide)
  obtain ⟨s', hr', -⟩ := Lts.exists_run_of_any (L := sharedFile Thread true [])
    (h := ((.call .t₂ .shutdown :: closeFile) ++ [.leave .t₂ .shutdown (.flag true)]) ++ lateExport)
    (p := fun _ => true) (by decide)
  exact ⟨s, s', hr, hr', (closed_for_good hr hr').1⟩

end FileSpanExporter

end GalayTracing
