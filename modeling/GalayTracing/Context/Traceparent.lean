import GalayTracing.Context.TraceContext

/-!
# The traceparent header

`extractTraceparent` parses the W3C header `00-<trace id>-<span id>-<flags>` by fixed offsets, and
`injectTraceparent` writes it.  Reading a character outside the header is an error of its own, the
outer `none` of the extraction, so that the absence of such reads is part of what is proved.

The header is decomposed once, in `exists_fields_of_separators`: a text of the right length with the
three separators is the concatenation of its fields.  The extraction is then a test of one field
after the other.
-/

namespace GalayTracing

/-- `TraceparentError`. -/
inductive TraceparentError
  | kMalformed
  | kUnsupportedVersion
  | kInvalidTraceId
  | kInvalidSpanId
  | kInvalidFlags
  deriving DecidableEq

/-- `kTraceparentLength`. -/
def kTraceparentLength : ℕ := 55

/-- `kSeparator`. -/
def kSeparator : UInt8 := 0x2d

/-- `std::string_view::substr`, which throws if the position lies behind the end. -/
def substr (value : ByteString) (pos count : ℕ) : Option ByteString :=
  if pos ≤ value.length then some ((value.drop pos).take count) else none

/-- `hasExpectedSeparators`. -/
def hasExpectedSeparators (value : ByteString) : Option Bool := do
  if value.length ≠ kTraceparentLength then
    return false
  if (← value[2]?) ≠ kSeparator then
    return false
  if (← value[35]?) ≠ kSeparator then
    return false
  return (← value[52]?) == kSeparator

/-- `parseFlags`: the flags, or an inner `none` if the two characters are no digits. -/
def parseFlags (value : ByteString) : Option (Option UInt8) := do
  if value.length ≠ 2 then
    return none
  let high := hexValue (← value[0]?)
  let low := hexValue (← value[1]?)
  if high < 0 ∨ low < 0 then
    return none
  return some (joinHalves high low)

/-- `extractTraceparent`. -/
def extractTraceparent (value tracestate : ByteString) :
    Option (Except TraceparentError TraceContext) := do
  if !(← hasExpectedSeparators value) then
    return .error .kMalformed
  if (← substr value 0 2) ≠ ascii "00" then
    return .error .kUnsupportedVersion
  let traceId : TraceId ← Identifier.fromHex (← substr value 3 TraceId.kHexLength)
  if !traceId.isValid then
    return .error .kInvalidTraceId
  let spanId : SpanId ← Identifier.fromHex (← substr value 36 SpanId.kHexLength)
  if !spanId.isValid then
    return .error .kInvalidSpanId
  match ← parseFlags (← substr value 53 2) with
  | none => return .error .kInvalidFlags
  | some flags =>
    return .ok
      { traceId := traceId, spanId := spanId, traceFlags := flags, tracestate := tracestate }

/-- `injectTraceparent`. -/
def injectTraceparent (context : TraceContext) : ByteString :=
  if !context.isValid then []
  else
    ascii "00-" ++ context.traceId.toHex ++ [kSeparator] ++ context.spanId.toHex ++ [kSeparator] ++
      [kHexDigits.getD (context.traceFlags >>> 4).toNat 0] ++
      [kHexDigits.getD (context.traceFlags &&& 0x0f).toNat 0]

/-- `injectTracestate`. -/
def injectTracestate (context : TraceContext) : ByteString := context.tracestate

/-! ### The fields of a header -/

/-- A text is what precedes a character, the character, and what follows it. -/
lemma eq_take_cons_drop {value : ByteString} {i : ℕ} {ch : UInt8} (hread : value[i]? = some ch) :
    value = value.take i ++ ch :: value.drop (i + 1) := by
  obtain ⟨hlt, rfl⟩ := List.getElem?_eq_some_iff.mp hread
  rw [← List.drop_eq_getElem_cons hlt, List.take_append_drop]

/-- A part of a text, found by its offset. -/
lemma substr_append {pre mid post : ByteString} {pos count : ℕ} (hpos : pos = pre.length)
    (hcount : count = mid.length) : substr (pre ++ (mid ++ post)) pos count = some mid := by
  subst hpos hcount
  rw [substr, if_pos (by simp), List.drop_left, List.take_left]

/-- The text of four fields, with the separators between them. -/
def header (version traceField spanField flagsField : ByteString) : ByteString :=
  version ++
    (kSeparator :: (traceField ++ (kSeparator :: (spanField ++ (kSeparator :: flagsField)))))

/-- The text of the four fields, of version `00`. -/
lemma header_eq (traceField spanField flagsField : ByteString) :
    header (ascii "00") traceField spanField flagsField =
      ascii "00-" ++ traceField ++ ascii "-" ++ spanField ++ ascii "-" ++ flagsField := by
  simp [header, ascii, kSeparator]

/-- The lengths of the fields of a header that denotes identifiers. -/
lemma length_fields {traceField spanField : ByteString} {traceId : TraceId} {spanId : SpanId}
    (htrace : Hex.Denotes traceField traceId.bytes.toList)
    (hspan : Hex.Denotes spanField spanId.bytes.toList) :
    traceField.length = 32 ∧ spanField.length = 16 := by
  rw [htrace.length, hspan.length, traceId.bytes.length_toList, spanId.bytes.length_toList]
  exact ⟨rfl, rfl⟩

/-- The header has its length and its three separators. -/
def HasSeparators (value : ByteString) : Prop :=
  value.length = kTraceparentLength ∧ value[2]? = some kSeparator ∧ value[35]? = some kSeparator ∧
    value[52]? = some kSeparator

instance (value : ByteString) : Decidable (HasSeparators value) :=
  inferInstanceAs (Decidable (_ ∧ _))

/-- The test of the separators never reads outside the header. -/
lemma hasExpectedSeparators_eq (value : ByteString) :
    hasExpectedSeparators value = some (decide (HasSeparators value)) := by
  unfold hasExpectedSeparators HasSeparators
  by_cases hlen : value.length = kTraceparentLength
  · have hread : ∀ i < 55, ∃ ch, value[i]? = some ch := fun i hi =>
      ⟨_, List.getElem?_eq_getElem (by rw [hlen]; exact hi)⟩
    obtain ⟨a, ha⟩ := hread 2 (by decide)
    obtain ⟨b, hb⟩ := hread 35 (by decide)
    obtain ⟨c, hc⟩ := hread 52 (by decide)
    by_cases ha' : a = kSeparator <;> by_cases hb' : b = kSeparator <;>
      simp [hlen, ha, hb, hc, ha', hb', Bool.beq_eq_decide_eq]
  · simp [hlen]

/-- A header with its separators is the text of its fields. -/
lemma exists_fields_of_separators {value : ByteString} (hv : HasSeparators value) :
    ∃ version traceField spanField flagsField, version.length = 2 ∧ traceField.length = 32 ∧
      spanField.length = 16 ∧ flagsField.length = 2 ∧
      value = header version traceField spanField flagsField := by
  obtain ⟨hlen, h2, h35, h52⟩ := hv
  have hlen : value.length = 55 := hlen
  have hrest : (value.drop 3)[32]? = some kSeparator := by rw [List.getElem?_drop]; exact h35
  have hrest' : (value.drop 36)[16]? = some kSeparator := by rw [List.getElem?_drop]; exact h52
  refine ⟨value.take 2, (value.drop 3).take 32, (value.drop 36).take 16, value.drop 53,
    by simp [hlen], by simp [hlen], by simp [hlen], by simp [hlen], ?_⟩
  have hsplit := eq_take_cons_drop h2
  have hsplit' := eq_take_cons_drop hrest
  have hsplit'' := eq_take_cons_drop hrest'
  rw [List.drop_drop] at hsplit' hsplit''
  rw [header, ← hsplit'', ← hsplit', ← hsplit]

/-! ### Digits -/

/-- All characters are hexadecimal digits of either case. -/
def AllHex (text : ByteString) : Prop := ∀ ch ∈ text, (Hex.value ch).isSome = true

/-- The characters of an identifier: hexadecimal digits, not all of them zero. -/
def IdDigits (text : ByteString) : Prop := AllHex text ∧ ∃ ch ∈ text, ch ≠ 0x30

instance (text : ByteString) : Decidable (AllHex text) :=
  inferInstanceAs (Decidable (∀ ch ∈ text, (Hex.value ch).isSome = true))

instance (text : ByteString) : Decidable (IdDigits text) :=
  inferInstanceAs (Decidable (_ ∧ _))

/-- A text that denotes bytes consists of digits. -/
lemma allHex_of_denotes {text : ByteString} {bytes : List UInt8} (hd : Hex.Denotes text bytes) :
    AllHex text :=
  (Hex.exists_denotes_iff.mp ⟨bytes, rfl, hd⟩).2

/-- The digits of an identifier are read as a valid identifier. -/
lemma exists_fromHex_of_idDigits {n : ℕ} {text : ByteString} (hlen : text.length = 2 * n)
    (hdigits : IdDigits text) :
    ∃ id : Identifier n, Identifier.fromHex text = some id ∧ id.isValid = true ∧
      Hex.Denotes text id.bytes.toList := by
  obtain ⟨bytes, hbytes, hd⟩ := Hex.exists_denotes_iff.mpr ⟨hlen, hdigits.1⟩
  refine ⟨⟨⟨bytes, hbytes⟩⟩, Identifier.fromHex_of_denotes hd, ?_, hd⟩
  by_contra hvalid
  have hzero : ∀ b ∈ bytes, b = 0 := by
    simpa [Identifier.isValid, hasNonZeroByte] using hvalid
  obtain ⟨ch, hch, hne⟩ := hdigits.2
  exact hne (hd.eq_zero_iff.mp hzero ch hch)

/-- The digits of a valid identifier are not all zero. -/
lemma idDigits_of_denotes {n : ℕ} {text : ByteString} {id : Identifier n}
    (hd : Hex.Denotes text id.bytes.toList) (hid : id.isValid = true) : IdDigits text := by
  refine ⟨allHex_of_denotes hd, ?_⟩
  by_contra hall
  push Not at hall
  have hzero := hd.eq_zero_iff.mpr hall
  have hinvalid : id.isValid = false := by simpa [Identifier.isValid, hasNonZeroByte] using hzero
  rw [hinvalid] at hid
  cases hid

/-- A text of the right length is read as an identifier, which is valid if the text has its
digits. -/
lemma exists_fromHex {n : ℕ} {text : ByteString} (hlen : text.length = 2 * n) :
    ∃ id : Identifier n, Identifier.fromHex text = some id ∧
      id.isValid = decide (IdDigits text) := by
  by_cases hdigits : IdDigits text
  · obtain ⟨id, hread, hvalid, -⟩ := exists_fromHex_of_idDigits hlen hdigits
    exact ⟨id, hread, hvalid.trans (decide_eq_true hdigits).symm⟩
  · obtain ⟨id, hread⟩ := Identifier.exists_fromHex_eq (n := n) text
    refine ⟨id, hread, Eq.trans ?_ (decide_eq_false hdigits).symm⟩
    by_contra hvalid
    rw [Bool.not_eq_false] at hvalid
    exact hdigits (idDigits_of_denotes ((Identifier.fromHex_eq_some_iff hvalid).mp hread) hvalid)

/-- The flags are read from two digits. -/
lemma parseFlags_of_denotes {text : ByteString} {flags : UInt8} (hd : Hex.Denotes text [flags]) :
    parseFlags text = some (some flags) := by
  cases hd with
  | cons hh hl hrest =>
    cases hrest
    simp only [parseFlags, List.length_cons, List.length_nil, hexValue_of_value hh,
      hexValue_of_value hl, joinHalves_eq (Hex.value_lt hh) (Hex.value_lt hl),
      List.getElem?_cons_zero, List.getElem?_cons_succ, Option.bind_eq_bind, Option.bind_some]
    rw [if_neg (by decide), if_neg (by omega)]
    rfl

/-- Two other characters are no flags. -/
lemma parseFlags_of_not_allHex {text : ByteString} (hlen : text.length = 2)
    (hhex : ¬AllHex text) : parseFlags text = some none := by
  match text, hlen with
  | [h, l], _ =>
    have hnone : Hex.value h = none ∨ Hex.value l = none := by
      by_contra hboth
      push Not at hboth
      exact hhex (by simpa [AllHex, Option.isSome_iff_ne_none] using hboth)
    have hneg : hexValue h < 0 ∨ hexValue l < 0 := by
      refine hnone.imp (fun hh => ?_) fun hl => ?_
      · rw [hexValue_of_none hh]
        decide
      · rw [hexValue_of_none hl]
        decide
    simp only [parseFlags, List.length_cons, List.length_nil, List.getElem?_cons_zero,
      List.getElem?_cons_succ, Option.bind_eq_bind, Option.bind_some]
    rw [if_neg (by decide), if_pos hneg]
    rfl

/-! ### The tests of the extraction -/

section Fields

variable {version traceField spanField flagsField tracestate : ByteString}
  (hversion : version.length = 2) (htrace : traceField.length = 32)
  (hspan : spanField.length = 16) (hflags : flagsField.length = 2)

include hversion htrace hspan hflags

/-- A text of four fields has its separators. -/
lemma hasSeparators_header : HasSeparators (header version traceField spanField flagsField) := by
  refine ⟨by simp [header, hversion, htrace, hspan, hflags, kTraceparentLength], ?_, ?_, ?_⟩
  · simp [header, hversion]
  · simp [header, List.getElem?_append, hversion, htrace]
  · simp [header, List.getElem?_append, hversion, htrace, hspan]

/-- The offsets of the extraction are those of the fields. -/
lemma substr_header :
    let value := header version traceField spanField flagsField
    substr value 0 2 = some version ∧ substr value 3 32 = some traceField ∧
      substr value 36 16 = some spanField ∧ substr value 53 2 = some flagsField := by
  have hspan' : header version traceField spanField flagsField =
      (version ++ kSeparator :: (traceField ++ [kSeparator])) ++
        (spanField ++ (kSeparator :: flagsField)) := by simp [header]
  have hflags' : header version traceField spanField flagsField =
      (version ++ kSeparator :: (traceField ++ (kSeparator :: (spanField ++ [kSeparator])))) ++
        (flagsField ++ []) := by simp [header]
  have htrace' : header version traceField spanField flagsField = (version ++ [kSeparator]) ++
      (traceField ++ (kSeparator :: (spanField ++ (kSeparator :: flagsField)))) := by simp [header]
  refine ⟨?_, ?_, ?_, ?_⟩
  · exact @substr_append [] _ _ _ _ rfl hversion.symm
  · rw [htrace']
    exact substr_append (by simp [hversion]) htrace.symm
  · rw [hspan']
    exact substr_append (by simp [hversion, htrace]) hspan.symm
  · rw [hflags']
    exact substr_append (by simp [hversion, htrace, hspan]) hflags.symm

/-- The extraction tests one field after the other. -/
lemma extractTraceparent_header :
    extractTraceparent (header version traceField spanField flagsField) tracestate =
      if version ≠ ascii "00" then some (.error .kUnsupportedVersion) else do
        let traceId : TraceId ← Identifier.fromHex traceField
        if !traceId.isValid then return .error .kInvalidTraceId
        let spanId : SpanId ← Identifier.fromHex spanField
        if !spanId.isValid then return .error .kInvalidSpanId
        match ← parseFlags flagsField with
        | none => return .error .kInvalidFlags
        | some flags =>
          return .ok { traceId, spanId, traceFlags := flags, tracestate := tracestate } := by
  have hsep := hasSeparators_header hversion htrace hspan hflags
  obtain ⟨h0, h3, h36, h53⟩ := substr_header hversion htrace hspan hflags
  simp only [TraceId.kHexLength, SpanId.kHexLength, TraceId.kByteLength, SpanId.kByteLength,
    extractTraceparent, hasExpectedSeparators_eq, hsep, h0, h3, h36, h53]
  rfl

end Fields

/-- The first fault of a header, in the order of the tests; `none` for a well-formed header. -/
def firstFault (value : ByteString) : Option TraceparentError :=
  if ¬HasSeparators value then some .kMalformed
  else if value.take 2 ≠ ascii "00" then some .kUnsupportedVersion
  else if ¬IdDigits ((value.drop 3).take 32) then some .kInvalidTraceId
  else if ¬IdDigits ((value.drop 36).take 16) then some .kInvalidSpanId
  else if ¬AllHex ((value.drop 53).take 2) then some .kInvalidFlags
  else none

/-! ### Acceptance -/

/-- The header denotes the context: its fields are the digits of the identifiers and the flags, and
neither identifier is all zeros. -/
def DenotesContext (value tracestate : ByteString) (context : TraceContext) : Prop :=
  (∃ traceField spanField flagsField,
    value = ascii "00-" ++ traceField ++ ascii "-" ++ spanField ++ ascii "-" ++ flagsField ∧
      Hex.Denotes traceField context.traceId.bytes.toList ∧
      Hex.Denotes spanField context.spanId.bytes.toList ∧
      Hex.Denotes flagsField [context.traceFlags]) ∧
    context.isValid = true ∧ context.tracestate = tracestate ∧ context.parentSpanId = none

/-- A part that `substr` gives is that part of the text. -/
lemma take_drop_of_substr {value part : ByteString} {pos count : ℕ}
    (hpart : substr value pos count = some part) : (value.drop pos).take count = part := by
  rw [substr] at hpart
  split_ifs at hpart
  exact Option.some_inj.mp hpart

/-- The first fault of a text of four fields. -/
lemma firstFault_header {version traceField spanField flagsField : ByteString}
    (hversion : version.length = 2) (htrace : traceField.length = 32)
    (hspan : spanField.length = 16) (hflags : flagsField.length = 2) :
    firstFault (header version traceField spanField flagsField) =
      if version ≠ ascii "00" then some .kUnsupportedVersion
      else if ¬IdDigits traceField then some .kInvalidTraceId
      else if ¬IdDigits spanField then some .kInvalidSpanId
      else if ¬AllHex flagsField then some .kInvalidFlags
      else none := by
  obtain ⟨h0, h3, h36, h53⟩ := substr_header hversion htrace hspan hflags
  have htake := take_drop_of_substr h0
  rw [List.drop_zero] at htake
  rw [firstFault, if_neg (not_not.mpr (hasSeparators_header hversion htrace hspan hflags)), htake,
    take_drop_of_substr h3, take_drop_of_substr h36, take_drop_of_substr h53]

/-- A header with a fault is rejected with it. -/
lemma extractTraceparent_of_fault {value : ByteString} {fault : TraceparentError}
    (hfault : firstFault value = some fault) (tracestate : ByteString) :
    extractTraceparent value tracestate = some (.error fault) := by
  by_cases hsep : HasSeparators value
  · obtain ⟨version, traceField, spanField, flagsField, hversion, htrace, hspan, hflags, rfl⟩ :=
      exists_fields_of_separators hsep
    obtain ⟨traceId, hread, hvalid⟩ := exists_fromHex (n := TraceId.kByteLength) htrace
    obtain ⟨spanId, hread', hvalid'⟩ := exists_fromHex (n := SpanId.kByteLength) hspan
    rw [firstFault_header hversion htrace hspan hflags] at hfault
    rw [extractTraceparent_header hversion htrace hspan hflags]
    simp only [hread, hvalid, hread', hvalid', Option.bind_eq_bind, Option.bind_some]
    -- the tests of the code in the order of the faults
    split_ifs at hfault with h00 htraceId hspanId hhex
    · obtain rfl := Option.some_inj.mp hfault
      rw [if_pos h00]
    · obtain rfl := Option.some_inj.mp hfault
      rw [if_neg h00, parseFlags_of_not_allHex hflags hhex]
      simp [htraceId, hspanId]
    · obtain rfl := Option.some_inj.mp hfault
      rw [if_neg h00]
      simp [htraceId, hspanId]
    · obtain rfl := Option.some_inj.mp hfault
      rw [if_neg h00]
      simp [htraceId]
  · rw [firstFault, if_pos hsep] at hfault
    simp only [extractTraceparent, hasExpectedSeparators_eq, hsep, Option.bind_eq_bind,
      Option.bind_some]
    rw [← Option.some_inj.mp hfault]
    rfl

/-- A header without a fault denotes a context. -/
lemma exists_denotesContext {value : ByteString} (hfault : firstFault value = none)
    (tracestate : ByteString) : ∃ context, DenotesContext value tracestate context := by
  have hsep : HasSeparators value := by
    by_contra hsep
    rw [firstFault, if_pos hsep] at hfault
    cases hfault
  obtain ⟨version, traceField, spanField, flagsField, hversion, htrace, hspan, hflags, rfl⟩ :=
    exists_fields_of_separators hsep
  rw [firstFault_header hversion htrace hspan hflags] at hfault
  split_ifs at hfault with h00 htraceId hspanId hhex
  obtain ⟨traceId, -, hvalid, hdenotes⟩ :=
    exists_fromHex_of_idDigits (n := TraceId.kByteLength) htrace htraceId
  obtain ⟨spanId, -, hvalid', hdenotes'⟩ :=
    exists_fromHex_of_idDigits (n := SpanId.kByteLength) hspan hspanId
  obtain ⟨bytes, hbytes, hflags'⟩ := Hex.exists_denotes_iff (n := 1) |>.mpr ⟨hflags, hhex⟩
  obtain ⟨flags, rfl⟩ := List.length_eq_one_iff.mp hbytes
  refine ⟨{ traceId := traceId, spanId := spanId, traceFlags := flags, tracestate := tracestate },
    ⟨traceField, spanField, flagsField, ?_, hdenotes, hdenotes', hflags'⟩, ?_, rfl, rfl⟩
  · rw [not_not.mp h00, header_eq]
  · simp [TraceContext.isValid, hvalid, hvalid']

/-- A header is accepted with the context that it denotes. -/
lemma DenotesContext.extractTraceparent_eq {value tracestate : ByteString} {context : TraceContext}
    (hd : DenotesContext value tracestate context) :
    extractTraceparent value tracestate = some (.ok context) := by
  obtain ⟨hfields, hvalid, rfl, hparent⟩ := hd
  obtain ⟨traceField, spanField, flagsField, rfl, htrace, hspan, hflags⟩ := hfields
  obtain ⟨hvalid, hvalid'⟩ := Bool.and_eq_true_iff.mp hvalid
  obtain ⟨hlen, hlen'⟩ := length_fields htrace hspan
  rw [← header_eq, extractTraceparent_header rfl hlen hlen' hflags.length, if_neg (by simp)]
  simp only [Identifier.fromHex_of_denotes htrace, Identifier.fromHex_of_denotes hspan, hvalid,
    hvalid', parseFlags_of_denotes hflags, Option.bind_eq_bind, Option.bind_some]
  rw [← hparent]
  rfl

/-- A header that denotes a context has no fault. -/
lemma DenotesContext.firstFault_eq {value tracestate : ByteString} {context : TraceContext}
    (hd : DenotesContext value tracestate context) : firstFault value = none := by
  cases hfault : firstFault value with
  | none => rfl
  | some fault =>
    have herror := extractTraceparent_of_fault hfault tracestate
    rw [hd.extractTraceparent_eq] at herror
    cases herror

/-- The context that is extracted is the one the header denotes. -/
lemma extractTraceparent_eq_ok_iff {value tracestate : ByteString} {context : TraceContext} :
    extractTraceparent value tracestate = some (.ok context) ↔
      DenotesContext value tracestate context := by
  refine ⟨fun heq => ?_, DenotesContext.extractTraceparent_eq⟩
  cases hfault : firstFault value with
  | none =>
    obtain ⟨context', hd⟩ := exists_denotesContext hfault tracestate
    rw [hd.extractTraceparent_eq] at heq
    cases heq
    exact hd
  | some fault =>
    rw [extractTraceparent_of_fault hfault] at heq
    cases heq

/-- The grammar of the header. -/
def WellFormedHeader (value : ByteString) : Prop :=
  value.length = 55 ∧ ∃ traceField spanField flagsField,
    value = ascii "00-" ++ traceField ++ ascii "-" ++ spanField ++ ascii "-" ++ flagsField ∧
      traceField.length = 32 ∧ IdDigits traceField ∧ spanField.length = 16 ∧ IdDigits spanField ∧
      flagsField.length = 2 ∧ AllHex flagsField

/-- The well-formed headers are those without a fault. -/
lemma firstFault_eq_none_iff {value : ByteString} :
    firstFault value = none ↔ WellFormedHeader value := by
  constructor
  · intro hfault
    obtain ⟨context, hfields, hvalid, -, -⟩ := exists_denotesContext hfault []
    obtain ⟨traceField, spanField, flagsField, rfl, htrace, hspan, hflags⟩ := hfields
    obtain ⟨hvalid, hvalid'⟩ := Bool.and_eq_true_iff.mp hvalid
    obtain ⟨hlen, hlen'⟩ := length_fields htrace hspan
    refine ⟨?_, traceField, spanField, flagsField, rfl, hlen, idDigits_of_denotes htrace hvalid,
      hlen', idDigits_of_denotes hspan hvalid', hflags.length, allHex_of_denotes hflags⟩
    rw [← header_eq]
    exact (hasSeparators_header rfl hlen hlen' hflags.length).1
  · rintro ⟨-, traceField, spanField, flagsField, rfl, hlen, htrace, hlen', hspan, hlen'', hflags⟩
    rw [← header_eq, firstFault_header rfl hlen hlen' hlen'', if_neg (by simp),
      if_neg (not_not.mpr htrace), if_neg (not_not.mpr hspan), if_neg (not_not.mpr hflags)]

/-- The extraction accepts exactly the well-formed headers, with the context they denote, rejects
the others with their first fault, and never reads outside the header. -/
theorem extractTraceparent_iff (value tracestate : ByteString) :
    extractTraceparent value tracestate ≠ none ∧
      ((∃ context, extractTraceparent value tracestate = some (.ok context)) ↔
        WellFormedHeader value) ∧
      (∀ context, extractTraceparent value tracestate = some (.ok context) ↔
        DenotesContext value tracestate context) ∧
      ∀ fault, extractTraceparent value tracestate = some (.error fault) ↔
        firstFault value = some fault := by
  have hcontexts : (∃ context, DenotesContext value tracestate context) ↔
      WellFormedHeader value := by
    rw [← firstFault_eq_none_iff]
    constructor
    · rintro ⟨context, hd⟩
      exact hd.firstFault_eq
    · intro hfault
      exact exists_denotesContext hfault tracestate
  refine ⟨?_, ?_, fun context => extractTraceparent_eq_ok_iff, fun fault => ?_⟩
  · cases hfault : firstFault value with
    | none =>
      obtain ⟨context, hd⟩ := exists_denotesContext hfault tracestate
      rw [hd.extractTraceparent_eq]
      exact Option.some_ne_none _
    | some fault =>
      rw [extractTraceparent_of_fault hfault]
      exact Option.some_ne_none _
  · rw [← hcontexts]
    exact exists_congr fun context => extractTraceparent_eq_ok_iff
  · constructor
    · intro heq
      cases hfault : firstFault value with
      | none =>
        obtain ⟨context, hd⟩ := exists_denotesContext hfault tracestate
        rw [hd.extractTraceparent_eq] at heq
        cases heq
      | some fault' =>
        rw [extractTraceparent_of_fault hfault] at heq
        cases heq
        rfl
    · intro hfault
      exact extractTraceparent_of_fault hfault tracestate

/-- The header of a context with upper-case digits, and the one written for it. -/
example : (extractTraceparent (ascii "00-4BF92F3577B34DA6A3CE929D0E0E4736-00F067AA0BA902B7-01")
    []).map (fun result => result.toOption.map injectTraceparent) =
      some (some (ascii "00-4bf92f3577b34da6a3ce929d0e0e4736-00f067aa0ba902b7-01")) := by
  decide +kernel

/-! ### The round trips -/

/-- The header written for a valid context denotes it, up to its parent. -/
lemma denotesContext_injectTraceparent {context : TraceContext} (hvalid : context.isValid = true) :
    DenotesContext (injectTraceparent context) (injectTracestate context)
      { context with parentSpanId := none } := by
  refine ⟨⟨context.traceId.toHex, context.spanId.toHex, Hex.pair context.traceFlags,
    ?_, ?_, ?_, ?_⟩, hvalid, rfl, rfl⟩
  · simp [injectTraceparent, hvalid, pair_eq, ascii, kSeparator]
  · rw [Identifier.toHex_eq]
    exact Hex.denotes_encode _
  · rw [Identifier.toHex_eq]
    exact Hex.denotes_encode _
  · have hflags := Hex.denotes_encode [context.traceFlags]
    rw [Hex.encode_cons, Hex.encode_nil, List.append_nil] at hflags
    exact hflags

/-- Extracting what was injected gives the context without its parent; injecting what was extracted
gives the header with its letters lowered; and nothing is injected for an invalid context. -/
theorem traceparent_round_trip :
    (∀ context : TraceContext, context.isValid = true →
      extractTraceparent (injectTraceparent context) (injectTracestate context) =
        some (.ok { context with parentSpanId := none })) ∧
    (∀ value tracestate context, extractTraceparent value tracestate = some (.ok context) →
      injectTraceparent context = value.map Hex.lower ∧ injectTracestate context = tracestate) ∧
    ∀ context : TraceContext, context.isValid = false → injectTraceparent context = [] ∧
      ∀ tracestate, ∃ fault, extractTraceparent (injectTraceparent context) tracestate =
        some (.error fault) := by
  refine ⟨fun context hvalid => (denotesContext_injectTraceparent hvalid).extractTraceparent_eq,
    fun value tracestate context hextract => ?_, fun context hinvalid => ?_⟩
  · obtain ⟨⟨traceField, spanField, flagsField, rfl, htrace, hspan, hflags⟩, hvalid, hstate, -⟩ :=
      extractTraceparent_eq_ok_iff.mp hextract
    refine ⟨?_, hstate⟩
    have hpair := hflags.encode_eq
    rw [Hex.encode_cons, Hex.encode_nil, List.append_nil, pair_eq] at hpair
    simp only [injectTraceparent, hvalid, Identifier.toHex_eq, htrace.encode_eq, hspan.encode_eq]
    simp [← hpair, ascii, Hex.lower, kSeparator]
  · have hnil : injectTraceparent context = [] := by simp [injectTraceparent, hinvalid]
    refine ⟨hnil, fun tracestate => ⟨.kMalformed, ?_⟩⟩
    rw [hnil]
    exact extractTraceparent_of_fault (by decide) tracestate

end GalayTracing
