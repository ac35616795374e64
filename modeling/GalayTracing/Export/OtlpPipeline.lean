import GalayTracing.BatchSpanProcessor.Refinement
import GalayTracing.Export.OtlpLossless
import GalayTracing.Export.SpanExporter
import GalayTracing.Foundation.Link

/-!
# A processor that exports over OTLP

The exporter makes one request of each batch and hands it to the transport, which is code of the
user or of another library: it may answer with any response, or throw, after any time.

Linked to a processor, the exporter makes one request for each batch the worker exports.  When the
worker has stopped, the batches hold the accepted spans of every thread, each once and in its order,
a body without doubles is read back as its batch, and a batch counts as exported exactly if its
request was answered with a status of success, `requests_deliver`.
-/

namespace GalayTracing

open SpanExporter

namespace OtlpHttpExporter

/-! ### Requests -/

/-- `OtlpHttpHeader`. -/
structure OtlpHttpHeader where
  name : ByteString
  value : ByteString
  deriving DecidableEq

/-- `OtlpHttpRequest`. -/
structure OtlpHttpRequest where
  method : ByteString := ascii "POST"
  endpoint : ByteString
  timeout : ℤ
  headers : List OtlpHttpHeader
  body : ByteString
  deriving DecidableEq

/-- `OtlpHttpResponse`. -/
structure OtlpHttpResponse where
  statusCode : ℤ := 0
  body : ByteString := []
  error : ByteString := []
  deriving DecidableEq

/-- The rest of `OtlpHttpExporterConfig`. -/
structure HttpConfig extends OtlpHttpExporterConfig where
  endpoint : ByteString := ascii "http://127.0.0.1:4318/v1/traces"
  timeout : ℤ := 500
  headers : List OtlpHttpHeader := []
  deriving DecidableEq

/-- `std::tolower`. -/
def toLower (ch : UInt8) : UInt8 := if 0x41 ≤ ch ∧ ch ≤ 0x5a then ch + 0x20 else ch

/-- `asciiEqualsIgnoreCase`. -/
def asciiEqualsIgnoreCase (lhs rhs : ByteString) : Bool :=
  if lhs.length ≠ rhs.length then false
  else (lhs.zip rhs).all fun (lhs, rhs) => toLower lhs == toLower rhs

/-- `hasHeader`. -/
def hasHeader (headers : List OtlpHttpHeader) (name : ByteString) : Bool :=
  headers.any fun header => asciiEqualsIgnoreCase header.name name

/-- `makeHeaders`. -/
def makeHeaders (config : HttpConfig) : List OtlpHttpHeader :=
  (if !hasHeader config.headers (ascii "content-type") then
    [⟨ascii "content-type", ascii "application/json"⟩]
  else []) ++ config.headers

/-- The request that `exportSpans` hands to the transport. -/
def request (toChars : Double → ByteString) (config : HttpConfig) (spans : List Span) :
    OtlpHttpRequest where
  endpoint := config.endpoint
  timeout := config.timeout
  headers := makeHeaders config
  body := buildOtlpJsonBody toChars spans config.toOtlpHttpExporterConfig

/-- How a call of the transport ends. -/
inductive Outcome
  /-- It returns a response. -/
  | response (response : OtlpHttpResponse)
  /-- It throws. -/
  | thrown
  deriving DecidableEq

/-- The result of `exportSpans` after a call of the transport. -/
def resultOf : Outcome → ExportResult
  | .response response =>
    if 200 ≤ response.statusCode ∧ response.statusCode < 300 then .kSuccess else .kFailure
  | .thrown => .kFailure

/-! ### The calls of the exporter -/

/-- Where a thread stands. -/
inductive Pc
  /-- Outside the exporter. -/
  | idle
  /-- At the start of its call. -/
  | called (c : Call)
  /-- In the call of the transport. -/
  | sending (spans : List Span)
  /-- About to return. -/
  | answered (c : Call) (a : Answer)
  deriving DecidableEq

/-- The operations of a thread. -/
inductive Op
  /-- The call. -/
  | call (c : Call)
  /-- `exportSpans` of no spans returns. -/
  | empty
  /-- The transport is called with the request of the spans. -/
  | send (spans : List Span)
  /-- The call of the transport ends. -/
  | respond (spans : List Span) (outcome : Outcome)
  /-- `forceFlush` or `shutdown` returns `true`. -/
  | accept (c : Call)
  /-- The call returns. -/
  | ret (c : Call) (a : Answer)
  deriving DecidableEq

/-- The operations, as the functions have them; the exporter has no members that change. -/
def command : Op → Command Unit Pc
  | .call c =>
    { source := .idle
      guard := fun _ => true
      update := id
      target := .called c }
  | .empty =>
    { source := .called (.exportSpans [])
      guard := fun _ => true
      update := id
      target := .answered (.exportSpans []) (.result .kSuccess) }
  | .send spans =>
    { source := .called (.exportSpans spans)
      guard := fun _ => spans ≠ []
      update := id
      target := .sending spans }
  | .respond spans outcome =>
    { source := .sending spans
      guard := fun _ => true
      update := id
      target := .answered (.exportSpans spans) (.result (resultOf outcome)) }
  | .accept c =>
    { source := .called c
      guard := fun _ => c == .forceFlush || c == .shutdown
      update := id
      target := .answered c (.flag true) }
  | .ret c a =>
    { source := .answered c a
      guard := fun _ => true
      update := id
      target := .idle }

/-- A step: thread `t` performs an operation. -/
structure Act (κ : Type) where
  /-- The thread. -/
  t : κ
  /-- Its operation. -/
  op : Op
  deriving DecidableEq

/-- The states of an exporter that the threads `κ` use. -/
abbrev State (κ : Type) := Pool κ Unit Pc Unit

/-- The exporter, used by the threads `κ`. -/
def system (κ : Type) [DecidableEq κ] : Lts (State κ) (Act κ) where
  init := { sh := (), pc := fun _ => .idle, worker := () }
  step s a := s.threadStep a.t (command a.op)

/-- The batches of which requests were handed to the transport. -/
def sent {κ : Type} (h : List (Act κ)) : List (List Span) :=
  h.filterMap fun
    | ⟨_, .send spans⟩ => some spans
    | _ => none

/-- The batches of the calls of the transport that have ended, each with how its call ended. -/
def responses {κ : Type} (h : List (Act κ)) : List (List Span × Outcome) :=
  h.filterMap fun
    | ⟨_, .respond spans outcome⟩ => some (spans, outcome)
    | _ => none

/-- The call that a thread makes. -/
def Pc.call : Pc → Option Call
  | .idle => none
  | .called c | .answered c _ => some c
  | .sending spans => some (.exportSpans spans)

/-- The batch of which a thread has yet to send the request. -/
def Pc.unsent : Pc → List (List Span)
  | .called (.exportSpans spans) => [spans]
  | _ => []

/-- The batch whose request a thread has sent, without a response so far. -/
def Pc.inTransit : Pc → List (List Span)
  | .sending spans => [spans]
  | _ => []

/-- The result that a thread has yet to return. -/
def Pc.unreturned : Pc → List ExportResult
  | .answered (.exportSpans _) (.result value) => [value]
  | _ => []

/-- The operation is inside a call: it neither starts nor ends one. -/
def Op.inside : Op → Bool
  | .call _ | .ret _ _ => false
  | _ => true

/-- Inside its call, a thread goes on making it. -/
lemma call_command {op : Op} (hop : op.inside = true) :
    (command op).target.call = (command op).source.call := by
  cases op with
  | call | ret => cases hop
  | _ => rfl

@[simp]
lemma sent_append {κ : Type} (h h' : List (Act κ)) : sent (h ++ h') = sent h ++ sent h' :=
  List.filterMap_append

@[simp]
lemma responses_append {κ : Type} (h h' : List (Act κ)) :
    responses (h ++ h') = responses h ++ responses h' := List.filterMap_append

section Step

variable {κ : Type} [DecidableEq κ] {e e' : State κ} {a : Act κ} {t : κ}

/-- When a step is enabled. -/
lemma source_of_step (hs : (system κ).step e a = some e') :
    e.pc a.t = (command a.op).source ∧ (command a.op).guard e.sh = true :=
  ⟨(Pool.threadStep_eq_some.mp hs).1, (Pool.threadStep_eq_some.mp hs).2.1⟩

/-- The thread that takes a step goes on where its operation says. -/
lemma pc_self_of_step (hs : (system κ).step e a = some e') : e'.pc a.t = (command a.op).target :=
  Pool.threadStep_pc_self hs

/-- The other threads stay where they are. -/
lemma pc_of_step_ne (hs : (system κ).step e a = some e') (ht : t ≠ a.t) : e'.pc t = e.pc t :=
  Pool.threadStep_pc_of_ne ht.symm hs

end Step

end OtlpHttpExporter

open OtlpHttpExporter (HttpConfig request resultOf sent responses sent_append responses_append
  NoDoubles decode viewBody)

variable {ι : Type}

/-- A call that starts or returns is a step of the exporter. -/
def SpanExporter.Event.act {κ : Type} : Event κ → OtlpHttpExporter.Act κ
  | .call t c => ⟨t, .call c⟩
  | .ret t c a => ⟨t, .ret c a⟩

/-- What a step of the processor does at the exporter. -/
def atOtlp (a : Act ι Span) : List (OtlpHttpExporter.Act (Option ι)) :=
  (exporterEvents a).map Event.act

/-- The processor `P` with an OTLP exporter, called by the threads `ι`. -/
def otlpPipeline (ι : Type) [DecidableEq ι] (P : Processor Span) :
    Lts (State ι Span × OtlpHttpExporter.State (Option ι))
      (Act ι Span ⊕ OtlpHttpExporter.Act (Option ι)) :=
  (system ι P).link (OtlpHttpExporter.system (Option ι)) atOtlp fun a => a.op.inside

/-- How the processor and its exporter stand to each other. -/
structure OtlpJoined (hp : List (Act ι Span)) (he : List (OtlpHttpExporter.Act (Option ι)))
    (p : State ι Span) (e : OtlpHttpExporter.State (Option ι)) : Prop where
  worker : (e.pc none).call = p.worker.exporterCall
  callers : ∀ t c, (e.pc (some t)).call = some c → c = .shutdown
  requests : sent he ++ (e.pc none).unsent = (exportCalls hp).map fun batch => batch.map Prod.snd
  answered : (responses he).map Prod.fst ++ (e.pc none).inTransit = sent he
  results : (responses he).map (fun r => resultOf r.2) = exportAnswers hp ++ (e.pc none).unreturned

variable [DecidableEq ι] {P : Processor Span} {p p' : State ι Span}
  {e e' : OtlpHttpExporter.State (Option ι)} {hp : List (Act ι Span)}
  {he : List (OtlpHttpExporter.Act (Option ι))} {t : ι} {a : OtlpHttpExporter.Act (Option ι)}

/-- A caller of `shutdown` moves in the exporter. -/
lemma OtlpJoined.caller (hJ : OtlpJoined hp he p e) (ht : a.t = some t)
    (hs : (OtlpHttpExporter.system (Option ι)).step e a = some e')
    (hcall : ∀ c, (OtlpHttpExporter.command a.op).target.call = some c → c = .shutdown)
    (hsent : sent [a] = []) (hnone : responses [a] = []) : OtlpJoined hp (he ++ [a]) p e' := by
  have hworker : e'.pc none = e.pc none :=
    OtlpHttpExporter.pc_of_step_ne hs (by rw [ht]; exact (Option.some_ne_none t).symm)
  refine ⟨?_, fun t' c hc => ?_, ?_, ?_, ?_⟩
  · rw [hworker]
    exact hJ.worker
  · by_cases heq : some t' = a.t
    · rw [heq, OtlpHttpExporter.pc_self_of_step hs] at hc
      exact hcall c hc
    · rw [OtlpHttpExporter.pc_of_step_ne hs heq] at hc
      exact hJ.callers t' c hc
  · rw [hworker, sent_append, hsent, List.append_nil]
    exact hJ.requests
  · rw [hworker, sent_append, hsent, responses_append, hnone, List.append_nil, List.append_nil]
    exact hJ.answered
  · rw [hworker, responses_append, hnone, List.append_nil]
    exact hJ.results

/-- A batch in the exporter is not empty. -/
lemma OtlpJoined.ne_nil {spans : List Span} (hJ : OtlpJoined hp he p e)
    (hr : (system ι P).Run hp p) (hcall : (e.pc none).call = some (.exportSpans spans)) :
    spans ≠ [] := by
  rw [hJ.worker] at hcall
  cases hw : p.worker with
  | inExport site batch =>
    rw [hw] at hcall
    obtain rfl := Call.exportSpans.inj (Option.some_inj.mp hcall)
    have hlength := ((batchFits_of_run hr).2 batch (mem_exportCalls_of_inExport hr hw)).1
    rintro hnil
    rw [List.map_eq_nil_iff.mp hnil] at hlength
    cases hlength
  | _ =>
    rw [hw] at hcall
    cases hcall

/-- The steps inside the calls keep the two together. -/
lemma OtlpJoined.inside (hJ : OtlpJoined hp he p e) (hr : (system ι P).Run hp p)
    (hinside : a.op.inside = true)
    (hs : (OtlpHttpExporter.system (Option ι)).step e a = some e') :
    OtlpJoined hp (he ++ [a]) p e' := by
  obtain ⟨hsource, hg⟩ := OtlpHttpExporter.source_of_step hs
  have hsame := OtlpHttpExporter.call_command hinside
  obtain ⟨t, op⟩ := a
  cases t with
  | some t =>
    have hcall : ∀ c, (OtlpHttpExporter.command op).target.call = some c → c = .shutdown :=
      fun c hc => hJ.callers t c (by rw [hsource, ← hsame, hc])
    refine hJ.caller rfl hs hcall ?_ ?_
    · cases op with
      | send spans => cases hcall _ rfl
      | _ => rfl
    · cases op with
      | respond spans outcome => cases hcall _ rfl
      | _ => rfl
  | none =>
    have hself := OtlpHttpExporter.pc_self_of_step hs
    refine ⟨?_, fun t c hc => ?_, ?_, ?_, ?_⟩
    · rw [hself, hsame, ← hsource]
      exact hJ.worker
    · rw [OtlpHttpExporter.pc_of_step_ne hs (Option.some_ne_none t)] at hc
      exact hJ.callers t c hc
    · have hrequests := hJ.requests
      rw [hsource] at hrequests
      rw [hself, ← hrequests, sent_append, List.append_assoc]
      refine congrArg (sent he ++ ·) ?_
      cases op with
      | call | ret => cases hinside
      | empty => exact absurd rfl (hJ.ne_nil hr (by rw [hsource]; rfl))
      | send | respond => rfl
      | accept c => cases c <;> first | rfl | cases hg
    · have hanswered := hJ.answered
      rw [hsource] at hanswered
      rw [hself, responses_append, sent_append, ← hanswered, List.map_append, List.append_assoc,
        List.append_assoc]
      refine congrArg ((responses he).map Prod.fst ++ ·) ?_
      cases op with
      | call | ret => cases hinside
      | empty | send | respond | accept => rfl
    · have hresults := hJ.results
      rw [hsource] at hresults
      rw [hself, responses_append, List.map_append, hresults, List.append_assoc]
      refine congrArg (exportAnswers hp ++ ·) ?_
      cases op with
      | call | ret => cases hinside
      | empty => exact absurd rfl (hJ.ne_nil hr (by rw [hsource]; rfl))
      | send | respond => rfl
      | accept c => cases c <;> rfl

/-- A step that the exporter does not see keeps the two together. -/
lemma OtlpJoined.quiet {b : Act ι Span} (hJ : OtlpJoined hp he p e) (hs : step P p b = some p')
    (hnil : exporterEvents b = []) : OtlpJoined (hp ++ [b]) he p' e := by
  obtain ⟨hcalls, hanswers⟩ := exportCalls_of_nil hnil
  refine ⟨hJ.worker.trans (exporterCall_of_step hs hnil).symm, hJ.callers, ?_, hJ.answered, ?_⟩
  · rw [exportCalls_append, hcalls, List.append_nil]
    exact hJ.requests
  · rw [exportAnswers_append, hanswers, List.append_nil]
    exact hJ.results

/-- The worker enters the exporter, or leaves it. -/
lemma OtlpJoined.workerMeets {b : WorkerAct ι Span} (hJ : OtlpJoined hp he p e)
    (hs : step P p (.worker b) = some p') (hone : atOtlp (.worker b) = [a])
    (hs' : (OtlpHttpExporter.system (Option ι)).step e a = some e') :
    OtlpJoined (hp ++ [.worker b]) (he ++ [a]) p' e' := by
  obtain ⟨-, -, rfl⟩ := step_worker_iff.mp hs
  have hsource := (OtlpHttpExporter.source_of_step hs').1
  have hself := OtlpHttpExporter.pc_self_of_step hs'
  have hrequests := hJ.requests
  have hanswered := hJ.answered
  have hresults := hJ.results
  have hcallers : a.t = none → ∀ t c, (e'.pc (some t)).call = some c → c = .shutdown :=
    fun ht t c hc => by
      rw [OtlpHttpExporter.pc_of_step_ne hs' (by rw [ht]; exact Option.some_ne_none t)] at hc
      exact hJ.callers t c hc
  cases b with
  | callExport | callFlush | callFinalFlush =>
    cases hone
    rw [show e.pc none = .idle from hsource] at hrequests hanswered hresults
    refine ⟨congrArg _ hself, hcallers rfl, ?_, ?_, ?_⟩
    · rw [show e'.pc none = _ from hself, sent_append, exportCalls_append, List.map_append,
        ← hrequests, List.append_assoc, List.append_assoc]
      rfl
    · rw [show e'.pc none = _ from hself, sent_append, responses_append, ← hanswered,
        List.map_append, List.append_assoc, List.append_assoc]
      rfl
    · rw [show e'.pc none = _ from hself, responses_append, exportAnswers_append, List.map_append,
        hresults]
      rfl
  | exportReturn | flushReturn | finalFlushReturn =>
    cases hone
    rw [show e.pc none = _ from hsource] at hrequests hanswered hresults
    refine ⟨?_, hcallers rfl, ?_, ?_, ?_⟩
    · rw [show e'.pc none = _ from hself]
      first
        | rfl
        | rename_i site _ _
          cases site <;> rfl
    · rw [show e'.pc none = _ from hself, sent_append, exportCalls_append, List.map_append,
        ← hrequests, List.append_assoc, List.append_assoc]
      rfl
    · rw [show e'.pc none = _ from hself, sent_append, responses_append, ← hanswered,
        List.map_append, List.append_assoc, List.append_assoc]
      rfl
    · rw [show e'.pc none = _ from hself, responses_append, exportAnswers_append, List.map_append,
        hresults, List.append_assoc, List.append_assoc]
      rfl
  | _ => cases hone

/-- A caller of `shutdown` enters the exporter, or leaves it. -/
lemma OtlpJoined.callerMeets {b : ShutdownAct} (hJ : OtlpJoined hp he p e)
    (hs : step P p (.shutdown t b) = some p') (hone : atOtlp (.shutdown t b) = [a])
    (hs' : (OtlpHttpExporter.system (Option ι)).step e a = some e') :
    OtlpJoined (hp ++ [.shutdown t b]) (he ++ [a]) p' e' := by
  have hcalls : exportCalls [Act.shutdown (α := Span) t b] = [] ∧
      exportAnswers [Act.shutdown (α := Span) t b] = [] := ⟨rfl, rfl⟩
  have hmoved : OtlpJoined hp (he ++ [a]) p e' := by
    cases b with
    | callExporter | exporterReturn =>
      cases hone
      exact hJ.caller rfl hs' (fun c hc => by cases hc <;> rfl) rfl rfl
    | _ => cases hone
  refine ⟨?_, hmoved.callers, ?_, hmoved.answered, ?_⟩
  · rw [(shutdown_frame hs).worker]
    exact hmoved.worker
  · rw [exportCalls_append, hcalls.1, List.append_nil]
    exact hmoved.requests
  · rw [exportAnswers_append, hcalls.2, List.append_nil]
    exact hmoved.results

variable {h : List (Act ι Span ⊕ OtlpHttpExporter.Act (Option ι))}
  {s : State ι Span × OtlpHttpExporter.State (Option ι)}

/-- In every reachable state, the processor and its exporter stand to each other as they should. -/
theorem otlpJoined_of_run (hr : (otlpPipeline ι P).Run h s) :
    OtlpJoined (Lts.ofSystem h) (Lts.ofComponent atOtlp h) s.1 s.2 := by
  induction hr using Lts.run_induction with
  | nil => exact ⟨rfl, fun t c hc => absurd hc.symm (Option.some_ne_none c), rfl, rfl, rfl⟩
  | concat h a s s' hr hs ih =>
    rw [Lts.ofSystem_append, Lts.ofComponent_append]
    cases a with
    | inr a =>
      obtain ⟨hinside, hs₂, heq⟩ := Lts.link_inr_iff.mp hs
      rw [heq]
      exact (List.append_nil (Lts.ofSystem h)).symm ▸ ih.inside (Lts.run_ofSystem hr) hinside hs₂
    | inl b =>
      by_cases hnil : exporterEvents b = []
      · have hatOtlp : atOtlp b = [] := by rw [atOtlp, hnil, List.map_nil]
        obtain ⟨hs₁, heq⟩ := Lts.link_inl_of_nil hs hatOtlp
        have hempty : Lts.ofComponent atOtlp [Sum.inl b] = [] := by
          simp [Lts.ofComponent, hatOtlp]
        rw [heq, hempty, List.append_nil]
        exact ih.quiet hs₁ hnil
      · rcases b with ⟨t, b⟩ | ⟨t, b⟩ | ⟨t, b⟩ | b | now
        case shutdown =>
          cases b with
          | callExporter | exporterReturn =>
            obtain ⟨hs₁, hs₂⟩ := Lts.link_inl_of_singleton hs rfl
            exact ih.callerMeets hs₁ rfl hs₂
          | _ => exact absurd rfl hnil
        case worker =>
          cases b with
          | callExport | exportReturn | callFlush | flushReturn | callFinalFlush
          | finalFlushReturn =>
            obtain ⟨hs₁, hs₂⟩ := Lts.link_inl_of_singleton hs rfl
            exact ih.workerMeets hs₁ rfl hs₂
          | _ => exact absurd rfl hnil
        all_goals exact absurd rfl hnil

variable [Fintype ι]

/-- When the worker has stopped, one request was made of each batch, and each has been answered: the
batches hold the accepted spans of every thread, each once and in the order of the thread, the body
of a request is read back as its batch if neither the spans nor the resource have an attribute that
is a double, and the processor was told that a batch has been exported exactly if its request was
answered with a status of success. -/
theorem requests_deliver (toChars : Double → ByteString) (config : HttpConfig)
    (hexp : P.exporter = true) (hr : (otlpPipeline ι P).Run h s)
    (hstopped : s.1.sh.workerStopped = true) :
    ∃ batches : List (List (ι × Span)),
      sent (Lts.ofComponent atOtlp h) = batches.map (fun batch => batch.map Prod.snd) ∧
      (responses (Lts.ofComponent atOtlp h)).map Prod.fst = sent (Lts.ofComponent atOtlp h) ∧
      exportAnswers (Lts.ofSystem h) =
        (responses (Lts.ofComponent atOtlp h)).map (fun r => resultOf r.2) ∧
      (∀ t, ProducerQueue.ofProducer t batches.flatten = accepted t (Lts.ofSystem h)) ∧
      ∀ spans ∈ sent (Lts.ofComponent atOtlp h),
        NoDoubles spans config.toOtlpHttpExporterConfig →
        decode (request toChars config spans).body =
          some (viewBody spans config.toOtlpHttpExporterConfig) := by
  have hp := Lts.run_ofSystem hr
  have hworker := (verdict_of_run hp).stopped hstopped
  have hJ := otlpJoined_of_run hr
  have hidle : s.2.pc none = .idle := by
    have hcall := hJ.worker
    rw [hworker] at hcall
    cases hpc : s.2.pc none with
    | idle => rfl
    | _ =>
      rw [hpc] at hcall
      cases hcall
  have hrequests := hJ.requests
  have hanswered := hJ.answered
  have hresults := hJ.results
  rw [hidle] at hrequests hanswered hresults
  refine ⟨exportCalls (Lts.ofSystem h), (List.append_nil _).symm.trans hrequests,
    (List.append_nil _).symm.trans hanswered, ((List.append_nil _).symm.trans hresults.symm),
    fun t => ?_, fun spans _ hnone => OtlpHttpExporter.decode_of_noDoubles toChars hnone⟩
  rw [accepted_eq_of_run hexp hp t, hworker, (sealed_of_workerStopped hp hstopped).empty]
  simp [WorkerPc.batch, exported]

/-- The life of a processor with one span, whose request is answered with the status 204. -/
def otlpShutdown : List (Act Thread Span ⊕ OtlpHttpExporter.Act (Option Thread)) :=
  [pushAndDrain.map .inl,
    [.inr ⟨none, .send [sampledSpan]⟩,
      .inr ⟨none, .respond [sampledSpan] (.response { statusCode := 204 })⟩],
    exportedToFlush.map .inl, [.inr ⟨none, .accept .forceFlush⟩],
    flushedToClose.map .inl, [.inr ⟨some .t₁, .accept .shutdown⟩],
    closedToReturn.map .inl].flatten

/-- The request of the span has been sent. -/
theorem requests_deliver_otlpShutdown :
    ∃ s, (otlpPipeline Thread spanProcessor).Run otlpShutdown s ∧
      ∃ batches : List (List (Thread × Span)),
        sent (Lts.ofComponent atOtlp otlpShutdown) =
          batches.map (fun batch => batch.map Prod.snd) ∧
        ∀ t, ProducerQueue.ofProducer t batches.flatten =
          accepted t (Lts.ofSystem otlpShutdown) := by
  obtain ⟨s, hr, hstopped⟩ := Lts.exists_run_of_any (L := otlpPipeline Thread spanProcessor)
    (h := otlpShutdown) (p := fun s => s.1.sh.workerStopped) (by decide)
  obtain ⟨batches, hsent, -, -, haccepted, -⟩ :=
    requests_deliver OtlpHttpExporter.sampleToChars {} rfl hr hstopped
  exact ⟨s, hr, batches, hsent, haccepted⟩

end GalayTracing
