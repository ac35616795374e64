import GalayTracing.BatchSpanProcessor.Refinement
import GalayTracing.Export.SharedFile
import GalayTracing.Foundation.Link

/-!
# A processor that exports to a file

The worker of the processor calls the file exporter to export and to flush, and a caller of
`shutdown` calls it to close the file, possibly while the worker is still at work.  Both are taken
down to their atomic operations; they meet where a call of the exporter starts and where it returns.

A `shutdown` that returns `true` can hide a failed export, as the verdict of the drain may be lost.
With a file exporter it does not matter: a stream that has failed once stays bad, so the flush on
the worker's way out fails as well.  Hence when any `shutdown` has returned `true`, every accepted
span is in the file, `accepted_in_file`.
-/

namespace GalayTracing

open FileSpanExporter SpanExporter

variable {ι : Type}

/-- A call that starts or returns is a step of the monitor. -/
def SpanExporter.Event.label {κ : Type} : Event κ → Monitor.Label κ Call Answer Op
  | .call t c => .call t c
  | .ret t c a => .ret t c a

/-- What a step of the processor does at the exporter. -/
def atExporter (a : Act ι Span) : List (Monitor.Label (Option ι) Call Answer Op) :=
  (exporterEvents a).map Event.label

/-- The exporter takes a step inside a call. -/
def insideExporter : Monitor.Label (Option ι) Call Answer Op → Bool
  | .call _ _ | .ret _ _ _ => false
  | .enter _ _ | .act _ _ | .leave _ _ _ => true

variable [DecidableEq ι]

/-- The processor `P` with a file exporter, called by the threads `ι`. -/
def filePipeline (ι : Type) [DecidableEq ι] (P : Processor Span) (opens : Bool)
    (file : ByteString) : Lts (State ι Span × Monitor.State (Option ι) FileStream Call Answer Point)
      (Act ι Span ⊕ Monitor.Label (Option ι) Call Answer Op) :=
  (system ι P).link (sharedFile (Option ι) opens file) atExporter insideExporter

/-- The worker has finished, and will report, or has reported, a successful drain. -/
def passed (s : State ι Span) : Bool :=
  match s.worker with
  | .storeDrainOk ok => ok
  | .storeStopped | .stopped => s.sh.shutdownDrainOk
  | _ => false

/-- The batch of a thread that is not exported yet. -/
def unfinished : Monitor.Pc Call Answer Point → List (List Span)
  | .waiting (.exportSpans spans) | .inside (.exportSpans spans) _ => [spans]
  | _ => []

/-- The spans handed to the exporter, batch by batch. -/
def exportedSpans (h : List (Act ι Span)) : List Span := (exportCalls h).flatten.map Prod.snd

/-- How the processor and its exporter stand to each other. -/
structure Joined (file : ByteString) (hp : List (Act ι Span))
    (he : List (Monitor.Label (Option ι) Call Answer Op)) (p : State ι Span)
    (e : Monitor.State (Option ι) FileStream Call Answer Point) : Prop where
  worker : (e.pc none).call = p.worker.exporterCall
  callers : ∀ t c, (e.pc (some t)).call = some c → c = .shutdown
  batches : e.data.good = true →
    exportedBatches he ++ unfinished (e.pc none) =
      (exportCalls hp).map fun batch => batch.map Prod.snd
  flushed : e.pc none = .leaving .forceFlush (.flag true) ∨ passed p = true →
    file ++ linesText (exportedSpans hp) <+: e.data.file

/-! ### The steps at which they do not meet -/

variable {P : Processor Span} {p p' : State ι Span}
  {e e' : Monitor.State (Option ι) FileStream Call Answer Point} {hp : List (Act ι Span)}
  {he : List (Monitor.Label (Option ι) Call Answer Op)} {t : ι} {opens : Bool} {file : ByteString}

omit [DecidableEq ι] in
/-- A worker that reports a successful drain has finished. -/
lemma finished_of_passed (hpassed : passed p = true) : p.worker.finished = true := by
  unfold passed at hpassed
  split at hpassed
  · rename_i hw
    rw [hw]
    rfl
  · rename_i hw
    rw [hw]
    rfl
  · rename_i hw
    rw [hw]
    rfl
  · cases hpassed

/-- The worker reports a successful drain after a successful flush only. -/
lemma passed_of_step {a : Act ι Span} (hexp : P.exporter = true) (hs : step P p a = some p')
    (hnil : exporterEvents a = []) (hpassed : passed p' = true) : passed p = true := by
  rcases a with ⟨t, a⟩ | ⟨t, a⟩ | ⟨t, a⟩ | a | now
  · rwa [passed, (onEnd_frame hs).worker, (onEnd_frame hs).shutdownDrainOk] at hpassed
  · rwa [passed, (forceFlush_frame hs).worker, (forceFlush_frame hs).shutdownDrainOk] at hpassed
  · rwa [passed, (shutdown_frame hs).worker, (shutdown_frame hs).shutdownDrainOk] at hpassed
  · obtain ⟨hsource, -, rfl⟩ := step_worker_iff.mp hs
    rcases finished_source hexp (finished_of_passed hpassed) with hold | ⟨ok, answer, rfl⟩
    · rw [passed, hsource]
      cases a with
      | storeDrainOk | storeStopped => exact hpassed
      | _ => cases hold
    · cases hnil
  · obtain ⟨-, rfl⟩ := step_tick_iff.mp hs
    exact hpassed

/-- A step at which they do not meet keeps the two together. -/
lemma Joined.quiet {a : Act ι Span} (hJ : Joined file hp he p e) (hexp : P.exporter = true)
    (hs : step P p a = some p') (hnil : exporterEvents a = []) :
    Joined file (hp ++ [a]) he p' e := by
  have hcalls : exportCalls (hp ++ [a]) = exportCalls hp := by
    rw [exportCalls_append, (exportCalls_of_nil hnil).1, List.append_nil]
  refine ⟨hJ.worker.trans (exporterCall_of_step hs hnil).symm, hJ.callers, fun hgood => ?_,
    fun hflushed => ?_⟩
  · rw [hcalls]
    exact hJ.batches hgood
  · rw [exportedSpans, hcalls]
    exact hJ.flushed (hflushed.imp_right (passed_of_step hexp hs hnil))

/-! ### The steps inside a call of the exporter -/

/-- A thread that is in the body of its call has its batch still to export, as before. -/
lemma unfinished_update {q : Option ι} {pc : Monitor.Pc Call Answer Point}
    (hpc : q = none → unfinished pc = unfinished (e.pc none)) :
    unfinished (Function.update e.pc q pc none) = unfinished (e.pc none) := by
  by_cases hq : q = none
  · subst hq
    rw [Function.update_self, hpc rfl]
  · rw [Function.update_of_ne (Ne.symm hq)]

/-- A step inside the body of a call flushes nothing. -/
lemma leaving_of_update {q : Option ι} {c : Call} {x : Point} {a : Answer}
    (hleaving : Function.update e.pc q (.inside c x) none = .leaving .forceFlush a) :
    e.pc none = .leaving .forceFlush a := by
  by_cases hq : q = none
  · subst hq
    rw [Function.update_self] at hleaving
    cases hleaving
  · rwa [Function.update_of_ne (Ne.symm hq)] at hleaving

/-- A call that gives the mutex back accounts for its batch, unless the stream has failed. -/
lemma batches_leave {q : Option ι} {c : Call} {a : Answer} (hJ : Joined file hp he p e)
    (hr : (sharedFile (Option ι) opens file).Run he e)
    (hs : exporter.step e (.leave q c a) = some e') (hgood : e.data.good = true) :
    exportedBatches (he ++ [.leave q c a]) ++ unfinished (e'.pc none) =
      exportedBatches he ++ unfinished (e.pc none) := by
  have hright := (sound_of_shared_run hr).right _ _ (current_of_leave hr hs).1
  obtain ⟨x, hpc, -, rfl⟩ := Monitor.step_leave_iff.mp hs
  rw [exportedBatches_append, List.append_assoc]
  refine congrArg (exportedBatches he ++ ·) ?_
  cases q with
  | none =>
    rw [hpc]
    change exportedBatches _ ++ unfinished (Function.update e.pc none _ none) = _
    rw [Function.update_self]
    cases c with
    | exportSpans spans =>
      cases a with
      | result value =>
        obtain rfl : value = .kSuccess := hright.mpr hgood
        rfl
      | flag value => cases hright
    | forceFlush | shutdown => cases a <;> rfl
  | some t =>
    obtain rfl : c = .shutdown := hJ.callers t c (by rw [hpc]; rfl)
    rfl

/-- When the worker's flush has answered `true`, everything it has exported is in the file. -/
lemma flushed_leave (hJ : Joined file hp he p e)
    (hr : (sharedFile (Option ι) opens file).Run he e)
    (hs : exporter.step e (.leave none .forceFlush (.flag true)) = some e') :
    e'.data.file = file ++ linesText (exportedSpans hp) := by
  have hgood : e.data.good = true :=
    ((sound_of_shared_run hr).right _ _ (current_of_leave hr hs).1 rfl).1
  have hbatches := hJ.batches hgood
  obtain ⟨x, hpc, -, -⟩ := Monitor.step_leave_iff.mp hs
  rw [hpc] at hbatches
  rw [(file_of_flush hr hs).1, exportedSpans, List.map_flatten]
  exact congrArg (file ++ linesText ·.flatten) ((List.append_nil _).symm.trans hbatches)

/-- The steps inside the calls keep the two together. -/
lemma Joined.inside {b : Monitor.Label (Option ι) Call Answer Op} (hJ : Joined file hp he p e)
    (hr : (sharedFile (Option ι) opens file).Run he e) (hb : insideExporter b = true)
    (hs : exporter.step e b = some e') : Joined file hp (he ++ [b]) p e' := by
  have hcall := Monitor.call_of_step hs (fun t c h => by rw [h] at hb; cases hb)
    (fun t c r h => by rw [h] at hb; cases hb)
  refine ⟨(hcall none).trans hJ.worker, fun t c hc => hJ.callers t c ((hcall _).symm.trans hc),
    fun hgood => ?_, fun hflushed => ?_⟩
  · cases b with
    | call | ret => cases hb
    | enter q c =>
      obtain ⟨hpc, -, rfl⟩ := Monitor.step_enter_iff.mp hs
      have hsame : unfinished (Function.update e.pc q (.inside c (exporter.start c)) none) =
          unfinished (e.pc none) := unfinished_update fun hq => by
        rw [← hq, hpc]
        cases c <;> rfl
      rw [exportedBatches_append, ← hJ.batches hgood, ← hsame]
      exact congrArg (· ++ _) (List.append_nil _)
    | act q op =>
      obtain ⟨-, c, hpc, rfl⟩ := Monitor.step_act_iff.mp hs
      have hsame : unfinished (Function.update e.pc q (.inside c (exporter.body op).target) none) =
          unfinished (e.pc none) := unfinished_update fun hq => by
        rw [← hq, hpc]
        cases c <;> rfl
      rw [exportedBatches_append, ← hJ.batches (good_of_command hgood), ← hsame]
      exact congrArg (· ++ _) (List.append_nil _)
    | leave q c a =>
      rw [(current_of_leave hr hs).2] at hgood
      exact (batches_leave hJ hr hs hgood).trans (hJ.batches hgood)
  · cases b with
    | call | ret => cases hb
    | enter q c =>
      obtain ⟨-, -, rfl⟩ := Monitor.step_enter_iff.mp hs
      exact hJ.flushed (hflushed.imp_left leaving_of_update)
    | act q op =>
      refine (hJ.flushed (hflushed.imp_left ?_)).trans (file_prefix_step hs)
      obtain ⟨-, c, -, rfl⟩ := Monitor.step_act_iff.mp hs
      exact leaving_of_update
    | leave q c a =>
      rcases hflushed with hleaving | hpassed
      · by_cases hq : q = none
        · subst hq
          obtain ⟨x, hpc, -, rfl⟩ := Monitor.step_leave_iff.mp hs
          have hsame : Monitor.Pc.leaving c a = .leaving .forceFlush (.flag true) :=
            (Function.update_self none _ e.pc).symm.trans hleaving
          obtain ⟨rfl, rfl⟩ := Monitor.Pc.leaving.inj hsame
          exact (flushed_leave hJ hr hs) ▸ List.prefix_rfl
        · rw [Monitor.pc_of_thread_ne hs (Ne.symm hq)] at hleaving
          exact (hJ.flushed (Or.inl hleaving)).trans (file_prefix_step hs)
      · exact (hJ.flushed (Or.inr hpassed)).trans (file_prefix_step hs)

/-! ### The steps at which they meet -/

/-- The worker calls the exporter. -/
lemma Joined.called {a : Act ι Span} {c : Call} (hJ : Joined file hp he p e)
    (hs : exporter.step e (.call none c) = some e') (hworker : p'.worker.exporterCall = some c)
    (hcalls : (exportCalls (hp ++ [a])).map (fun batch => batch.map Prod.snd) =
      (exportCalls hp).map (fun batch => batch.map Prod.snd) ++ unfinished (.waiting c))
    (hpassed : passed p' = false) : Joined file (hp ++ [a]) (he ++ [.call none c]) p' e' := by
  obtain ⟨hpc, rfl⟩ := Monitor.step_call_iff.mp hs
  refine ⟨?_, fun t c' hc => ?_, fun hgood => ?_, fun hflushed => ?_⟩
  · rw [hworker, Monitor.State.move_pc_self]
    rfl
  · exact hJ.callers t c' hc
  · have hbatches := hJ.batches hgood
    rw [hpc] at hbatches
    replace hbatches := (List.append_nil (exportedBatches he)).symm.trans hbatches
    rw [hcalls, ← hbatches, exportedBatches_append, Monitor.State.move_pc_self]
    exact congrArg (· ++ unfinished (.waiting c)) (List.append_nil _)
  · rcases hflushed with hleaving | htrue
    · cases hleaving
    · rw [hpassed] at htrue
      cases htrue

/-- A call of the worker returns. -/
lemma Joined.returned {a : Act ι Span} {c : Call} {r : Answer} (hJ : Joined file hp he p e)
    (hs : exporter.step e (.ret none c r) = some e') (hworker : p'.worker.exporterCall = none)
    (hcalls : exportCalls [a] = [])
    (hpassed : passed p' = true → c = .forceFlush ∧ r = .flag true) :
    Joined file (hp ++ [a]) (he ++ [.ret none c r]) p' e' := by
  obtain ⟨hpc, rfl⟩ := Monitor.step_ret_iff.mp hs
  have hsame : exportCalls (hp ++ [a]) = exportCalls hp := by
    rw [exportCalls_append, hcalls, List.append_nil]
  refine ⟨?_, fun t c' hc => ?_, fun hgood => ?_, fun hflushed => ?_⟩
  · rw [hworker, Monitor.State.move_pc_self]
    rfl
  · exact hJ.callers t c' hc
  · have hbatches := hJ.batches hgood
    rw [hpc] at hbatches
    replace hbatches := (List.append_nil (exportedBatches he)).symm.trans hbatches
    rw [hsame, ← hbatches, exportedBatches_append, Monitor.State.move_pc_self, List.append_assoc]
    exact List.append_nil _
  · rcases hflushed with hleaving | htrue
    · cases hleaving
    · obtain ⟨rfl, rfl⟩ := hpassed htrue
      rw [exportedSpans, hsame]
      exact hJ.flushed (Or.inl hpc)

/-- The worker enters the exporter, or leaves it. -/
lemma Joined.workerMeets {a : WorkerAct ι Span} {b : Monitor.Label (Option ι) Call Answer Op}
    (hJ : Joined file hp he p e) (hs : step P p (.worker a) = some p')
    (hone : atExporter (.worker a) = [b]) (hs' : exporter.step e b = some e') :
    Joined file (hp ++ [.worker a]) (he ++ [b]) p' e' := by
  obtain ⟨-, -, rfl⟩ := step_worker_iff.mp hs
  cases a with
  | callExport site batch =>
    cases hone
    refine hJ.called hs' rfl ?_ rfl
    rw [exportCalls_append, List.map_append]
    rfl
  | callFlush | callFinalFlush =>
    cases hone
    refine hJ.called hs' rfl ?_ rfl
    rw [exportCalls_append, List.map_append]
    rfl
  | exportReturn site batch result =>
    cases hone
    refine hJ.returned hs' ?_ rfl fun hpassed => ?_
    · cases site <;> rfl
    · cases site <;> cases hpassed
  | flushReturn site request ok answer =>
    cases hone
    exact hJ.returned hs' rfl rfl fun hpassed => by cases hpassed
  | finalFlushReturn shutdownOk answer =>
    cases hone
    refine hJ.returned hs' rfl rfl fun hpassed => ⟨rfl, ?_⟩
    obtain ⟨hanswer, -⟩ := Bool.and_eq_true_iff.mp hpassed
    rw [hanswer]
  | _ => cases hone

/-- A caller of `shutdown` enters the exporter, or leaves it. -/
lemma Joined.caller {a : ShutdownAct} {b : Monitor.Label (Option ι) Call Answer Op}
    (hJ : Joined file hp he p e) (hs : step P p (.shutdown t a) = some p')
    (hs' : exporter.step e b = some e')
    (hb : b = .call (some t) .shutdown ∨ ∃ r, b = .ret (some t) .shutdown r) :
    Joined file (hp ++ [.shutdown t a]) (he ++ [b]) p' e' := by
  have hthread : b.thread = some t := by
    rcases hb with rfl | ⟨r, rfl⟩ <;> rfl
  have hnone : e'.pc none = e.pc none :=
    Monitor.pc_of_thread_ne hs' (by rw [hthread]; exact (Option.some_ne_none t).symm)
  have hdata : e'.data = e.data := by
    rcases hb with rfl | ⟨r, rfl⟩
    · obtain ⟨-, rfl⟩ := Monitor.step_call_iff.mp hs'
      rfl
    · obtain ⟨-, rfl⟩ := Monitor.step_ret_iff.mp hs'
      rfl
  have hcalls : exportCalls (hp ++ [.shutdown t a]) = exportCalls hp := by
    rw [exportCalls_append, exportCalls_outside (fun b hb => by cases hb),
      List.append_nil]
  have hbatches : exportedBatches (he ++ [b]) = exportedBatches he := by
    rw [exportedBatches_append]
    rcases hb with rfl | ⟨r, rfl⟩ <;> exact List.append_nil _
  have hpassed : passed p' = passed p := by
    rw [passed, passed, (shutdown_frame hs).worker, (shutdown_frame hs).shutdownDrainOk]
  refine ⟨?_, fun t' c hc => ?_, ?_, ?_⟩
  · rw [hnone, (shutdown_frame hs).worker]
    exact hJ.worker
  · by_cases ht : some t' = b.thread
    · rcases hb with rfl | ⟨r, rfl⟩
      · obtain ⟨-, rfl⟩ := Monitor.step_call_iff.mp hs'
        rw [ht, Monitor.Label.thread, Monitor.State.move_pc_self] at hc
        exact (Option.some_inj.mp hc).symm
      · obtain ⟨-, rfl⟩ := Monitor.step_ret_iff.mp hs'
        rw [ht, Monitor.Label.thread, Monitor.State.move_pc_self] at hc
        cases hc
    · rw [Monitor.pc_of_thread_ne hs' ht] at hc
      exact hJ.callers t' c hc
  · rw [hdata, hbatches, hnone, hcalls]
    exact hJ.batches
  · rw [hdata, hnone, hpassed, exportedSpans, hcalls]
    exact hJ.flushed

/-! ### The runs of the two together -/

variable {h : List (Act ι Span ⊕ Monitor.Label (Option ι) Call Answer Op)}
  {s : State ι Span × Monitor.State (Option ι) FileStream Call Answer Point}

/-- In every reachable state, the processor and its exporter stand to each other as they should. -/
theorem joined_of_run (hexp : P.exporter = true) (hr : (filePipeline ι P opens file).Run h s) :
    Joined file (Lts.ofSystem h) (Lts.ofComponent atExporter h) s.1 s.2 := by
  induction hr using Lts.run_induction with
  | nil =>
    refine ⟨rfl, fun t c hc => absurd hc.symm (Option.some_ne_none c), fun _ => rfl,
      fun hflushed => ?_⟩
    rcases hflushed with hleaving | hpassed
    · cases hleaving
    · cases hpassed
  | concat h a s s' hr hs ih =>
    have hrun := Lts.run_ofComponent hr
    rw [Lts.ofSystem_append, Lts.ofComponent_append]
    cases a with
    | inr b =>
      obtain ⟨hb, hs₂, heq⟩ := Lts.link_inr_iff.mp hs
      rw [heq]
      exact (List.append_nil (Lts.ofSystem h)).symm ▸ ih.inside hrun hb hs₂
    | inl a =>
      by_cases hnil : exporterEvents a = []
      · obtain ⟨hs₁, heq⟩ := Lts.link_inl_of_nil hs (by rw [atExporter, hnil, List.map_nil])
        have hempty : Lts.ofComponent atExporter [Sum.inl a] = [] := by
          simp [Lts.ofComponent, atExporter, hnil]
        rw [heq, hempty, List.append_nil]
        exact ih.quiet hexp hs₁ hnil
      · rcases a with ⟨t, a⟩ | ⟨t, a⟩ | ⟨t, a⟩ | a | now
        case shutdown =>
          cases a with
          | callExporter deadline ok =>
            obtain ⟨hs₁, hs₂⟩ := Lts.link_inl_of_singleton hs rfl
            exact ih.caller hs₁ hs₂ (Or.inl rfl)
          | exporterReturn deadline ok answer =>
            obtain ⟨hs₁, hs₂⟩ := Lts.link_inl_of_singleton hs rfl
            exact ih.caller hs₁ hs₂ (Or.inr ⟨_, rfl⟩)
          | _ => exact absurd rfl hnil
        case worker =>
          cases a with
          | callExport | exportReturn | callFlush | flushReturn | callFinalFlush
          | finalFlushReturn =>
            obtain ⟨hs₁, hs₂⟩ := Lts.link_inl_of_singleton hs rfl
            exact ih.workerMeets hs₁ rfl hs₂
          | _ => exact absurd rfl hnil
        all_goals exact absurd rfl hnil

variable [Fintype ι]

/-- When a `shutdown` has returned `true`, the file begins with what it held at first and the lines
of spans that are the accepted spans of every thread, each once and in the order of the thread. -/
theorem accepted_in_file (hexp : P.exporter = true) (hr : (filePipeline ι P opens file).Run h s)
    (hreturned : ∃ a ∈ Lts.ofSystem h, shutdownSucceeds a = true) :
    ∃ spans : List (ι × Span), file ++ linesText (spans.map Prod.snd) <+: s.2.data.file ∧
      ∀ t, ProducerQueue.ofProducer t spans = accepted t (Lts.ofSystem h) := by
  have hp := Lts.run_ofSystem hr
  obtain ⟨hstopped, hok⟩ := (verdict_of_run hp).returned hreturned
  have hworker := (verdict_of_run hp).stopped hstopped
  have hpassed : passed s.1 = true := by
    rw [passed, hworker]
    exact hok
  refine ⟨(exportCalls (Lts.ofSystem h)).flatten,
    (joined_of_run hexp hr).flushed (Or.inr hpassed), fun t => ?_⟩
  rw [accepted_eq_of_run hexp hp t, hworker, (sealed_of_workerStopped hp hstopped).empty]
  simp [WorkerPc.batch, exported]

/-- The life of a processor with one span: its worker exports the span and flushes the file, and
the caller of `shutdown` closes it. -/
def fileShutdown : List (Act Thread Span ⊕ Monitor.Label (Option Thread) Call Answer Op) :=
  [pushAndDrain.map .inl,
    [.inr (.enter none (.exportSpans [sampledSpan])), .inr (.act none (.test [sampledSpan] true)),
      .inr (.act none (.putLine [] sampledSpan [] (.accepted 100))),
      .inr (.act none (.putNewline [] sampledSpan [] (.accepted 101))),
      .inr (.act none (.result [sampledSpan] true)),
      .inr (.leave none (.exportSpans [sampledSpan]) (.result .kSuccess))],
    exportedToFlush.map .inl,
    [.inr (.enter none .forceFlush), .inr (.act none (.flush (.accepted 0))),
      .inr (.act none (.flushed true)), .inr (.leave none .forceFlush (.flag true))],
    flushedToClose.map .inl,
    [.inr (.enter (some .t₁) .shutdown), .inr (.act (some .t₁) (.closeFlush (.accepted 0))),
      .inr (.act (some .t₁) (.close (.accepted 0))),
      .inr (.leave (some .t₁) .shutdown (.flag true))],
    closedToReturn.map .inl].flatten

/-- The line of the span is in the file. -/
theorem accepted_fileShutdown :
    ∃ s, (filePipeline Thread spanProcessor true []).Run fileShutdown s ∧
      ∃ spans : List (Thread × Span), [] ++ linesText (spans.map Prod.snd) <+: s.2.data.file ∧
        ∀ t, ProducerQueue.ofProducer t spans = accepted t (Lts.ofSystem fileShutdown) := by
  obtain ⟨s, hr, -⟩ := Lts.exists_run_of_any (L := filePipeline Thread spanProcessor true [])
    (h := fileShutdown) (p := fun _ => true) (by decide)
  exact ⟨s, hr, accepted_in_file rfl hr ⟨.shutdown .t₁ (.ret 1000000 true true), by decide, rfl⟩⟩

end GalayTracing
