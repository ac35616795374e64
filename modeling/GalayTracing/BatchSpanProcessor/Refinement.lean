import GalayTracing.BatchSpanProcessor.FlushRequests
import GalayTracing.BatchSpanProcessor.ShutdownDrain
import GalayTracing.BatchSpanProcessor.ShutdownFlush
import GalayTracing.Foundation.BoundedBuffer

/-!
# The processor is a bounded buffer

Seen from outside, the processor is a buffer between the threads that end spans and the exporter:
`onEnd` accepts a span, drops it or refuses it, the worker takes batches and delivers them, a
shutdown request closes the buffer, and the worker stops when nothing is left.  Every run of the
processor shows a run of such a buffer, `processor_refines_buffer`.

The last point needs an invariant.  Once the worker has read in its exit test that the counter is
zero, the queue is empty and no push is between its reservation and its `enqueue`; since the
shutdown was requested before, no push gets that far again, and the processor is sealed for good.
What the buffer promises when its consumer stops then holds of the processor: everything it
accepted has been exported, `all_exported_of_workerStopped`.
-/

namespace GalayTracing

variable {ι α : Type}

/-- The worker has read in the exit test of the current iteration that the counter is zero. -/
def WorkerPc.emptied : WorkerPc ι α → Bool
  | .exitEmpty _ => false
  | pc => pc.closing

/-- What a step shows of the buffer. -/
def shows : Act ι α → List (BoundedBuffer.Label ι α)
  | .onEnd t (.enqueue span _ true) => [.accept t span]
  | .onEnd t (.drop span) => [.drop t span]
  | .onEnd t (.closedSub span) => [.refuse t span]
  | .shutdown _ (.storeRequested _) => [.close]
  | .worker (.popBatch _ batch) => [.take batch]
  | .worker (.exportReturn _ batch _) => [.deliver batch]
  | .worker .storeStopped => [.stop]
  | _ => []

/-- The buffer in a state of the processor. -/
def bufferOf (s : State ι α) : BoundedBuffer.State ι α where
  queue := s.sh.spans
  hand := s.worker.holding
  closed := s.sh.shutdownRequested
  stopped := s.sh.workerStopped

variable [DecidableEq ι] [DecidableEq α] {P : Processor α} {s s' : State ι α}
  {h : List (Act ι α)} {t : ι}

/-! ### The sealed processor -/

/-- The shutdown is requested, the queue is empty, and no push is about to enqueue its span. -/
structure Sealed (s : State ι α) : Prop where
  requested : s.sh.shutdownRequested = true
  empty : s.sh.spans = []
  noPush : ∀ t span previous, s.pc t ≠ .onEnd (.enqueue span previous)

omit [DecidableEq ι] [DecidableEq α] in
/-- Only a push that has read the flag as unset goes on to enqueue its span. -/
lemma enqueue_target {a : OnEndAct α} {span : α} {previous : ℕ}
    (htarget : (onEndCommand P t a).target = .onEnd (.enqueue span previous)) :
    a = .loadShutdown span previous false := by
  rcases a with _ | _ | _ | ⟨span', previous', _ | _⟩ | _ | ⟨_, _, _ | _⟩ | _ | _ | _ | _
  case loadShutdown.false =>
    simp only [onEndCommand, Bool.false_eq_true, if_false, CallerPc.onEnd.injEq,
      OnEndPc.enqueue.injEq] at htarget
    rw [htarget.1, htarget.2]
  all_goals
    simp only [onEndCommand] at htarget
    (try split_ifs at htarget) <;> cases htarget

/-- Apart from `onEnd`, no step brings a thread to the point where it enqueues a span. -/
lemma noPush_of_step {a : Act ι α} (hs : step P s a = some s')
    (hnone : ∀ t span previous, s.pc t ≠ .onEnd (.enqueue span previous))
    (hload : ∀ t span previous, a ≠ .onEnd t (.loadShutdown span previous false)) (t : ι)
    (span : α) (previous : ℕ) : s'.pc t ≠ .onEnd (.enqueue span previous) := by
  intro hpc
  by_cases hcaller : a.caller = some t
  · rcases a with ⟨t', b⟩ | ⟨t', b⟩ | ⟨t', b⟩ | b | now <;> cases hcaller
    · rw [onEnd_pc_eq hs, Function.update_self] at hpc
      exact hload t span previous (by rw [enqueue_target hpc])
    · have hafter := (forceFlush_pc hs).2
      simp [hpc] at hafter
    · have hafter := (shutdown_pc hs).2
      simp [hpc] at hafter
  · rw [pc_of_caller_ne hs hcaller] at hpc
    exact hnone t span previous hpc

/-- A sealed processor stays sealed. -/
lemma Sealed.of_step {a : Act ι α} (hS : Sealed s) (hs : step P s a = some s') : Sealed s' := by
  obtain ⟨hreq, hempty, hnone⟩ := hS
  refine ⟨shutdownRequested_mono hs hreq, ?_, noPush_of_step hs hnone ?_⟩
  · rcases a with ⟨t, a⟩ | ⟨t, a⟩ | ⟨t, a⟩ | a | now
    · obtain ⟨hsource, -, rfl⟩ := step_onEnd_iff.mp hs
      rcases a with _ | _ | _ | _ | _ | ⟨span, previous, _ | _⟩ | _ | _ | _ | _
      case enqueue.true => exact absurd hsource (hnone t span previous)
      all_goals exact hempty
    · rw [(forceFlush_frame hs).spans, hempty]
    · rw [(shutdown_frame hs).spans, hempty]
    · cases hpops : a.pops with
      | false => rw [worker_spans hs hpops, hempty]
      | true =>
        obtain ⟨site, batch, rfl⟩ : ∃ site batch, a = .popBatch site batch := by
          cases a with
          | popBatch site batch => exact ⟨site, batch, rfl⟩
          | _ => cases hpops
        have hlength := ProducerQueue.dequeueBulk_length (step_popBatch hs).2.2.2.2.2
        rw [hempty, List.length_nil] at hlength
        exact List.length_eq_zero_iff.mp (by omega)
    · obtain ⟨-, rfl⟩ := step_tick_iff.mp hs
      exact hempty
  · rintro t span previous rfl
    have hunset : s.sh.shutdownRequested = false := beq_iff_eq.mp (step_onEnd_iff.mp hs).2.1
    rw [hreq] at hunset
    cases hunset

/-- The worker gets past the exit test only by reading that the counter is zero. -/
lemma emptied_worker {a : WorkerAct ι α} (hs : step P s (.worker a) = some s')
    (hemptied : s'.worker.emptied = true) :
    s.worker.emptied = true ∨ s.sh.size = 0 ∧ s.worker.sawShutdown = true := by
  obtain ⟨hsource, hg, rfl⟩ := step_worker_iff.mp hs
  rw [hsource]
  clear hs hsource
  cases a with
  | exitEmpty ok value =>
    cases value with
    | true => exact Or.inr ⟨beq_iff_eq.mp (beq_iff_eq.mp hg), rfl⟩
    | false => cases hemptied
  | noRequest site any =>
    cases site with
    | head elapsed requested =>
      simp only [workerCommand, FlushSite.afterRequests, ordinaryDrain] at hemptied
      split_ifs at hemptied <;> cases hemptied
    | drained ok => cases hemptied
    | exitTest ok => exact Or.inl rfl
  | popLoad site count =>
    simp only [workerCommand] at hemptied
    cases site <;> split_ifs at hemptied <;> exact Or.inl hemptied
  | popNone site => cases site <;> exact Or.inl hemptied
  | popRelease site batch =>
    simp only [workerCommand] at hemptied
    cases site <;> split_ifs at hemptied <;> exact Or.inl hemptied
  | exportReturn site batch result =>
    cases site <;> exact Or.inl hemptied
  | drainResult site ok value =>
    simp only [workerCommand] at hemptied
    cases site <;> simp only [DrainSite.afterDrain] at hemptied <;>
      (try split_ifs at hemptied) <;> exact Or.inl hemptied
  | _ =>
    simp only [workerCommand] at hemptied
    (try split_ifs at hemptied) <;> exact Or.inl hemptied

variable [Fintype ι]

omit [DecidableEq ι] [DecidableEq α] in
/-- A counter reading of zero means that no push is about to enqueue. -/
lemma Ledger.noPush_of_size_eq_zero (hL : Ledger P s) (hsize : s.sh.size = 0) (t : ι) (span : α)
    (previous : ℕ) : s.pc t ≠ .onEnd (.enqueue span previous) := by
  intro hpc
  have hone := hL.one_le_size hpc rfl
  omega

/-- Once the worker is past the exit test, the processor is sealed. -/
theorem sealed_of_run (hr : (system ι P).Run h s) (hemptied : s.worker.emptied = true) :
    Sealed s := by
  induction hr using run_induction_worker with
  | nil => cases hemptied
  | outside h s s' a hr hs hother hf ih => exact (ih (hf.worker ▸ hemptied)).of_step hs
  | worker h s s' a hr hs ih =>
    rcases emptied_worker hs hemptied with hold | ⟨hsize, hsaw⟩
    · exact (ih hold).of_step hs
    · have hledger := ledger_of_run hr
      have hsealed : Sealed s :=
        ⟨(shutdownSeen_of_run hr).worker hsaw, (hledger.empty_of_size_eq_zero hsize).1,
          hledger.noPush_of_size_eq_zero hsize⟩
      exact hsealed.of_step hs

/-- Once the worker has stopped, the processor is sealed. -/
lemma sealed_of_workerStopped (hr : (system ι P).Run h s) (hstopped : s.sh.workerStopped = true) :
    Sealed s :=
  sealed_of_run hr (by rw [(verdict_of_run hr).stopped hstopped]; rfl)

/-! ### One step -/

/-- The buffer the processor stands for. -/
abbrev bufferFor (ι : Type) [DecidableEq ι] (P : Processor α) :
    Lts (BoundedBuffer.State ι α) (BoundedBuffer.Label ι α) :=
  BoundedBuffer.buffer ι α P.config.queueCapacity P.config.maxBatchSize

omit [Fintype ι] in
/-- One transition of the buffer. -/
lemma exec_bufferFor {u u' : BoundedBuffer.State ι α} {b : BoundedBuffer.Label ι α}
    (hb : BoundedBuffer.step P.config.queueCapacity P.config.maxBatchSize u b = some u') :
    (bufferFor ι P).exec u [b] = some u' := by
  have hstep : (bufferFor ι P).step u b = some u' := hb
  exact Lts.exec_cons_of_step hstep []

omit [DecidableEq ι] [DecidableEq α] in
/-- A push that reaches `enqueue` has room in the queue. -/
lemma Ledger.length_lt_of_slot {p : CallerPc α} (hL : Ledger P s) (hpc : s.pc t = p)
    (hslot : p.slots = 1) : s.sh.spans.length < P.config.queueCapacity := by
  have hone := le_poolSum CallerPc.slots s.pc t
  have hle := hL.held_le
  rw [hpc, hslot] at hone
  unfold held at hle
  omega

/-- An operation of `onEnd` is what it shows of the buffer. -/
lemma exec_shows_onEnd {a : OnEndAct α} (hr : (system ι P).Run h s)
    (hs : step P s (.onEnd t a) = some s') :
    (bufferFor ι P).exec (bufferOf s) (shows (.onEnd t a)) = some (bufferOf s') := by
  obtain ⟨hpc, hg, rfl⟩ := step_onEnd_iff.mp hs
  rcases a with _ | _ | _ | _ | span | ⟨span, previous, _ | _⟩ | _ | span | _ | _
  case closedSub =>
    have hreq := (shutdownSeen_of_run hr).caller t (by rw [hpc]; rfl)
    exact exec_bufferFor (if_pos hreq)
  case enqueue.true =>
    refine exec_bufferFor (BoundedBuffer.step_accept_iff.mpr ⟨⟨?_, ?_⟩, rfl⟩)
    · by_contra hstopped
      have hsealed := sealed_of_workerStopped hr (Bool.eq_true_of_not_eq_false hstopped)
      exact hsealed.noPush t span previous hpc
    · exact (ledger_of_run hr).length_lt_of_slot hpc rfl
  all_goals rfl

omit [Fintype ι] in
/-- Only a bulk pop and a completed export change what the worker holds. -/
lemma holding_worker (hexp : P.exporter = true) {a : WorkerAct ι α}
    (hs : step P s (.worker a) = some s') (hpop : ∀ site batch, a ≠ .popBatch site batch)
    (hreturn : ∀ site batch result, a ≠ .exportReturn site batch result) :
    s'.worker.holding = s.worker.holding := by
  by_cases hcall : ∃ site batch, a = .callExport site batch
  · obtain ⟨site, batch, rfl⟩ := hcall
    obtain ⟨hsource, -, rfl⟩ := step_worker_iff.mp hs
    rw [hsource]
    exact List.append_nil batch
  · have hnot : ∀ site batch, a ≠ .callExport site batch :=
      fun site batch ha => hcall ⟨site, batch, ha⟩
    obtain ⟨hbefore, hafter⟩ := inFlight_worker hs hnot hreturn
    rw [WorkerPc.holding, WorkerPc.holding, hbefore, hafter,
      (worker_batch_frame hexp hs hpop hnot).1]

omit [Fintype ι] in
/-- The worker enters `exportSpans` by calling it. -/
lemma inExport_target {a : WorkerAct ι α} {site : PopSite} {batch : List (ι × α)}
    (htarget : (workerCommand P a).target = .inExport site batch) : a = .callExport site batch := by
  cases a with
  | callExport site' batch' =>
    obtain ⟨rfl, rfl⟩ := WorkerPc.inExport.inj htarget
    rfl
  | noRequest site' any =>
    cases site' <;> simp only [workerCommand, FlushSite.afterRequests, ordinaryDrain] at htarget
    all_goals (try split_ifs at htarget) <;> cases htarget
  | popLoad site' count =>
    simp only [workerCommand] at htarget
    cases site' <;> split_ifs at htarget <;> cases htarget
  | popNone site' => cases site' <;> cases htarget
  | popRelease site' batch' =>
    simp only [workerCommand] at htarget
    cases site' <;> split_ifs at htarget <;> cases htarget
  | exportReturn site' batch' result => cases site' <;> cases htarget
  | drainResult site' ok value =>
    cases site' <;> simp only [workerCommand, DrainSite.afterDrain] at htarget
    all_goals (try split_ifs at htarget) <;> cases htarget
  | _ =>
    simp only [workerCommand] at htarget
    (try split_ifs at htarget) <;> cases htarget

omit [Fintype ι] in
/-- The batch that is being exported was handed to `exportSpans`. -/
lemma mem_exportCalls_of_inExport (hr : (system ι P).Run h s) {site : PopSite}
    {batch : List (ι × α)} (hworker : s.worker = .inExport site batch) : batch ∈ exportCalls h := by
  induction hr using run_induction_worker with
  | nil => cases hworker
  | outside h s s' a hr hs hother hf ih =>
    rw [exportCalls_append]
    exact List.mem_append_left _ (ih (hf.worker ▸ hworker))
  | worker h s s' a hr hs ih =>
    obtain ⟨-, -, rfl⟩ := step_worker_iff.mp hs
    obtain rfl := inExport_target hworker
    simp [exportCalls]

/-- An operation of the worker is what it shows of the buffer. -/
lemma exec_shows_worker (hexp : P.exporter = true) {a : WorkerAct ι α}
    (hr : (system ι P).Run h s) (hs : step P s (.worker a) = some s') :
    (bufferFor ι P).exec (bufferOf s) (shows (.worker a)) = some (bufferOf s') := by
  have hf := worker_frame hs
  by_cases hpop : ∃ site batch, a = .popBatch site batch
  · obtain ⟨site, batch, rfl⟩ := hpop
    obtain ⟨hw, hw', -, hone, hmax, hdeq⟩ := step_popBatch hs
    have hstopped : s'.sh.workerStopped = s.sh.workerStopped := by
      obtain ⟨-, -, rfl⟩ := step_worker_iff.mp hs
      rfl
    refine exec_bufferFor (BoundedBuffer.step_take_iff.mpr
      ⟨⟨?_, List.length_pos_iff.mp hone, hmax⟩, s'.sh.spans, hdeq, ?_⟩)
    · simp [bufferOf, hw, WorkerPc.holding, WorkerPc.inFlight, WorkerPc.batch]
    · simp [bufferOf, hw', hf.shutdownRequested, hstopped, WorkerPc.holding, WorkerPc.inFlight,
        WorkerPc.batch]
  by_cases hreturn : ∃ site batch result, a = .exportReturn site batch result
  · obtain ⟨site, batch, result, rfl⟩ := hreturn
    obtain ⟨hw, -, hs'⟩ := step_worker_iff.mp hs
    have hne : batch ≠ [] :=
      List.length_pos_iff.mp ((batchFits_of_run hr).2 batch (mem_exportCalls_of_inExport hr hw)).1
    refine exec_bufferFor (BoundedBuffer.step_deliver_iff.mpr ⟨⟨?_, hne⟩, ?_⟩)
    · simp [bufferOf, hw, workerCommand, WorkerPc.holding, WorkerPc.inFlight, WorkerPc.batch]
    · rw [hs']
      cases site <;> rfl
  · have hholding := holding_worker hexp hs (fun site batch ha => hpop ⟨site, batch, ha⟩)
      fun site batch result ha => hreturn ⟨site, batch, result, ha⟩
    have hspans : s'.sh.spans = s.sh.spans := by
      refine worker_spans hs ?_
      cases a with
      | popBatch site batch => exact absurd ⟨site, batch, rfl⟩ hpop
      | _ => rfl
    by_cases hstop : a = .storeStopped
    · subst hstop
      have hw : s.worker = .storeStopped := (step_worker_iff.mp hs).1
      have hsealed := sealed_of_run hr (by rw [hw]; rfl)
      have hrunning : s.sh.workerStopped = false := by
        by_contra hstopped
        have hgone := (verdict_of_run hr).stopped (Bool.eq_true_of_not_eq_false hstopped)
        rw [hw] at hgone
        cases hgone
      have hstopped : s'.sh.workerStopped = true := by
        obtain ⟨-, -, rfl⟩ := step_worker_iff.mp hs
        rfl
      refine exec_bufferFor (BoundedBuffer.step_stop_iff.mpr
        ⟨⟨hsealed.requested, hrunning, hsealed.empty, ?_⟩, ?_⟩)
      · simp [bufferOf, hw, WorkerPc.holding, WorkerPc.inFlight, WorkerPc.batch]
      · simp [bufferOf, hf.shutdownRequested, hstopped, hholding, hspans]
    · have hstopped : s'.sh.workerStopped = s.sh.workerStopped := by
        obtain ⟨-, -, rfl⟩ := step_worker_iff.mp hs
        cases a with
        | storeStopped => exact absurd rfl hstop
        | _ => rfl
      have hnone : shows (Act.worker (ι := ι) a) = [] := by
        cases a with
        | popBatch site batch => exact absurd ⟨site, batch, rfl⟩ hpop
        | exportReturn site batch result => exact absurd ⟨site, batch, result, rfl⟩ hreturn
        | storeStopped => exact absurd rfl hstop
        | _ => rfl
      rw [hnone, Lts.exec_nil, bufferOf, bufferOf, hspans, hholding, hf.shutdownRequested, hstopped]

/-- Every step of the processor is what it shows of the buffer. -/
lemma exec_shows (hexp : P.exporter = true) {a : Act ι α} (hr : (system ι P).Run h s)
    (hs : step P s a = some s') :
    (bufferFor ι P).exec (bufferOf s) (shows a) = some (bufferOf s') := by
  rcases a with ⟨t, a⟩ | ⟨t, a⟩ | ⟨t, a⟩ | a | now
  · exact exec_shows_onEnd hr hs
  · have hf := forceFlush_frame hs
    have hsame : bufferOf s' = bufferOf s := by
      rw [bufferOf, bufferOf, hf.spans, hf.worker, hf.shutdownRequested, hf.workerStopped]
    rw [hsame]
    rfl
  · obtain ⟨-, -, rfl⟩ := step_shutdown_iff.mp hs
    cases a <;> rfl
  · exact exec_shows_worker hexp hr hs
  · obtain ⟨-, rfl⟩ := step_tick_iff.mp hs
    rfl

/-! ### The runs -/

/-- The processor refines a bounded buffer: what a run of the processor shows is a run of the
buffer with room for `queueCapacity` spans and batches of at most `maxBatchSize`, and the state it
ends in is that of the buffer. -/
theorem processor_refines_buffer (hexp : P.exporter = true) (hr : (system ι P).Run h s) :
    (bufferFor ι P).Run (h.flatMap shows) (bufferOf s) :=
  Lts.run_refinement bufferOf rfl (fun _ _ _ _ hr hs => exec_shows hexp hr hs) hr

/-- The life of a processor with one span, as a run of the buffer. -/
theorem delayedShutdown_refines_buffer :
    ∃ s, (system Thread (smallProcessor .kTimed 1 1)).Run
      (shutdownDrain ++ delayedExit .kSuccess true ++ secondRound) s ∧
      (BoundedBuffer.buffer Thread ℕ 1 1).Run
        [.accept .t₁ 5, .close, .take [(.t₁, 5)], .deliver [(.t₁, 5)], .stop] (bufferOf s) := by
  obtain ⟨s, hr, -⟩ := Lts.exists_run_of_any (L := system Thread (smallProcessor .kTimed 1 1))
    (h := shutdownDrain ++ delayedExit .kSuccess true ++ secondRound) (p := fun _ => true)
    (by decide)
  exact ⟨s, hr, processor_refines_buffer rfl hr⟩

omit [DecidableEq α] [Fintype ι] in
/-- The buffer accepts the spans the processor accepts. -/
lemma accepted_shows (t : ι) (h : List (Act ι α)) :
    BoundedBuffer.accepted t (h.flatMap shows) = accepted t h := by
  induction h with
  | nil => rfl
  | cons a h ih =>
    rw [List.flatMap_cons, BoundedBuffer.accepted_append, ih, ← List.singleton_append (x := a),
      accepted_append]
    refine congrArg (· ++ accepted t h) ?_
    rcases a with ⟨t', a⟩ | ⟨t', a⟩ | ⟨t', a⟩ | a | now
    · rcases a with _ | _ | _ | _ | _ | ⟨_, _, _ | _⟩ | _ | _ | _ | _ <;> rfl
    · rfl
    · cases a <;> rfl
    · cases a <;> rfl
    · rfl

omit [DecidableEq α] [Fintype ι] in
/-- The buffer delivers the spans whose export is completed. -/
lemma delivered_shows (t : ι) (h : List (Act ι α)) :
    BoundedBuffer.delivered t (h.flatMap shows) = completed t h := by
  induction h with
  | nil => rfl
  | cons a h ih =>
    rw [List.flatMap_cons, BoundedBuffer.delivered_append, ih, ← List.singleton_append (x := a),
      completed_append]
    refine congrArg (· ++ completed t h) ?_
    rcases a with ⟨t', a⟩ | ⟨t', a⟩ | ⟨t', a⟩ | a | now
    · rcases a with _ | _ | _ | _ | _ | ⟨_, _, _ | _⟩ | _ | _ | _ | _ <;> rfl
    · rfl
    · cases a <;> rfl
    · cases a <;> rfl
    · rfl

/-- Once the worker has stopped, every accepted span has been exported. -/
lemma completed_of_workerStopped (hexp : P.exporter = true) (hr : (system ι P).Run h s)
    (hstopped : s.sh.workerStopped = true) (t : ι) : completed t h = accepted t h := by
  have hshown := Lts.run_refinement (M := bufferFor ι P) bufferOf rfl
    (fun _ _ _ _ hr hs => exec_shows hexp hr hs) hr
  have hall := BoundedBuffer.delivered_of_stopped hshown hstopped t
  rw [accepted_shows, delivered_shows] at hall
  exact hall.symm

/-- With an exporter, once the worker has stopped, every accepted span has been exported, in the
order of its producer, and the sampled spans given are those exported, dropped, refused, and the one
whose call has not returned. -/
theorem all_exported_of_workerStopped (hexp : P.exporter = true) (hr : (system ι P).Run h s)
    (hstopped : s.sh.workerStopped = true) (t : ι) :
    completed t h = accepted t h ∧ ∀ x, (given P t h).count x = (completed t h).count x +
      (dropped t h).count x + (rejected t h).count x + (s.pc t).inside.count x := by
  have hall := completed_of_workerStopped hexp hr hstopped t
  refine ⟨hall, fun x => ?_⟩
  rw [given_eq_of_run hr t, List.count_append, count_settled, hall]

/-- The one span of the processor has been exported when the worker has stopped. -/
theorem all_exported_delayedShutdown :
    ∃ s, (system Thread (smallProcessor .kTimed 1 1)).Run
      (shutdownDrain ++ delayedExit .kSuccess true ++ secondRound) s ∧
      completed .t₁ (shutdownDrain ++ delayedExit .kSuccess true ++ secondRound) = [5] := by
  obtain ⟨s, hr, hstopped⟩ := Lts.exists_run_of_any
    (L := system Thread (smallProcessor .kTimed 1 1))
    (h := shutdownDrain ++ delayedExit .kSuccess true ++ secondRound)
    (p := fun s => s.sh.workerStopped) (by decide)
  exact ⟨s, hr, (all_exported_of_workerStopped rfl hr hstopped .t₁).1⟩

end GalayTracing
