import GalayTracing.BatchSpanProcessor.Ledger
import GalayTracing.BatchSpanProcessor.ShutdownRequest

/-!
# Span conservation

Every sampled span given to `onEnd` is, at every moment, in exactly one place: still inside its
call, queued, in the batch the worker holds, handed to one `exportSpans` call, counted as dropped,
or rejected because of a shutdown request.

For each producer two list equations carry this.  The spans given are those whose call has settled
their fate, followed by the one still inside, `given_eq_of_run`; and the accepted spans are those
exported, followed by those in the worker's batch, followed by those queued,
`accepted_eq_of_run`.  The second one also says that the spans of one producer are exported in the
order of their calls.
-/

namespace GalayTracing

variable {ι α : Type}

/-- The span a caller of `onEnd` still holds. -/
def CallerPc.inside : CallerPc α → List α
  | .onEnd (.fetchAdd span) | .onEnd (.fullSub span) | .onEnd (.loadShutdown span _)
  | .onEnd (.closedSub span) | .onEnd (.enqueue span _) | .onEnd (.failedSub span)
  | .onEnd (.drop span) => [span]
  | _ => []

/-- The batch the worker has popped and not yet handed to the exporter. -/
def WorkerPc.batch : WorkerPc ι α → List (ι × α)
  | .popRelease _ batch | .callExport _ batch => batch
  | _ => []

variable {P : Processor α} {s s' : State ι α} {h : List (Act ι α)} {t : ι}

open ProducerQueue

/-- A step inside another function does not touch the span a thread holds. -/
lemma inside_eq_of_not_onEnd {p p' : CallerPc α}
    (hp : p = .idle ∨ (∃ q, p = .forceFlush q) ∨ ∃ q, p = .shutdown q)
    (hp' : p' = .idle ∨ (∃ q, p' = .forceFlush q) ∨ ∃ q, p' = .shutdown q) :
    p'.inside = p.inside := by
  obtain rfl | ⟨q, rfl⟩ | ⟨q, rfl⟩ := hp <;> obtain rfl | ⟨q', rfl⟩ | ⟨q', rfl⟩ := hp' <;> rfl

/-- A worker without a batch has nothing to hand over. -/
lemma WorkerPc.batch_eq_nil {pc : WorkerPc ι α} (hpc : pc.holdsBatch = false) :
    pc.batch = [] := by
  cases pc with
  | popRelease site batch => exact absurd hpc (by simp [WorkerPc.holdsBatch])
  | callExport site batch => exact absurd hpc (by simp [WorkerPc.holdsBatch])
  | _ => rfl

@[simp] lemma exportCalls_append (h h' : List (Act ι α)) :
    exportCalls (h ++ h') = exportCalls h ++ exportCalls h' := List.filterMap_append

@[simp] lemma exportAnswers_append (h h' : List (Act ι α)) :
    exportAnswers (h ++ h') = exportAnswers h ++ exportAnswers h' := List.filterMap_append

/-- Only the worker calls `exportSpans`. -/
lemma exportCalls_outside {a : Act ι α} (ha : ∀ b, a ≠ .worker b) : exportCalls [a] = [] := by
  cases a with
  | worker b => exact absurd rfl (ha b)
  | _ => rfl

/-- Only the worker receives the answers of `exportSpans`. -/
lemma exportAnswers_outside {a : Act ι α} (ha : ∀ b, a ≠ .worker b) : exportAnswers [a] = [] := by
  cases a with
  | worker b => exact absurd rfl (ha b)
  | _ => rfl

variable [DecidableEq ι]

/-! ### Histories grow at the end -/

@[simp] lemma given_append (t : ι) (h h' : List (Act ι α)) :
    given P t (h ++ h') = given P t h ++ given P t h' := List.filterMap_append

@[simp] lemma accepted_append (t : ι) (h h' : List (Act ι α)) :
    accepted t (h ++ h') = accepted t h ++ accepted t h' := List.filterMap_append

@[simp] lemma dropped_append (t : ι) (h h' : List (Act ι α)) :
    dropped t (h ++ h') = dropped t h ++ dropped t h' := List.filterMap_append

@[simp] lemma rejected_append (t : ι) (h h' : List (Act ι α)) :
    rejected t (h ++ h') = rejected t h ++ rejected t h' := List.filterMap_append

@[simp] lemma exported_append (t : ι) (h h' : List (Act ι α)) :
    exported t (h ++ h') = exported t h ++ exported t h' := by
  simp [exported]

/-! ### The fate of the given spans -/

/-- The spans of thread `t` whose call has settled their fate, in order. -/
def settled (t : ι) (h : List (Act ι α)) : List α :=
  h.filterMap fun
    | .onEnd t' (.enqueue span _ true) => if t' = t then some span else none
    | .onEnd t' (.drop span) => if t' = t then some span else none
    | .onEnd t' (.closedSub span) => if t' = t then some span else none
    | _ => none

@[simp] lemma settled_append (t : ι) (h h' : List (Act ι α)) :
    settled t (h ++ h') = settled t h ++ settled t h' := List.filterMap_append

/-- An operation of another thread settles nothing for thread `t`. -/
lemma history_other {t' : ι} (ht : t' ≠ t) (a : OnEndAct α) :
    given P t [.onEnd t' a] = [] ∧ settled t [.onEnd t' a] = [] ∧
      accepted t [.onEnd t' a] = [] ∧ dropped t [.onEnd t' a] = [] ∧
      rejected t [.onEnd t' a] = [] := by
  rcases a with _ | _ | _ | _ | _ | ⟨_, _, _ | _⟩ | _ | _ | _ | _ <;>
    first
    | exact ⟨rfl, rfl, rfl, rfl, rfl⟩
    | simp [given, settled, accepted, dropped, rejected, ht]

/-- Each operation of `onEnd` settles the fate of at most one span, in one way. -/
lemma settled_cases (t : ι) (a : Act ι α) :
    (settled t [a] = [] ∧ accepted t [a] = [] ∧ dropped t [a] = [] ∧ rejected t [a] = []) ∨
      ∃ span, settled t [a] = [span] ∧
        ((accepted t [a] = [span] ∧ dropped t [a] = [] ∧ rejected t [a] = []) ∨
          (accepted t [a] = [] ∧ dropped t [a] = [span] ∧ rejected t [a] = []) ∨
          (accepted t [a] = [] ∧ dropped t [a] = [] ∧ rejected t [a] = [span])) := by
  rcases a with ⟨t', a⟩ | _ | _ | _ | _
  · by_cases ht : t' = t
    · subst ht
      rcases a with _ | _ | _ | _ | _ | ⟨_, _, _ | _⟩ | _ | _ | _ | _ <;>
        first
        | exact Or.inl ⟨rfl, rfl, rfl, rfl⟩
        | simp [settled, accepted, dropped, rejected]
    · exact Or.inl (history_other (P := ⟨normalizeConfig {}, true, fun _ => true⟩) ht a).2
  all_goals exact Or.inl ⟨rfl, rfl, rfl, rfl⟩

/-- The accepted spans are among the settled ones, in the same order. -/
lemma accepted_sublist_settled (t : ι) (h : List (Act ι α)) :
    (accepted t h).Sublist (settled t h) := by
  induction h with
  | nil => exact List.Sublist.slnil
  | cons a h ih =>
    rw [← List.singleton_append, accepted_append, settled_append]
    refine List.Sublist.append ?_ ih
    rcases settled_cases t a with ⟨h₁, h₂, -, -⟩ |
      ⟨span, h₁, ⟨h₂, -, -⟩ | ⟨h₂, -, -⟩ | ⟨h₂, -, -⟩⟩ <;> simp [h₁, h₂]

/-- A step that adds nothing on either side keeps the account. -/
private lemma append_nil_comm (l i : List α) : l ++ i ++ [] = l ++ [] ++ i := by simp

variable [DecidableEq α]

/-- A settled span was accepted, dropped or rejected. -/
lemma count_settled (t : ι) (h : List (Act ι α)) (x : α) :
    (settled t h).count x =
      (accepted t h).count x + (dropped t h).count x + (rejected t h).count x := by
  induction h with
  | nil => rfl
  | cons a h ih =>
    rw [← List.singleton_append]
    rcases settled_cases t a with ⟨h₁, h₂, h₃, h₄⟩ |
      ⟨span, h₁, ⟨h₂, h₃, h₄⟩ | ⟨h₂, h₃, h₄⟩ | ⟨h₂, h₃, h₄⟩⟩ <;>
      simp only [settled_append, accepted_append, dropped_append, rejected_append, h₁, h₂, h₃,
        h₄, List.count_append, List.count_nil, ih] <;> omega

/-- An operation of `onEnd` by thread `t` keeps the account of `t`'s spans. -/
lemma given_onEnd {a : OnEndAct α} (hs : step P s (.onEnd t a) = some s')
    (hgiven : given P t h = settled t h ++ (s.pc t).inside) :
    given P t (h ++ [.onEnd t a]) = settled t (h ++ [.onEnd t a]) ++ (s'.pc t).inside := by
  obtain ⟨hpc, -, rfl⟩ := step_onEnd_iff.mp hs
  rw [hpc] at hgiven
  rw [given_append, settled_append, hgiven]
  simp only [Function.update_self]
  clear hs hgiven hpc
  cases a with
  | call span =>
    by_cases hspan : P.sampled span <;>
      simp [onEndCommand, given, settled, hspan, CallerPc.inside]
  | enqueue span previous success =>
    cases success with
    | true =>
      have hsettled : settled t [.onEnd t (.enqueue span previous true)] = [span] := by
        simp [settled]
      rw [hsettled]
      simp only [onEndCommand]
      split_ifs <;> rfl
    | false => exact append_nil_comm _ _
  | drop span =>
    have hsettled : settled t [.onEnd t (.drop span)] = [span] := by simp [settled]
    rw [hsettled]
    rfl
  | closedSub span =>
    have hsettled : settled t [.onEnd t (.closedSub span)] = [span] := by simp [settled]
    rw [hsettled]
    rfl
  | _ =>
    -- neither side of the equation grows, and the call goes on with the same span
    simp only [onEndCommand]
    (try split_ifs) <;> exact append_nil_comm _ _

/-- `forceFlush` does not touch the spans the threads hold. -/
lemma inside_forceFlush {a : ForceFlushAct} {t' : ι}
    (hs : step P s (.forceFlush t' a) = some s') (t : ι) :
    (s'.pc t).inside = (s.pc t).inside := by
  by_cases ht : t = t'
  · subst ht
    obtain ⟨hold, hnew⟩ := forceFlush_pc hs
    exact inside_eq_of_not_onEnd (hold.imp_right Or.inl) (hnew.imp_right Or.inl)
  · rw [(forceFlush_frame hs).others t ht]

/-- `shutdown` does not touch the spans the threads hold. -/
lemma inside_shutdown {a : ShutdownAct} {t' : ι}
    (hs : step P s (.shutdown t' a) = some s') (t : ι) :
    (s'.pc t).inside = (s.pc t).inside := by
  by_cases ht : t = t'
  · subst ht
    obtain ⟨hold, hnew⟩ := shutdown_pc hs
    exact inside_eq_of_not_onEnd (hold.imp_right Or.inr) (hnew.imp_right Or.inr)
  · rw [(shutdown_frame hs).others t ht]

/-- The spans a thread gave to `onEnd` are those whose fate is settled, followed by the one its
current call still holds. -/
theorem given_eq_of_run (hr : (system ι P).Run h s) (t : ι) :
    given P t h = settled t h ++ (s.pc t).inside := by
  induction hr using run_induction with
  | nil => rfl
  | onEnd h s s' t' a hr hs ih =>
    by_cases ht : t' = t
    · subst ht
      exact given_onEnd hs ih
    · obtain ⟨hg, hst, -⟩ := history_other (P := P) ht a
      rw [given_append, settled_append, hg, hst, (onEnd_frame hs).others t (Ne.symm ht), ih]
      simp
  | forceFlush h s s' t' a hr hs ih =>
    rw [given_append, settled_append, inside_forceFlush hs, ih]
    exact append_nil_comm _ _
  | shutdown h s s' t' a hr hs ih =>
    rw [given_append, settled_append, inside_shutdown hs, ih]
    exact append_nil_comm _ _
  | worker h s s' a hr hs ih =>
    rw [given_append, settled_append, (worker_frame hs).pc, ih]
    exact append_nil_comm _ _
  | tick h s s' now hr hs ih =>
    obtain ⟨-, rfl⟩ := step_tick_iff.mp hs
    rw [given_append, settled_append, ih]
    exact append_nil_comm _ _

/-! ### The way of the accepted spans -/

/-- Apart from the pop and the call of the exporter, the worker's batch, the queue and the exports
stay as they are. -/
lemma worker_batch_frame (hexp : P.exporter = true) {a : WorkerAct ι α}
    (hs : step P s (.worker a) = some s') (hpop : ∀ site batch, a ≠ .popBatch site batch)
    (hcall : ∀ site batch, a ≠ .callExport site batch) :
    s'.worker.batch = s.worker.batch ∧ s'.sh.spans = s.sh.spans ∧
      exportCalls [Act.worker (ι := ι) a] = [] := by
  by_cases hrelease : ∃ site batch, a = .popRelease site batch
  · obtain ⟨site, batch, rfl⟩ := hrelease
    obtain ⟨hw, -, hspans, hw'⟩ := step_popRelease hs
    refine ⟨?_, hspans, rfl⟩
    rw [hw, hw', if_pos hexp]
    rfl
  · have hnot : ∀ site batch, a ≠ .popRelease site batch :=
      fun site batch ha => hrelease ⟨site, batch, ha⟩
    have hafter := WorkerPc.batch_eq_nil (holdsBatch_of_step hs hpop hnot)
    have hbefore := WorkerPc.batch_eq_nil (holdsBatch_before_step hs hnot hcall)
    refine ⟨hafter.trans hbefore.symm, (worker_ledger_frame hs hpop hnot).2.1, ?_⟩
    cases a with
    | callExport site batch => exact absurd rfl (hcall site batch)
    | _ => rfl

/-- A worker step changes neither side of the account of the accepted spans: it moves spans from
the queue to its batch, and from its batch to the exporter. -/
lemma accepted_worker (hexp : P.exporter = true) {a : WorkerAct ι α}
    (hs : step P s (.worker a) = some s')
    (haccepted : accepted t h =
      exported t h ++ ofProducer t s.worker.batch ++ ofProducer t s.sh.spans) :
    accepted t (h ++ [.worker a]) = exported t (h ++ [.worker a]) ++
      ofProducer t s'.worker.batch ++ ofProducer t s'.sh.spans := by
  have hsame : accepted t (h ++ [.worker a]) = accepted t h := by
    rw [accepted_append]
    exact List.append_nil _
  rw [hsame, haccepted]
  by_cases hpop : ∃ site batch, a = .popBatch site batch
  · obtain ⟨site, batch, rfl⟩ := hpop
    obtain ⟨hw, hw', -, -, -, hdeq⟩ := step_popBatch hs
    rw [hw, hw', dequeueBulk_ofProducer hdeq t, exported_append]
    simp [WorkerPc.batch, exported, exportCalls]
  by_cases hcall : ∃ site batch, a = .callExport site batch
  · obtain ⟨site, batch, rfl⟩ := hcall
    obtain ⟨hpc, -, rfl⟩ := step_worker_iff.mp hs
    simp only [workerCommand] at hpc ⊢
    rw [hpc, exported_append]
    simp [WorkerPc.batch, exported, exportCalls]
  · obtain ⟨hbatch, hspans, hexports⟩ := worker_batch_frame hexp hs
      (fun site batch ha => hpop ⟨site, batch, ha⟩) fun site batch ha => hcall ⟨site, batch, ha⟩
    rw [hbatch, hspans, exported_append]
    simp [exported, hexports]

/-- An operation of `onEnd` by any thread keeps the account of the accepted spans. -/
lemma accepted_onEnd {a : OnEndAct α} {t' : ι} (hs : step P s (.onEnd t' a) = some s')
    (haccepted : accepted t h =
      exported t h ++ ofProducer t s.worker.batch ++ ofProducer t s.sh.spans) :
    accepted t (h ++ [.onEnd t' a]) = exported t (h ++ [.onEnd t' a]) ++
      ofProducer t s'.worker.batch ++ ofProducer t s'.sh.spans := by
  obtain ⟨-, -, rfl⟩ := step_onEnd_iff.mp hs
  have hexports : exported t (h ++ [.onEnd t' a]) = exported t h := by
    rw [exported_append]
    exact List.append_nil _
  rw [accepted_append, hexports, haccepted]
  cases a with
  | enqueue span previous success =>
    cases success with
    | true =>
      have hnew : accepted t [.onEnd t' (.enqueue span previous true)] =
          ofProducer t [(t', span)] := by
        by_cases ht : t' = t <;> simp [accepted, ofProducer, ht]
      simp [onEndCommand, hnew]
    | false => exact List.append_nil _
  | _ => exact List.append_nil _

/-- The accepted spans of a thread are those exported, followed by those in the worker's batch,
followed by those queued. -/
theorem accepted_eq_of_run (hexp : P.exporter = true) (hr : (system ι P).Run h s) (t : ι) :
    accepted t h = exported t h ++ ofProducer t s.worker.batch ++ ofProducer t s.sh.spans := by
  induction hr using run_induction with
  | nil => rfl
  | onEnd h s s' t' a hr hs ih => exact accepted_onEnd hs ih
  | forceFlush h s s' t' a hr hs ih =>
    rw [(forceFlush_frame hs).worker, (forceFlush_frame hs).spans, accepted_append,
      exported_append, ih]
    simp [accepted, exported, exportCalls]
  | shutdown h s s' t' a hr hs ih =>
    rw [(shutdown_frame hs).worker, (shutdown_frame hs).spans, accepted_append,
      exported_append, ih]
    simp [accepted, exported, exportCalls]
  | worker h s s' a hr hs ih => exact accepted_worker hexp hs ih
  | tick h s s' now hr hs ih =>
    obtain ⟨-, rfl⟩ := step_tick_iff.mp hs
    rw [accepted_append, exported_append, ih]
    simp [accepted, exported, exportCalls]

/-! ### Sampling, rejection and batch sizes -/

/-- The batch the worker holds is nonempty and of the permitted size. -/
def WorkerPc.BatchFits (maxBatchSize : ℕ) : WorkerPc ι α → Prop
  | .popRelease _ batch | .callExport _ batch =>
    1 ≤ batch.length ∧ batch.length ≤ maxBatchSize
  | _ => True

omit [DecidableEq ι] [DecidableEq α] in
/-- A worker without a batch holds none of the wrong size. -/
lemma WorkerPc.batchFits_of_not_holds {n : ℕ} {pc : WorkerPc ι α} (hpc : pc.holdsBatch = false) :
    pc.BatchFits n := by
  cases pc with
  | popRelease site batch => exact absurd hpc (by simp [WorkerPc.holdsBatch])
  | callExport site batch => exact absurd hpc (by simp [WorkerPc.holdsBatch])
  | _ => trivial

/-- The worker pops batches of the permitted size only, and keeps them as they are. -/
lemma batchFits_worker {a : WorkerAct ι α} (hs : step P s (.worker a) = some s')
    (hfits : s.worker.BatchFits P.config.maxBatchSize) :
    s'.worker.BatchFits P.config.maxBatchSize := by
  by_cases hpop : ∃ site batch, a = .popBatch site batch
  · obtain ⟨site, batch, rfl⟩ := hpop
    obtain ⟨-, hw', -, hone, hmax, -⟩ := step_popBatch hs
    rw [hw']
    exact ⟨hone, hmax⟩
  by_cases hrelease : ∃ site batch, a = .popRelease site batch
  · obtain ⟨site, batch, rfl⟩ := hrelease
    obtain ⟨hw, -, -, hw'⟩ := step_popRelease hs
    rw [hw] at hfits
    rw [hw']
    split_ifs
    · exact hfits
    · exact WorkerPc.batchFits_of_not_holds (holdsBatch_afterExport _ _)
  · exact WorkerPc.batchFits_of_not_holds (holdsBatch_of_step hs
      (fun site batch ha => hpop ⟨site, batch, ha⟩) fun site batch ha => hrelease ⟨site, batch, ha⟩)

/-- Every batch handed to the exporter, or about to be, is of the permitted size. -/
theorem batchFits_of_run (hr : (system ι P).Run h s) :
    s.worker.BatchFits P.config.maxBatchSize ∧
      ∀ batch ∈ exportCalls h, 1 ≤ batch.length ∧ batch.length ≤ P.config.maxBatchSize := by
  induction hr using run_induction_worker with
  | nil => exact ⟨trivial, by simp [exportCalls]⟩
  | outside h s s' a hr hs hother hf ih =>
    rw [hf.worker, exportCalls_append, exportCalls_outside hother, List.append_nil]
    exact ih
  | worker h s s' a hr hs ih =>
    obtain ⟨hfits, hcalls⟩ := ih
    refine ⟨batchFits_worker hs hfits, ?_⟩
    rw [exportCalls_append]
    intro batch hbatch
    rcases List.mem_append.mp hbatch with hold | hnew
    · exact hcalls batch hold
    · cases a with
      | callExport site batch' =>
        obtain ⟨hw, -, -⟩ := step_worker_iff.mp hs
        obtain rfl : batch = batch' := by simpa [exportCalls] using hnew
        rw [hw] at hfits
        exact hfits
      | _ => exact absurd hnew List.not_mem_nil

omit [DecidableEq α] in
/-- Only sampled spans get past the entry of `onEnd`. -/
lemma sampled_of_given {x : α} (hx : x ∈ given P t h) : P.sampled x = true := by
  obtain ⟨a, -, ha⟩ := List.mem_filterMap.mp hx
  rcases a with ⟨t', a⟩ | _ | _ | _ | _
  · cases a with
    | call span =>
      have hspan : (t' = t ∧ P.sampled span = true) ∧ span = x := by simpa using ha
      exact hspan.2 ▸ hspan.1.2
    | _ => exact absurd ha (by simp)
  all_goals exact absurd ha (by simp)

omit [DecidableEq α] in
/-- An entry of the queue is an item of its producer. -/
lemma mem_ofProducer_of_mem {e : ι × α} {q : List (ι × α)} (he : e ∈ q) :
    e.2 ∈ ofProducer e.1 q :=
  List.mem_filterMap.mpr ⟨e, he, if_pos rfl⟩

/-- A span is turned away with `kClosed` only after the shutdown was requested. -/
theorem shutdownRequested_of_rejected (hr : (system ι P).Run h s) (t : ι)
    (ht : rejected t h ≠ []) : s.sh.shutdownRequested = true := by
  induction hr using run_induction_step with
  | nil => exact absurd rfl ht
  | concat h a s s' hr hs ih =>
    by_cases hold : rejected t h = []
    · rw [rejected_append, hold, List.nil_append] at ht
      have hclosed : ∃ t' span, a = .onEnd t' (.closedSub span) := by
        rcases a with ⟨t', a⟩ | _ | _ | _ | _
        · cases a with
          | closedSub span => exact ⟨t', span, rfl⟩
          | _ => exact absurd rfl ht
        all_goals exact absurd rfl ht
      obtain ⟨t', span, rfl⟩ := hclosed
      have hpc := (step_onEnd_iff.mp hs).1
      refine shutdownRequested_mono hs ((shutdownSeen_of_run hr).caller t' ?_)
      rw [hpc]
      rfl
    · exact shutdownRequested_mono hs (ih hold)

/-! ### Every span is in one place -/

variable [Fintype ι]

/-- The spans thread `t` has had counted as dropped are counted once each. -/
theorem droppedSpans_eq_of_run (hr : (system ι P).Run h s) :
    s.sh.droppedSpans = ∑ t, (dropped t h).length := by
  induction hr using run_induction_step with
  | nil => simp [initial, dropped]
  | concat h a s s' hr hs ih =>
    have hsame : s'.sh.droppedSpans = s.sh.droppedSpans → (∀ t, dropped t [a] = []) →
        s'.sh.droppedSpans = ∑ t, (dropped t (h ++ [a])).length := by
      intro hs' ha
      rw [hs', ih]
      refine Finset.sum_congr rfl fun t _ => ?_
      rw [dropped_append, ha t, List.append_nil]
    rcases a with ⟨t', a⟩ | ⟨t', a⟩ | ⟨t', a⟩ | a | now
    · obtain ⟨-, -, rfl⟩ := step_onEnd_iff.mp hs
      by_cases hdrop : ∃ span, a = .drop span
      · obtain ⟨span, rfl⟩ := hdrop
        have hlen : ∀ t, (dropped t (h ++ [.onEnd t' (.drop span)])).length =
            (dropped t h).length + if t' = t then 1 else 0 := by
          intro t
          by_cases ht : t' = t <;> simp [dropped, ht]
        have hsum : ∑ t, (dropped t (h ++ [.onEnd t' (.drop span)])).length =
            (∑ t, (dropped t h).length) + 1 := by
          simp only [hlen, Finset.sum_add_distrib, Finset.sum_ite_eq, Finset.mem_univ, if_true]
        rw [hsum, ← ih]
        rfl
      · refine hsame ?_ fun t => ?_
        · rcases a with _ | _ | _ | _ | _ | ⟨_, _, _ | _⟩ | _ | span | _ | _ <;>
            first | rfl | exact absurd ⟨span, rfl⟩ hdrop
        · cases a with
          | drop span => exact absurd ⟨span, rfl⟩ hdrop
          | _ => rfl
    · exact hsame (forceFlush_frame hs).droppedSpans fun _ => rfl
    · exact hsame (shutdown_frame hs).droppedSpans fun _ => rfl
    · exact hsame (worker_frame hs).droppedSpans fun _ => rfl
    · obtain ⟨-, rfl⟩ := step_tick_iff.mp hs
      exact hsame rfl fun _ => rfl

/-- The places a sampled span can be in once it was given to `onEnd`. -/
inductive Place
  /-- Inside its `onEnd` call. -/
  | insideOnEnd
  /-- In the queue. -/
  | queued
  /-- In the batch the worker has popped. -/
  | inBatch
  /-- Handed to an `exportSpans` call. -/
  | exported
  /-- Counted in `droppedSpans`. -/
  | dropped
  /-- Rejected because of a shutdown request. -/
  | rejected
  deriving DecidableEq

instance : Fintype Place where
  elems := {.insideOnEnd, .queued, .inBatch, .exported, .dropped, .rejected}
  complete := by rintro ⟨⟩ <;> decide

/-- The spans of thread `t` that are in a place, in a state reached by the history `h`. -/
def located (h : List (Act ι α)) (s : State ι α) (t : ι) : Place → List α
  | .insideOnEnd => (s.pc t).inside
  | .queued => ofProducer t s.sh.spans
  | .inBatch => ofProducer t s.worker.batch
  | .exported => GalayTracing.exported t h
  | .dropped => GalayTracing.dropped t h
  | .rejected => GalayTracing.rejected t h

/-- What conservation says of a state reached by the history `h`. -/
structure Conserved (P : Processor α) (h : List (Act ι α)) (s : State ι α) : Prop where
  /-- The places together hold every span as often as it was given. -/
  count_located : ∀ t x, ∑ p, (located h s t p).count x = (given P t h).count x
  /-- A span given once is in one place, once. -/
  exactly_one : ∀ t x, (given P t h).count x = 1 →
    ∃ p, (located h s t p).count x = 1 ∧ ∀ q, q ≠ p → x ∉ located h s t q
  /-- `droppedSpans` counts the dropped spans. -/
  droppedSpans_eq : s.sh.droppedSpans = ∑ t, (GalayTracing.dropped t h).length
  /-- Spans are rejected because the shutdown was requested. -/
  requested : ∀ t, GalayTracing.rejected t h ≠ [] → s.sh.shutdownRequested = true
  /-- The queue holds sampled spans only. -/
  sampled : ∀ e ∈ s.sh.spans, P.sampled e.2 = true
  /-- The queue holds at most `queueCapacity` spans. -/
  length_le : s.sh.spans.length ≤ P.config.queueCapacity
  /-- The size counter never wraps below zero. -/
  decrement_le : ∀ a s', step P s a = some s' → sizeDecrement a ≤ s.sh.size
  /-- Every `exportSpans` call gets between one and `maxBatchSize` spans. -/
  batch_length : ∀ batch ∈ exportCalls h, 1 ≤ batch.length ∧ batch.length ≤ P.config.maxBatchSize
  /-- The spans of a producer are exported in the order it gave them, and none is skipped that
  was accepted. -/
  exported_prefix : ∀ t, GalayTracing.exported t h <+: accepted t h ∧
    (accepted t h).Sublist (given P t h)

omit [Fintype ι] in
/-- The places together hold every span as often as it was given. -/
lemma sum_count_located (hexp : P.exporter = true) (hr : (system ι P).Run h s) (t : ι) (x : α) :
    ∑ p, (located h s t p).count x = (given P t h).count x := by
  have hplaces : (Finset.univ : Finset Place) =
      {.insideOnEnd, .queued, .inBatch, .exported, .dropped, .rejected} := rfl
  have haccepted := congrArg (List.count x) (accepted_eq_of_run hexp hr t)
  simp only [List.count_append] at haccepted
  rw [given_eq_of_run hr t, List.count_append, count_settled, haccepted, hplaces]
  simp only [Finset.mem_insert, Finset.mem_singleton, reduceCtorEq, or_self, not_false_eq_true,
    Finset.sum_insert, Finset.sum_singleton, located]
  omega

/-- A family of counts that adds up to one has one positive member. -/
lemma exists_place_of_sum_eq_one {c : Place → ℕ} (hc : ∑ p, c p = 1) :
    ∃ p, c p = 1 ∧ ∀ q, q ≠ p → c q = 0 := by
  obtain ⟨p, -, hp⟩ : ∃ p ∈ Finset.univ, c p ≠ 0 := by
    refine Finset.exists_ne_zero_of_sum_ne_zero ?_
    rw [hc]
    exact one_ne_zero
  have hsplit := Finset.add_sum_erase Finset.univ c (Finset.mem_univ p)
  rw [hc] at hsplit
  refine ⟨p, by omega, fun q hq => ?_⟩
  have hrest : ∑ q ∈ Finset.univ.erase p, c q = 0 := by omega
  exact Finset.sum_eq_zero_iff.mp hrest q (Finset.mem_erase.mpr ⟨hq, Finset.mem_univ q⟩)

/-- Span conservation: in every reachable state of a processor with an exporter, every sampled
span given to `onEnd` is in exactly one place, the queue and its counter stay within their bounds,
and the batches have the permitted sizes and keep each producer's order. -/
theorem conserved_of_run (hexp : P.exporter = true) (hr : (system ι P).Run h s) :
    Conserved P h s := by
  have hledger := ledger_of_run hr
  refine
    { count_located := sum_count_located hexp hr
      exactly_one := ?_
      droppedSpans_eq := droppedSpans_eq_of_run hr
      requested := shutdownRequested_of_rejected hr
      sampled := ?_
      length_le := hledger.spans_length_le
      decrement_le := fun _ _ hs => hledger.sizeDecrement_le hs
      batch_length := (batchFits_of_run hr).2
      exported_prefix := fun t => ⟨?_, ?_⟩ }
  · intro t x hx
    obtain ⟨p, hp, hothers⟩ :=
      exists_place_of_sum_eq_one ((sum_count_located hexp hr t x).trans hx)
    exact ⟨p, hp, fun q hq => List.count_eq_zero.mp (hothers q hq)⟩
  · intro e he
    have haccepted : e.2 ∈ accepted e.1 h := by
      rw [accepted_eq_of_run hexp hr e.1]
      exact List.mem_append_right _ (mem_ofProducer_of_mem he)
    have hsettled := (accepted_sublist_settled e.1 h).subset haccepted
    refine sampled_of_given (t := e.1) (h := h) ?_
    rw [given_eq_of_run hr e.1]
    exact List.mem_append_left _ hsettled
  · rw [accepted_eq_of_run hexp hr t, List.append_assoc]
    exact List.prefix_append _ _
  · rw [given_eq_of_run hr t]
    exact (accepted_sublist_settled t h).trans (List.sublist_append_left _ _)

/-- Two threads race for one place in the queue: the span of thread `t₁` is exported, and the span
of thread `t₂` is dropped. -/
def raceForOnePlace : List (Act Thread ℕ) :=
  [.onEnd .t₁ (.call 7), .onEnd .t₂ (.call 8), .onEnd .t₁ (.fetchAdd 7 0),
    .onEnd .t₂ (.fetchAdd 8 1), .onEnd .t₁ (.loadShutdown 7 0 false),
    .onEnd .t₁ (.enqueue 7 0 true), .onEnd .t₂ (.fullSub 8), .onEnd .t₁ (.exchangePending false),
    .onEnd .t₂ (.drop 8), .onEnd .t₁ .releaseSignal, .worker .waitAcquire, .worker .clearPending,
    .worker (.loadShutdown false false), .worker (.noRequest (.head false false) false),
    .worker (.readyCount true 1), .worker (.popLoad (.ready true) 1),
    .worker (.popBatch (.ready true) [(.t₁, 7)]), .worker (.popRelease (.ready true) [(.t₁, 7)]),
    .worker (.callExport (.ready true) [(.t₁, 7)])]

/-- Conservation in a run in which one span is exported and one is dropped. -/
theorem conserved_raceForOnePlace :
    ∃ s, (system Thread (smallProcessor .kOnEnd 1 1)).Run raceForOnePlace s ∧
      Conserved (smallProcessor .kOnEnd 1 1) raceForOnePlace s := by
  obtain ⟨s, hr, -⟩ := Lts.exists_run_of_any (L := system Thread (smallProcessor .kOnEnd 1 1))
    (h := raceForOnePlace) (p := fun _ => true) (by decide)
  exact ⟨s, hr, conserved_of_run rfl hr⟩

end GalayTracing
