import GalayTracing.BatchSpanProcessor.Conservation

/-!
# `forceFlush` during a shutdown

A call of `forceFlush` that finds the processor shutting down answers from the size counter.  The
worker takes the spans of a batch off the counter when it has popped them, and exports them
afterwards; the answer `true` therefore says that the queue is empty, but not that everything has
been exported (`counterAnswer_lies`).  It is truthful exactly when the spans in the worker's hands
were all accepted during the call, `allExported_iff`.
-/

namespace GalayTracing

variable {ι α : Type}

/-- The batch that is being exported. -/
def WorkerPc.inFlight : WorkerPc ι α → List (ι × α)
  | .inExport _ batch => batch
  | _ => []

/-- The batch in the worker's hands: popped, and its export not completed. -/
def WorkerPc.holding (pc : WorkerPc ι α) : List (ι × α) := pc.inFlight ++ pc.batch

variable [DecidableEq ι] [DecidableEq α] {P : Processor α} {s s' : State ι α}
  {h h₀ h₁ : List (Act ι α)} {t : ι}

open ProducerQueue

/-- The spans of thread `t` in batches whose `exportSpans` call has completed, in order. -/
def completed (t : ι) (h : List (Act ι α)) : List α :=
  ofProducer t (h.filterMap fun
    | .worker (.exportReturn _ batch _) => some batch
    | _ => none).flatten

omit [DecidableEq α] in
@[simp] lemma completed_append (t : ι) (h h' : List (Act ι α)) :
    completed t (h ++ h') = completed t h ++ completed t h' := by
  simp [completed]

/-- The spans that were accepted by the end of `h₀` have been passed to `exportSpans` calls that
have completed by the end of `h`. -/
def AllExported (h₀ h : List (Act ι α)) : Prop := ∀ t, accepted t h₀ <+: completed t h

/-- Only a call of the exporter puts a batch in flight, and its return takes it out. -/
lemma inFlight_worker {a : WorkerAct ι α} (hs : step P s (.worker a) = some s')
    (hcall : ∀ site batch, a ≠ .callExport site batch)
    (hreturn : ∀ site batch result, a ≠ .exportReturn site batch result) :
    s.worker.inFlight = [] ∧ s'.worker.inFlight = [] := by
  obtain ⟨hsource, -, rfl⟩ := step_worker_iff.mp hs
  rw [hsource]
  clear hs hsource
  cases a with
  | callExport site batch => exact absurd rfl (hcall site batch)
  | exportReturn site batch result => exact absurd rfl (hreturn site batch result)
  | noRequest site any =>
    refine ⟨rfl, ?_⟩
    cases site <;> simp only [workerCommand, FlushSite.afterRequests, ordinaryDrain] <;>
      (try split_ifs) <;> rfl
  | drainResult site ok value =>
    refine ⟨rfl, ?_⟩
    cases site <;> simp only [workerCommand, DrainSite.afterDrain] <;> (try split_ifs) <;> rfl
  | popNone site => cases site <;> exact ⟨rfl, rfl⟩
  | popLoad site count =>
    refine ⟨rfl, ?_⟩
    simp only [workerCommand]
    cases site <;> split_ifs <;> rfl
  | popRelease site batch =>
    refine ⟨rfl, ?_⟩
    simp only [workerCommand]
    cases site <;> split_ifs <;> rfl
  | _ =>
    refine ⟨rfl, ?_⟩
    simp only [workerCommand]
    (try split_ifs) <;> rfl

/-- The exported spans are those whose export is completed, followed by those in flight. -/
theorem exported_eq_of_run (hr : (system ι P).Run h s) (t : ι) :
    exported t h = completed t h ++ ofProducer t s.worker.inFlight := by
  induction hr using run_induction_worker with
  | nil => rfl
  | outside h s s' a hr hs hother hf ih =>
    have hnone : exported t [a] = [] ∧ completed t [a] = [] := by
      cases a with
      | worker b => exact absurd rfl (hother b)
      | _ => exact ⟨rfl, rfl⟩
    rw [hf.worker, exported_append, completed_append, hnone.1, hnone.2, List.append_nil,
      List.append_nil]
    exact ih
  | worker h s s' a hr hs ih =>
    rw [exported_append, completed_append, ih]
    by_cases hcall : ∃ site batch, a = .callExport site batch
    · obtain ⟨site, batch, rfl⟩ := hcall
      obtain ⟨hsource, -, rfl⟩ := step_worker_iff.mp hs
      rw [hsource]
      simp [workerCommand, WorkerPc.inFlight, exported, exportCalls, completed]
    by_cases hreturn : ∃ site batch result, a = .exportReturn site batch result
    · obtain ⟨site, batch, result, rfl⟩ := hreturn
      obtain ⟨hsource, -, rfl⟩ := step_worker_iff.mp hs
      rw [hsource]
      cases site <;>
        simp [workerCommand, PopSite.afterExport, WorkerPc.inFlight, exported, exportCalls,
          completed]
    · obtain ⟨hbefore, hafter⟩ := inFlight_worker hs
        (fun site batch ha => hcall ⟨site, batch, ha⟩)
        fun site batch result ha => hreturn ⟨site, batch, result, ha⟩
      have hexported : exported t [Act.worker (ι := ι) a] = [] := by
        cases a with
        | callExport site batch => exact absurd ⟨site, batch, rfl⟩ hcall
        | _ => rfl
      have hcompleted : completed t [Act.worker (ι := ι) a] = [] := by
        cases a with
        | exportReturn site batch result => exact absurd ⟨site, batch, result, rfl⟩ hreturn
        | _ => rfl
      rw [hbefore, hafter, hexported, hcompleted, List.append_nil, List.append_nil]

/-- When the queue is empty, the accepted spans are those whose export is completed, followed by
those in the worker's hands. -/
lemma accepted_eq_of_empty (hexp : P.exporter = true) (hr : (system ι P).Run h s)
    (hempty : s.sh.spans = []) (t : ι) :
    accepted t h = completed t h ++ ofProducer t s.worker.holding := by
  rw [accepted_eq_of_run hexp hr t, exported_eq_of_run hr t, hempty, WorkerPc.holding,
    ofProducer_append]
  simp

omit [DecidableEq α] in
/-- Of two ways to split a list, the one that splits first leaves the longer rest. -/
private lemma prefix_iff_suffix {l₁ l₂ l₃ l₄ : List α} (heq : l₁ ++ l₂ = l₃ ++ l₄) :
    l₁ <+: l₃ ↔ l₄ <:+ l₂ := by
  have hlen := congrArg List.length heq
  rw [List.length_append, List.length_append] at hlen
  constructor
  · intro hpre
    have hle := hpre.length_le
    refine List.suffix_of_suffix_length_le (List.suffix_append l₃ l₄) ?_ (by omega)
    rw [← heq]
    exact List.suffix_append l₁ l₂
  · intro hsuf
    have hle := hsuf.length_le
    refine List.prefix_of_prefix_length_le (List.prefix_append l₁ l₂) ?_ (by omega)
    rw [heq]
    exact List.prefix_append l₃ l₄

variable [Fintype ι]

/-- When a call of `forceFlush` reads that the counter is zero and answers `true`, the spans
accepted before the call have all been exported exactly when the spans in the worker's hands were
all accepted during the call. -/
theorem allExported_iff (hexp : P.exporter = true) {timeout : ℤ}
    (hr : (system ι P).Run (h₀ ++ .forceFlush t (.call timeout) :: h₁) s)
    (hs : step P s (.forceFlush t (.readEmpty true)) = some s') :
    AllExported h₀
        (h₀ ++ .forceFlush t (.call timeout) :: (h₁ ++ [.forceFlush t (.readEmpty true)])) ↔
      ∀ t', ofProducer t' s.worker.holding <:+ accepted t' h₁ := by
  have hsize : s.sh.size = 0 := beq_iff_eq.mp (beq_iff_eq.mp (step_forceFlush_iff.mp hs).2.1)
  have hempty := ((ledger_of_run hr).empty_of_size_eq_zero hsize).1
  refine forall_congr' fun t' => ?_
  have hsplit : accepted t' h₀ ++ accepted t' h₁ =
      completed t' (h₀ ++ .forceFlush t (.call timeout) :: h₁) ++
        ofProducer t' s.worker.holding := by
    rw [← accepted_eq_of_empty hexp hr hempty t', accepted_append]
    rfl
  have hcompleted : completed t'
      (h₀ ++ .forceFlush t (.call timeout) :: (h₁ ++ [.forceFlush t (.readEmpty true)])) =
      completed t' (h₀ ++ .forceFlush t (.call timeout) :: h₁) := by
    rw [← List.cons_append, ← List.append_assoc, completed_append]
    exact List.append_nil _
  rw [hcompleted]
  exact prefix_iff_suffix hsplit

/-- A flush that finds the shutdown requested, after the span `5` has been popped; the export has
completed if `done`. -/
def flushDuringShutdown (done : Bool) : List (Act Thread ℕ) :=
  [.onEnd .t₁ (.call 5), .onEnd .t₁ (.fetchAdd 5 0), .onEnd .t₁ (.loadShutdown 5 0 false),
    .onEnd .t₁ (.enqueue 5 0 true), .onEnd .t₁ (.exchangePending false), .onEnd .t₁ .releaseSignal,
    .worker .waitAcquire, .worker .clearPending, .worker (.loadShutdown false false),
    .worker (.noRequest (.head false false) false), .worker (.readyCount true 1),
    .worker (.popLoad (.ready true) 1), .worker (.popBatch (.ready true) [(.t₁, 5)]),
    .worker (.popRelease (.ready true) [(.t₁, 5)]),
    .worker (.callExport (.ready true) [(.t₁, 5)])] ++
  (if done then [.worker (.exportReturn (.ready true) [(.t₁, 5)] .kSuccess)] else []) ++
  [.shutdown .t₂ (.call 1 1000000), .shutdown .t₂ (.storeRequested 1000000)]

/-- The steps of the flush between its call and its answer. -/
def refusedFlush : List (Act Thread ℕ) :=
  [.forceFlush .t₁ (.announce 1), .forceFlush .t₁ (.loadShutdown 1 true),
    .forceFlush .t₁ (.leave .refused 1), .forceFlush .t₁ (.leaveLoad .refused true),
    .forceFlush .t₁ (.leaveStore .refused), .forceFlush .t₁ (.leaveRelease .refused)]

/-- A flush that is answered after the export has completed. -/
theorem allExported_flushDuringShutdown :
    AllExported (flushDuringShutdown true) (flushDuringShutdown true ++
      .forceFlush .t₁ (.call 1) :: (refusedFlush ++ [.forceFlush .t₁ (.readEmpty true)])) := by
  obtain ⟨s, hr, hs⟩ := Lts.exists_run_of_any (L := system Thread (smallProcessor .kOnEnd 1 1))
    (h := flushDuringShutdown true ++ .forceFlush .t₁ (.call 1) :: refusedFlush)
    (p := fun s =>
      (step (smallProcessor .kOnEnd 1 1) s (.forceFlush .t₁ (.readEmpty true))).isSome &&
        decide (s.worker.holding = [])) (by decide)
  obtain ⟨hsome, hnone⟩ := Bool.and_eq_true_iff.mp hs
  obtain ⟨s', hs'⟩ := Option.isSome_iff_exists.mp hsome
  refine (allExported_iff rfl hr hs').mpr fun t' => ?_
  rw [of_decide_eq_true hnone]
  exact List.nil_suffix

/-- A flush during a shutdown answers `true` while a span that was accepted before the call is
still being exported. -/
theorem counterAnswer_lies :
    (∃ s, (system Thread (smallProcessor .kOnEnd 1 1)).Run (flushDuringShutdown false ++
      .forceFlush .t₁ (.call 1) :: (refusedFlush ++ [.forceFlush .t₁ (.readEmpty true)])) s) ∧
      ¬AllExported (flushDuringShutdown false) (flushDuringShutdown false ++
        .forceFlush .t₁ (.call 1) :: (refusedFlush ++ [.forceFlush .t₁ (.readEmpty true)])) := by
  obtain ⟨s, hr, -⟩ := Lts.exists_run_of_any (L := system Thread (smallProcessor .kOnEnd 1 1))
    (h := flushDuringShutdown false ++
      .forceFlush .t₁ (.call 1) :: (refusedFlush ++ [.forceFlush .t₁ (.readEmpty true)]))
    (p := fun _ => true) (by decide)
  refine ⟨⟨s, hr⟩, fun hall => ?_⟩
  have hprefix := (hall .t₁).length_le
  exact absurd hprefix (by decide)

end GalayTracing
