import GalayTracing.BatchSpanProcessor.Frames

/-!
# The size counter

A push reserves its place in `size` before it knows whether it may enqueue, and the worker gives
places back only after a bulk pop.  The counter is therefore the number of queued spans, plus the
reservations of pushes that found room, plus the spans popped but not yet released, plus the
reservations of refused pushes that are not yet withdrawn.  All but the last kind are bounded by
the capacity.
-/

namespace GalayTracing

variable {ι α : Type}

/-- The places a caller holds in the queue without having enqueued its span. -/
def CallerPc.slots : CallerPc α → ℕ
  | .onEnd (.loadShutdown _ _) | .onEnd (.closedSub _) | .onEnd (.enqueue _ _)
  | .onEnd (.failedSub _) => 1
  | _ => 0

/-- The reservations of refused pushes that are not yet withdrawn. -/
def CallerPc.phantoms : CallerPc α → ℕ
  | .onEnd (.fullSub _) => 1
  | _ => 0

/-- The spans the worker has popped without having released their places. -/
def WorkerPc.unreleased : WorkerPc ι α → ℕ
  | .popRelease _ batch => batch.length
  | _ => 0

/-- Whether the worker holds a batch that it has popped and not yet handed to the exporter. -/
def WorkerPc.holdsBatch : WorkerPc ι α → Bool
  | .popRelease _ _ | .callExport _ _ => true
  | _ => false

/-- A worker without a batch has nothing to release. -/
lemma WorkerPc.unreleased_eq_zero {pc : WorkerPc ι α} (hpc : pc.holdsBatch = false) :
    pc.unreleased = 0 := by
  cases pc with
  | popRelease site batch => exact absurd hpc (by simp [WorkerPc.holdsBatch])
  | _ => rfl

section HoldsBatch

@[simp] lemma holdsBatch_afterNone (site : PopSite) :
    (site.afterNone : WorkerPc ι α).holdsBatch = false := by
  cases site <;> rfl

@[simp] lemma holdsBatch_afterExport (success : Bool) (site : PopSite) :
    (site.afterExport success : WorkerPc ι α).holdsBatch = false := by
  cases site <;> rfl

@[simp] lemma holdsBatch_ordinaryDrain (config : NormalizedConfig) (elapsed : Bool) :
    (ordinaryDrain config elapsed : WorkerPc ι α).holdsBatch = false := by
  unfold ordinaryDrain
  split_ifs <;> rfl

@[simp] lemma holdsBatch_afterRequests (P : Processor α) (any : Bool) (site : FlushSite) :
    (site.afterRequests P any : WorkerPc ι α).holdsBatch = false := by
  cases site <;> simp only [FlushSite.afterRequests] <;> (try split_ifs) <;>
    first | rfl | exact holdsBatch_ordinaryDrain _ _

@[simp] lemma holdsBatch_afterDrain (P : Processor α) (ok : Bool) (site : DrainSite) :
    (site.afterDrain P ok : WorkerPc ι α).holdsBatch = false := by
  cases site <;> simp only [DrainSite.afterDrain] <;> (try split_ifs) <;> rfl

end HoldsBatch

variable {P : Processor α} {s s' : State ι α} {h : List (Act ι α)} {t : ι}

section Worker

variable [DecidableEq ι] [DecidableEq α]

/-- The operation takes spans out of the queue. -/
def WorkerAct.pops : WorkerAct ι α → Bool
  | .popBatch _ _ => true
  | _ => false

/-- Only a pop gives the worker a batch, and the release keeps it. -/
lemma holdsBatch_of_step {a : WorkerAct ι α} (hs : step P s (.worker a) = some s')
    (hbatch : ∀ site batch, a ≠ .popBatch site batch)
    (hrelease : ∀ site batch, a ≠ .popRelease site batch) :
    s'.worker.holdsBatch = false := by
  obtain ⟨-, -, rfl⟩ := step_worker_iff.mp hs
  cases a with
  | popBatch site batch => exact absurd rfl (hbatch site batch)
  | popRelease site batch => exact absurd rfl (hrelease site batch)
  | _ =>
    simp only [workerCommand]
    (try split_ifs) <;> first | rfl | simp only [holdsBatch_afterNone, holdsBatch_afterExport,
      holdsBatch_afterRequests, holdsBatch_afterDrain]

/-- A worker that holds a batch releases it or hands it to the exporter. -/
lemma holdsBatch_before_step {a : WorkerAct ι α} (hs : step P s (.worker a) = some s')
    (hrelease : ∀ site batch, a ≠ .popRelease site batch)
    (hcall : ∀ site batch, a ≠ .callExport site batch) :
    s.worker.holdsBatch = false := by
  obtain ⟨hpc, -, -⟩ := step_worker_iff.mp hs
  rw [hpc]
  cases a with
  | popRelease site batch => exact absurd rfl (hrelease site batch)
  | callExport site batch => exact absurd rfl (hcall site batch)
  | _ => rfl

/-- Only a bulk pop changes the queue. -/
lemma worker_spans {a : WorkerAct ι α} (hs : step P s (.worker a) = some s')
    (hpops : a.pops = false) : s'.sh.spans = s.sh.spans := by
  obtain ⟨-, -, rfl⟩ := step_worker_iff.mp hs
  cases a with
  | popBatch site batch => cases hpops
  | _ => rfl

/-- Apart from its two operations on the queue, the worker does not touch the counter or the
queue, and holds nothing unreleased. -/
lemma worker_ledger_frame {a : WorkerAct ι α} (hs : step P s (.worker a) = some s')
    (hbatch : ∀ site batch, a ≠ .popBatch site batch)
    (hrelease : ∀ site batch, a ≠ .popRelease site batch) :
    s'.sh.size = s.sh.size ∧ s'.sh.spans = s.sh.spans ∧
      s'.worker.unreleased = s.worker.unreleased := by
  have hafter := WorkerPc.unreleased_eq_zero (holdsBatch_of_step hs hbatch hrelease)
  have hpops : a.pops = false := by
    cases a with
    | popBatch site batch => exact absurd rfl (hbatch site batch)
    | _ => rfl
  have hspans := worker_spans hs hpops
  obtain ⟨hpc, -, rfl⟩ := step_worker_iff.mp hs
  have hbefore : s.worker.unreleased = 0 := by
    rw [hpc]
    cases a with
    | popRelease site batch => exact absurd rfl (hrelease site batch)
    | _ => rfl
  refine ⟨?_, hspans, hafter.trans hbefore.symm⟩
  cases a with
  | popRelease site batch => exact absurd rfl (hrelease site batch)
  | _ => rfl

/-- A bulk pop takes a nonempty batch of at most `maxBatchSize` spans off the queue. -/
lemma step_popBatch {site : PopSite} {batch : List (ι × α)}
    (hs : step P s (.worker (.popBatch site batch)) = some s') :
    s.worker = .popDequeue site ∧ s'.worker = .popRelease site batch ∧ s'.sh.size = s.sh.size ∧
      1 ≤ batch.length ∧ batch.length ≤ P.config.maxBatchSize ∧
      ProducerQueue.dequeueBulk batch s.sh.spans = some s'.sh.spans := by
  obtain ⟨hpc, hg, rfl⟩ := step_worker_iff.mp hs
  simp only [workerCommand, Bool.and_eq_true, decide_eq_true_eq] at hpc hg ⊢
  obtain ⟨⟨hne, hle⟩, hsome⟩ := hg
  obtain ⟨rest, hrest⟩ := Option.isSome_iff_exists.mp hsome
  refine ⟨hpc, trivial, trivial, List.length_pos_iff.mpr hne, hle, ?_⟩
  rw [hrest, Option.getD_some]

/-- The release after a bulk pop gives the places of the batch back. -/
lemma step_popRelease {site : PopSite} {batch : List (ι × α)}
    (hs : step P s (.worker (.popRelease site batch)) = some s') :
    s.worker = .popRelease site batch ∧ s'.sh.size = fetchSub s.sh.size batch.length ∧
      s'.sh.spans = s.sh.spans ∧
      s'.worker = if P.exporter then .callExport site batch else site.afterExport true := by
  obtain ⟨hpc, -, rfl⟩ := step_worker_iff.mp hs
  exact ⟨hpc, rfl, rfl, rfl⟩

end Worker

variable [Fintype ι]

/-- The number of spans actually held: enqueued, popped but not yet released by the worker, or
reserved by a push that found room. -/
def held (s : State ι α) : ℕ :=
  s.sh.spans.length + poolSum CallerPc.slots s.pc + s.worker.unreleased

/-- The counter accounts for the held spans and for the reservations of refused pushes, and the
held spans fit into the queue. -/
structure Ledger (P : Processor α) (s : State ι α) : Prop where
  size_eq : s.sh.size = held s + poolSum CallerPc.phantoms s.pc
  held_le : held s ≤ P.config.queueCapacity

/-- The ledger of the initial state is empty. -/
lemma ledger_initial : Ledger P (initial : State ι α) := by
  have hslots : poolSum CallerPc.slots (initial : State ι α).pc = 0 := poolSum_const_zero rfl
  have hphantoms : poolSum CallerPc.phantoms (initial : State ι α).pc = 0 :=
    poolSum_const_zero rfl
  have hheld : held (initial : State ι α) = 0 := by
    rw [held, hslots]
    rfl
  refine ⟨?_, ?_⟩
  · rw [hheld, hphantoms]
    rfl
  · rw [hheld]
    exact Nat.zero_le _

/-- The queue never holds more spans than its capacity. -/
lemma Ledger.spans_length_le (hL : Ledger P s) :
    s.sh.spans.length ≤ P.config.queueCapacity :=
  le_trans (by unfold held; omega) hL.held_le

/-- A counter reading of zero means an empty queue and nothing unreleased. -/
lemma Ledger.empty_of_size_eq_zero (hL : Ledger P s) (hsize : s.sh.size = 0) :
    s.sh.spans = [] ∧ s.worker.unreleased = 0 := by
  have := hL.size_eq
  unfold held at this
  refine ⟨List.length_eq_zero_iff.mp ?_, ?_⟩ <;> omega

/-- A withdrawal takes one off the counter, and finds the caller's own reservation in it. -/
lemma Ledger.one_le_size {p : OnEndPc α} (hL : Ledger P s) (hpc : s.pc t = .onEnd p)
    (hp : CallerPc.slots (.onEnd p) + CallerPc.phantoms (.onEnd p) = 1) : 1 ≤ s.sh.size := by
  have hslots := le_poolSum CallerPc.slots s.pc t
  have hphantoms := le_poolSum CallerPc.phantoms s.pc t
  rw [hpc] at hslots hphantoms
  have := hL.size_eq
  unfold held at this
  omega

variable [DecidableEq ι] [DecidableEq α]

/-- `onEnd` keeps the ledger: it moves one place between the counter, its own reservation and the
queue, and it takes a place as a held one only below the capacity. -/
lemma Ledger.onEnd {a : OnEndAct α} (hL : Ledger P s) (hs : step P s (.onEnd t a) = some s') :
    Ledger P s' := by
  obtain ⟨hpc, hg, rfl⟩ := step_onEnd_iff.mp hs
  have hslots := poolSum_update CallerPc.slots s.pc t (onEndCommand P t a).target
  have hphantoms := poolSum_update CallerPc.phantoms s.pc t (onEndCommand P t a).target
  rw [hpc] at hslots hphantoms
  obtain ⟨hsize, hle⟩ := hL
  unfold held at hsize hle
  clear hs hpc
  refine ⟨?_, ?_⟩ <;> unfold held
  all_goals
    rcases a with _ | _ | _ | _ | _ | ⟨_, _, _ | _⟩ | _ | _ | _ | _ <;>
    simp only [onEndCommand, beq_iff_eq, id] at hg hslots hphantoms ⊢ <;>
    (try split_ifs at hslots hphantoms ⊢) <;>
    simp only [CallerPc.slots, CallerPc.phantoms, List.length_append, List.length_singleton]
      at hslots hphantoms ⊢
  -- the withdrawals, which take off the counter what the caller holds in it
  all_goals try rw [fetchSub_of_le (by omega)]
  all_goals omega

/-- `forceFlush` keeps the ledger. -/
lemma Ledger.forceFlush {a : ForceFlushAct} (hL : Ledger P s)
    (hs : step P s (.forceFlush t a) = some s') : Ledger P s' := by
  have hf := forceFlush_frame hs
  have hslots := poolSum_forceFlush (w := CallerPc.slots) hs rfl fun _ => rfl
  have hphantoms := poolSum_forceFlush (w := CallerPc.phantoms) hs rfl fun _ => rfl
  have hheld : held s' = held s := by rw [held, held, hf.spans, hslots, hf.worker]
  exact ⟨by rw [hf.size, hheld, hphantoms, hL.size_eq], by rw [hheld]; exact hL.held_le⟩

/-- `shutdown` keeps the ledger. -/
lemma Ledger.shutdown {a : ShutdownAct} (hL : Ledger P s)
    (hs : step P s (.shutdown t a) = some s') : Ledger P s' := by
  have hf := shutdown_frame hs
  have hslots := poolSum_shutdown (w := CallerPc.slots) hs rfl fun _ => rfl
  have hphantoms := poolSum_shutdown (w := CallerPc.phantoms) hs rfl fun _ => rfl
  have hheld : held s' = held s := by rw [held, held, hf.spans, hslots, hf.worker]
  exact ⟨by rw [hf.size, hheld, hphantoms, hL.size_eq], by rw [hheld]; exact hL.held_le⟩

/-- The worker keeps the ledger: a pop moves spans from the queue to the unreleased ones, and a
release takes these off the counter. -/
lemma Ledger.worker {a : WorkerAct ι α} (hL : Ledger P s)
    (hs : step P s (.worker a) = some s') : Ledger P s' := by
  have hf := worker_frame hs
  obtain ⟨hsize, hle⟩ := hL
  unfold held at hsize hle
  by_cases hbatch : ∃ site batch, a = .popBatch site batch
  · obtain ⟨site, batch, rfl⟩ := hbatch
    obtain ⟨hw, hw', hsize', -, -, hpop⟩ := step_popBatch hs
    have hlen := ProducerQueue.dequeueBulk_length hpop
    simp only [hw, WorkerPc.unreleased] at hsize hle
    refine ⟨?_, ?_⟩ <;> simp only [held, hf.pc, hw', WorkerPc.unreleased, hsize'] <;> omega
  by_cases hrelease : ∃ site batch, a = .popRelease site batch
  · obtain ⟨site, batch, rfl⟩ := hrelease
    obtain ⟨hw, hsize', hspans, hw'⟩ := step_popRelease hs
    have hunreleased : s'.worker.unreleased = 0 := by
      rw [hw']
      split_ifs
      · rfl
      · exact WorkerPc.unreleased_eq_zero (holdsBatch_afterExport _ _)
    simp only [hw, WorkerPc.unreleased] at hsize hle
    rw [fetchSub_of_le (by omega)] at hsize'
    refine ⟨?_, ?_⟩ <;> simp only [held, hf.pc, hspans, hunreleased, hsize'] <;> omega
  · obtain ⟨hsize', hspans, hunreleased⟩ := worker_ledger_frame hs
      (fun site batch ha => hbatch ⟨site, batch, ha⟩)
      fun site batch ha => hrelease ⟨site, batch, ha⟩
    refine ⟨?_, ?_⟩ <;> simp only [held, hf.pc, hspans, hunreleased, hsize'] <;> assumption

/-- The ledger balances in every reachable state. -/
theorem ledger_of_run (hr : (system ι P).Run h s) : Ledger P s := by
  induction hr using run_induction with
  | nil => exact ledger_initial
  | onEnd h s s' t a hr hs ih => exact ih.onEnd hs
  | forceFlush h s s' t a hr hs ih => exact ih.forceFlush hs
  | shutdown h s s' t a hr hs ih => exact ih.shutdown hs
  | worker h s s' a hr hs ih => exact ih.worker hs
  | tick h s s' now hr hs ih =>
    obtain ⟨-, rfl⟩ := step_tick_iff.mp hs
    exact ⟨ih.size_eq, ih.held_le⟩

/-- What a step takes off the size counter. -/
def sizeDecrement : Act ι α → ℕ
  | .onEnd _ (.fullSub _) | .onEnd _ (.closedSub _) | .onEnd _ (.failedSub _) => 1
  | .worker (.popRelease _ batch) => batch.length
  | _ => 0

/-- The size counter never wraps below zero: no step takes more off it than it holds. -/
theorem Ledger.sizeDecrement_le {a : Act ι α} (hL : Ledger P s)
    (hs : step P s a = some s') : sizeDecrement a ≤ s.sh.size := by
  cases a with
  | onEnd t a =>
    have hpc := (step_onEnd_iff.mp hs).1
    cases a with
    | fullSub span => exact hL.one_le_size hpc rfl
    | closedSub span => exact hL.one_le_size hpc rfl
    | failedSub span => exact hL.one_le_size hpc rfl
    | _ => exact Nat.zero_le _
  | worker a =>
    cases a with
    | popRelease site batch =>
      have hw := (step_popRelease hs).1
      have := hL.size_eq
      simp only [held, hw, WorkerPc.unreleased] at this
      simp only [sizeDecrement]
      omega
    | _ => exact Nat.zero_le _
  | _ => exact Nat.zero_le _

end GalayTracing
