import GalayTracing.Foundation.Lts
import GalayTracing.Foundation.SnapshotStore
import GalayTracing.Foundation.ThreadPool
import GalayTracing.Log.LogRecord
import Mathlib.Data.List.DropRight

/-!
# Reconfiguring a logger while it is used

`addSink` and `clearSinks` run under the mutex of the logger, one step each, and publish a new
snapshot of the list of sinks.  `publish` takes no lock: it loads the pointer to a snapshot once and
then writes to the sinks it finds there, one after the other, while the configuration may change any
number of times.

The abstract state is a plain list of sinks, `configured`, read off the history.  The snapshot the
pointer designates refines it, and as snapshots are never released a publish sees the list that was
configured when it loaded the pointer.
-/

namespace GalayTracing

namespace Logger

variable {ι σ : Type}

/-- The members of a `Logger` that hold its sinks. -/
structure Sinks (σ : Type) where
  /-- `m_sinkSnapshots`, each snapshot with its address. -/
  snapshots : SnapshotStore (List σ)
  /-- `m_sinkSnapshot`; `none` is the null pointer. -/
  snapshot : Option ℕ

/-- The program points of a thread that uses the logger. -/
inductive Pc
  /-- Outside the logger. -/
  | idle
  /-- `m_sinkSnapshot.load()` of `publish`. -/
  | load (record : LogRecord)
  /-- The loop of `publish` over the sinks of the snapshot at an address, from an index on. -/
  | loop (record : LogRecord) (address i : ℕ)
  deriving DecidableEq

/-- The atomic operations of a thread. -/
inductive LoggerAct (σ : Type)
  /-- A whole call of `addSink`; the sink may be null, and a new snapshot gets the given address. -/
  | addSink (sink : Option σ) (address : ℕ)
  /-- A whole call of `clearSinks`; the new snapshot gets the given address. -/
  | clearSinks (address : ℕ)
  /-- The call `publish(record)`. -/
  | publish (record : LogRecord)
  /-- `m_sinkSnapshot.load()` reads `address`; with the null pointer, the call returns. -/
  | load (record : LogRecord) (address : Option ℕ)
  /-- `sink->write(record)` of the sink at an index. -/
  | write (record : LogRecord) (address i : ℕ) (sink : σ)
  /-- The loop is over; the call returns. -/
  | ret (record : LogRecord) (address i : ℕ)
  deriving DecidableEq

/-- The sinks that `addSink` copies: those of the current snapshot, if there is one. -/
def Sinks.current (sh : Sinks σ) : List σ := (sh.snapshot.bind sh.snapshots.read).getD []

/-- A new snapshot is owned and becomes the current one. -/
def Sinks.push (sh : Sinks σ) (address : ℕ) (sinks : List σ) : Sinks σ where
  snapshots := sh.snapshots.push address sinks
  snapshot := some address

variable [DecidableEq σ]

/-- The operations of a thread.  A pointer is read where a snapshot is owned only. -/
def loggerCommand : LoggerAct σ → Command (Sinks σ) Pc
  | .addSink none _ =>
    { source := .idle
      guard := fun _ => true
      update := id
      target := .idle }
  | .addSink (some sink) address =>
    { source := .idle
      guard := fun sh => sh.snapshots.isFree address &&
        sh.snapshot.all fun current => (sh.snapshots.read current).isSome
      update := fun sh => sh.push address (sh.current ++ [sink])
      target := .idle }
  | .clearSinks address =>
    { source := .idle
      guard := fun sh => sh.snapshots.isFree address
      update := fun sh => sh.push address []
      target := .idle }
  | .publish record =>
    { source := .idle
      guard := fun _ => true
      update := id
      target := .load record }
  | .load record address =>
    { source := .load record
      guard := fun sh => sh.snapshot == address
      update := id
      target := match address with
        | some address => .loop record address 0
        | none => .idle }
  | .write record address i sink =>
    { source := .loop record address i
      guard := fun sh => (sh.snapshots.read address).any fun sinks => sinks[i]? == some sink
      update := id
      target := .loop record address (i + 1) }
  | .ret record address i =>
    { source := .loop record address i
      guard := fun sh => (sh.snapshots.read address).any fun sinks => decide (sinks.length ≤ i)
      update := id
      target := .idle }

/-- One step: thread `t` performs an operation. -/
structure Act (ι σ : Type) where
  /-- The thread. -/
  t : ι
  /-- Its operation. -/
  op : LoggerAct σ
  deriving DecidableEq

/-- The states of a logger with threads `ι`; it has no thread of its own. -/
abbrev State (ι σ : Type) := Pool ι (Sinks σ) Pc Unit

variable [DecidableEq ι]

/-- A logger after its constructor, which has published an empty snapshot at an address. -/
def logger (ι σ : Type) [DecidableEq ι] [DecidableEq σ] (address : ℕ) :
    Lts (State ι σ) (Act ι σ) where
  init :=
    { sh := { snapshots := [(address, [])], snapshot := some address }
      pc := fun _ => .idle
      worker := () }
  step s a := s.threadStep a.t (loggerCommand a.op)

/-! ### The abstract list of sinks -/

/-- The operation is a `clearSinks`. -/
def LoggerAct.isClear : LoggerAct σ → Bool
  | .clearSinks _ => true
  | _ => false

/-- The sink that an operation adds. -/
def LoggerAct.added : LoggerAct σ → Option σ
  | .addSink sink _ => sink
  | _ => none

/-- The sinks that were added since the last `clearSinks`, in order. -/
def configured (h : List (Act ι σ)) : List σ :=
  (h.rtakeWhile fun a => !a.op.isClear).filterMap fun a => a.op.added

/-- The record that an operation writes, with the sink. -/
def LoggerAct.wrote : LoggerAct σ → Option (LogRecord × σ)
  | .write record _ _ sink => some (record, sink)
  | _ => none

/-- What thread `t` has written, in order. -/
def written (t : ι) (h : List (Act ι σ)) : List (LogRecord × σ) :=
  h.filterMap fun a => if a.t = t then a.op.wrote else none

/-- The operation ends a call of `publish`. -/
def LoggerAct.Ends (op : LoggerAct σ) : Prop :=
  (∃ record, op = .load record none) ∨ ∃ record address i, op = .ret record address i

/-- The step ends a call of `publish` of thread `t`. -/
def Ends (t : ι) (a : Act ι σ) : Prop := a.t = t ∧ a.op.Ends

variable {first : ℕ} {h : List (Act ι σ)} {a : Act ι σ} {s s' : State ι σ} {t : ι}

omit [DecidableEq ι] [DecidableEq σ] in
/-- Clearing the sinks leaves none. -/
lemma configured_concat_of_clear (ha : a.op.isClear = true) : configured (h ++ [a]) = [] := by
  rw [configured, List.rtakeWhile_concat_neg]
  · rfl
  · simp [ha]

omit [DecidableEq ι] [DecidableEq σ] in
/-- Every other operation appends what it adds. -/
lemma configured_concat (ha : a.op.isClear = false) :
    configured (h ++ [a]) = configured h ++ a.op.added.toList := by
  rw [configured, List.rtakeWhile_concat_pos, List.filterMap_append, configured]
  · cases hadded : a.op.added with
    | none => simp [hadded]
    | some sink => simp [hadded]
  · simp [ha]

omit [DecidableEq ι] [DecidableEq σ] in
/-- An operation that adds no sink and clears none leaves the list alone. -/
lemma configured_concat_of_none (ha : a.op.isClear = false) (hnone : a.op.added = none) :
    configured (h ++ [a]) = configured h := by
  rw [configured_concat ha, hnone, Option.toList_none, List.append_nil]

/-! ### The snapshots refine the list -/

/-- When a step is enabled, and what it leads to. -/
lemma step_iff : (logger ι σ first).step s a = some s' ↔
    s.pc a.t = (loggerCommand a.op).source ∧ (loggerCommand a.op).guard s.sh = true ∧
      s' = { s with
        sh := (loggerCommand a.op).update s.sh
        pc := Function.update s.pc a.t (loggerCommand a.op).target } :=
  Pool.threadStep_eq_some

/-- The pointer designates an owned snapshot of the configured sinks. -/
def Current (h : List (Act ι σ)) (s : State ι σ) : Prop :=
  ∃ address, s.sh.snapshot = some address ∧ s.sh.snapshots.read address = some (configured h)

/-- Snapshots are never released: what is found at an address stays there. -/
lemma read_step {address : ℕ} {sinks : List σ} (hread : s.sh.snapshots.read address = some sinks)
    (hs : (logger ι σ first).step s a = some s') :
    s'.sh.snapshots.read address = some sinks := by
  obtain ⟨-, -, rfl⟩ := step_iff.mp hs
  match a with
  | ⟨_, .addSink (some sink) address'⟩ => exact SnapshotStore.read_push_of_read hread
  | ⟨_, .clearSinks address'⟩ => exact SnapshotStore.read_push_of_read hread
  | ⟨_, .addSink none _⟩ | ⟨_, .publish _⟩ | ⟨_, .load _ _⟩ | ⟨_, .write _ _ _ _⟩
  | ⟨_, .ret _ _ _⟩ => exact hread

/-- A step of the logger keeps the pointer up to date. -/
lemma Current.step (hcurrent : Current h s) (hs : (logger ι σ first).step s a = some s') :
    Current (h ++ [a]) s' := by
  obtain ⟨current, hsnapshot, hread⟩ := hcurrent
  obtain ⟨-, hguard, rfl⟩ := step_iff.mp hs
  match a with
  | ⟨_, .addSink (some sink) address⟩ =>
    have hcopy : s.sh.current = configured h := by
      rw [Sinks.current, hsnapshot, Option.bind_some, hread, Option.getD_some]
    have hfree := (Bool.and_eq_true_iff.mp hguard).1
    refine ⟨address, rfl, (SnapshotStore.read_push hfree).trans ?_⟩
    rw [hcopy, configured_concat rfl]
    rfl
  | ⟨_, .clearSinks address⟩ =>
    refine ⟨address, rfl, (SnapshotStore.read_push hguard).trans ?_⟩
    rw [configured_concat_of_clear rfl]
  | ⟨_, .addSink none _⟩ | ⟨_, .publish _⟩ | ⟨_, .load _ _⟩ | ⟨_, .write _ _ _ _⟩
  | ⟨_, .ret _ _ _⟩ =>
    refine ⟨current, hsnapshot, ?_⟩
    rw [configured_concat_of_none rfl rfl]
    exact hread

/-- The pointer designates the configured sinks in every reachable state. -/
lemma current_of_run (hr : (logger ι σ first).Run h s) : Current h s := by
  induction hr using Lts.run_induction with
  | nil => exact ⟨first, rfl, by simp [logger, SnapshotStore.read, configured]⟩
  | concat h a s s' _ hs ih => exact ih.step hs

/-! ### What a publish writes -/

/-- Every snapshot that a publish is using is owned. -/
def Owned (s : State ι σ) : Prop :=
  ∀ t record address i, s.pc t = .loop record address i →
    ∃ sinks, s.sh.snapshots.read address = some sinks

/-- A step of the logger keeps the snapshots that are in use owned. -/
lemma Owned.step (howned : Owned s) (hcurrent : Current h s)
    (hs : (logger ι σ first).step s a = some s') : Owned s' := by
  obtain ⟨current, hsnapshot, hread⟩ := hcurrent
  have hkept : ∀ address, (∃ sinks, s.sh.snapshots.read address = some sinks) →
      ∃ sinks, s'.sh.snapshots.read address = some sinks := by
    rintro address ⟨sinks, hsinks⟩
    exact ⟨sinks, read_step hsinks hs⟩
  intro t record address i hpc
  by_cases ht : a.t = t
  · obtain ⟨hsource, hguard, -⟩ := step_iff.mp hs
    have htarget : (loggerCommand a.op).target = .loop record address i :=
      (Pool.threadStep_pc_self hs).symm.trans (ht ▸ hpc)
    apply hkept
    match a with
    | ⟨_, .load record (some loaded)⟩ =>
      have hsame : s.sh.snapshot = some loaded := beq_iff_eq.mp hguard
      obtain ⟨rfl, rfl, rfl⟩ := Pc.loop.inj htarget
      obtain rfl := Option.some_inj.mp (hsnapshot.symm.trans hsame)
      exact ⟨_, hread⟩
    | ⟨_, .write record address' j sink⟩ =>
      obtain ⟨rfl, rfl, rfl⟩ := Pc.loop.inj htarget
      exact howned _ record address' j hsource
    | ⟨_, .addSink none _⟩ | ⟨_, .addSink (some _) _⟩ | ⟨_, .clearSinks _⟩ | ⟨_, .publish _⟩
    | ⟨_, .load _ none⟩ | ⟨_, .ret _ _ _⟩ => cases htarget
  · rw [Pool.threadStep_pc_of_ne ht hs] at hpc
    exact hkept address (howned t record address i hpc)

/-- The snapshots that are in use are owned in every reachable state. -/
lemma owned_of_run (hr : (logger ι σ first).Run h s) : Owned s := by
  induction hr using Lts.run_induction with
  | nil =>
    intro t record address i hpc
    cases hpc
  | concat h a s s' hr hs ih => exact ih.step (current_of_run hr) hs

/-- A publish of thread `t` that began after the history `h₀` and has seen the steps `h` since: it
has not loaded the pointer and has written nothing, or it has loaded it after some of the steps and
has written to the first of the sinks that were configured then. -/
def Publishing (t : ι) (record : LogRecord) (h₀ h : List (Act ι σ)) (s : State ι σ) : Prop :=
  (s.pc t = .load record ∧ written t h = []) ∨
  ∃ address i h', s.pc t = .loop record address i ∧ h' <+: h ∧
    s.sh.snapshots.read address = some (configured (h₀ ++ h')) ∧
    i ≤ (configured (h₀ ++ h')).length ∧
    written t h = ((configured (h₀ ++ h')).take i).map fun sink => (record, sink)

omit [DecidableEq σ] in
/-- A step of another thread writes nothing for this one. -/
lemma written_concat_of_ne (ht : a.t ≠ t) : written t (h ++ [a]) = written t h := by
  simp [written, ht]

omit [DecidableEq σ] in
/-- A step of the thread adds what it writes. -/
lemma written_concat_of_eq (ht : a.t = t) :
    written t (h ++ [a]) = written t h ++ a.op.wrote.toList := by
  cases hwrote : a.op.wrote <;> simp [written, ht, hwrote]

/-- A publish goes on as long as it does not end: steps of other threads do not touch it, and its
own steps load the pointer once and write to one sink after the other. -/
lemma Publishing.step {record : LogRecord} {h₀ : List (Act ι σ)}
    (hpublishing : Publishing t record h₀ h s) (hcurrent : Current (h₀ ++ h) s)
    (hs : (logger ι σ first).step s a = some s') (hends : ¬Ends t a) :
    Publishing t record h₀ (h ++ [a]) s' := by
  by_cases ht : a.t = t
  · obtain ⟨hsource, hguard, -⟩ := step_iff.mp hs
    have htarget := Pool.threadStep_pc_self hs
    rw [ht] at hsource htarget
    rcases hpublishing with ⟨hpc, hnone⟩ | ⟨address, i, h', hpc, hprefix, hread, hi, hwritten⟩
    · -- The pointer is loaded, and what it designates is what is configured now.
      obtain ⟨current, hsnapshot, hread⟩ := hcurrent
      rw [hpc] at hsource
      match a with
      | ⟨_, .load record' none⟩ => exact absurd ⟨ht, Or.inl ⟨record', rfl⟩⟩ hends
      | ⟨_, .load record' (some loaded)⟩ =>
        obtain rfl := Pc.load.inj hsource
        have hsame : s.sh.snapshot = some loaded := beq_iff_eq.mp hguard
        obtain rfl := Option.some_inj.mp (hsnapshot.symm.trans hsame)
        refine Or.inr ⟨current, 0, h, htarget, List.prefix_append h _, read_step hread hs,
          Nat.zero_le _, ?_⟩
        rw [written_concat_of_eq ht, hnone]
        rfl
      | ⟨_, .addSink none _⟩ | ⟨_, .addSink (some _) _⟩ | ⟨_, .clearSinks _⟩ | ⟨_, .publish _⟩
      | ⟨_, .write _ _ _ _⟩ | ⟨_, .ret _ _ _⟩ => cases hsource
    · rw [hpc] at hsource
      match a with
      | ⟨_, .write record' address' j sink⟩ =>
        obtain ⟨rfl, rfl, rfl⟩ := Pc.loop.inj hsource
        have hsink : (configured (h₀ ++ h'))[i]? = some sink := by
          have hany : ((s.sh.snapshots.read address).any fun sinks =>
              sinks[i]? == some sink) = true := hguard
          rw [hread, Option.any_some] at hany
          exact beq_iff_eq.mp hany
        obtain ⟨hlt, -⟩ := List.getElem?_eq_some_iff.mp hsink
        refine Or.inr ⟨address, i + 1, h', htarget, hprefix.trans (List.prefix_append h _),
          read_step hread hs, hlt, ?_⟩
        rw [written_concat_of_eq ht, hwritten, List.take_add_one, hsink, List.map_append]
        rfl
      | ⟨_, .ret record' address' j⟩ =>
        exact absurd ⟨ht, Or.inr ⟨record', address', j, rfl⟩⟩ hends
      | ⟨_, .addSink none _⟩ | ⟨_, .addSink (some _) _⟩ | ⟨_, .clearSinks _⟩ | ⟨_, .publish _⟩
      | ⟨_, .load _ _⟩ => cases hsource
  · rw [Publishing, Pool.threadStep_pc_of_ne ht hs, written_concat_of_ne ht]
    rcases hpublishing with hload | ⟨address, i, h', hpc, hprefix, hread, hi, hwritten⟩
    · exact Or.inl hload
    · exact Or.inr ⟨address, i, h', hpc, hprefix.trans (List.prefix_append h _),
        read_step hread hs, hi, hwritten⟩

/-- A publish that has not ended is on its way. -/
lemma publishing_of_run {record : LogRecord} {h₀ : List (Act ι σ)}
    (hr : (logger ι σ first).Run ((h₀ ++ [⟨t, .publish record⟩]) ++ h) s)
    (hends : ∀ a ∈ h, ¬Ends t a) :
    Publishing t record (h₀ ++ [⟨t, .publish record⟩]) h s := by
  induction hr using Lts.run_induction_from with
  | nil s hr =>
    rw [List.append_nil] at hr
    obtain ⟨s₀, -, hs⟩ := (logger ι σ first).run_concat_iff.mp hr
    exact Or.inl ⟨Pool.threadStep_pc_self hs, rfl⟩
  | concat h a s s' hr hs ih =>
    have hbefore : ∀ b ∈ h, ¬Ends t b := fun b hb => hends b (List.mem_append_left _ hb)
    exact (ih hbefore).step (current_of_run hr) hs (hends a (by simp))

/-- A publish that ends has written to all of the sinks that were configured when it loaded the
pointer. -/
lemma Publishing.ends {record : LogRecord} {h₀ : List (Act ι σ)}
    (hpublishing : Publishing t record h₀ h s) (hcurrent : Current (h₀ ++ h) s)
    (hs : (logger ι σ first).step s a = some s') (hends : Ends t a) :
    ∃ h', h' <+: h ∧
      written t (h ++ [a]) = (configured (h₀ ++ h')).map fun sink => (record, sink) := by
  obtain ⟨ht, hop⟩ := hends
  obtain ⟨hsource, hguard, -⟩ := step_iff.mp hs
  rw [ht] at hsource
  rw [written_concat_of_eq ht]
  rcases hop with ⟨record', hop⟩ | ⟨record', address', j, hop⟩
  · -- The pointer is never null.
    obtain ⟨current, hsnapshot, -⟩ := hcurrent
    rw [hop] at hguard
    have hnull : s.sh.snapshot = none := beq_iff_eq.mp hguard
    rw [hsnapshot] at hnull
    cases hnull
  · rw [hop] at hsource hguard ⊢
    rcases hpublishing with ⟨hpc, -⟩ | ⟨address, i, h', hpc, hprefix, hread, hi, hwritten⟩
    · rw [hpc] at hsource
      cases hsource
    · rw [hpc] at hsource
      obtain ⟨rfl, rfl, rfl⟩ := Pc.loop.inj hsource
      have hany : ((s.sh.snapshots.read address).any fun sinks =>
          decide (sinks.length ≤ i)) = true := hguard
      rw [hread, Option.any_some] at hany
      refine ⟨h', hprefix, ?_⟩
      rw [hwritten, List.take_of_length_le (of_decide_eq_true hany)]
      exact List.append_nil _

/-- Reconfiguring a logger while it is used loses and duplicates nothing.  In every reachable state
the current sinks are the non-null ones added since the last `clearSinks`, in order, and every
snapshot in use is owned; and a publish writes its record once, in order, to each of the sinks that
were configured at some moment while it ran, and to no other. -/
theorem publish_writes_once (ι σ : Type) [DecidableEq ι] [DecidableEq σ] (first : ℕ)
    (h : List (Act ι σ)) (s : State ι σ) (hr : (logger ι σ first).Run h s) :
    (∃ address, s.sh.snapshot = some address ∧ (address, configured h) ∈ s.sh.snapshots) ∧
    s.sh.current = configured h ∧
    (∀ t record address i, s.pc t = .loop record address i →
      ∃ sinks, (address, sinks) ∈ s.sh.snapshots) ∧
    (∀ h₀ t record h₁, h = (h₀ ++ [⟨t, .publish record⟩]) ++ h₁ → (∀ b ∈ h₁, ¬Ends t b) →
      ∃ h', h' <+: h₁ ∧ written t h₁ <+:
        (configured ((h₀ ++ [⟨t, .publish record⟩]) ++ h')).map fun sink => (record, sink)) ∧
    ∀ h₀ t record h₁ a, h = (h₀ ++ [⟨t, .publish record⟩]) ++ (h₁ ++ [a]) →
      (∀ b ∈ h₁, ¬Ends t b) → Ends t a →
      ∃ h', h' <+: h₁ ∧ written t (h₁ ++ [a]) =
        (configured ((h₀ ++ [⟨t, .publish record⟩]) ++ h')).map fun sink => (record, sink) := by
  obtain ⟨current, hsnapshot, hread⟩ := current_of_run hr
  refine ⟨⟨current, hsnapshot, SnapshotStore.mem_of_read hread⟩, ?_, ?_, ?_, ?_⟩
  · rw [Sinks.current, hsnapshot, Option.bind_some, hread, Option.getD_some]
  · intro t record address i hpc
    obtain ⟨sinks, hsinks⟩ := owned_of_run hr t record address i hpc
    exact ⟨sinks, SnapshotStore.mem_of_read hsinks⟩
  · rintro h₀ t record h₁ rfl hends
    rcases publishing_of_run hr hends with ⟨-, hnone⟩ | ⟨_, i, h', -, hprefix, -, -, hwritten⟩
    · exact ⟨h₁, List.prefix_rfl, by rw [hnone]; exact List.nil_prefix⟩
    · exact ⟨h', hprefix, by rw [hwritten]; exact (List.take_prefix i _).map _⟩
  · rintro h₀ t record h₁ a rfl hbefore hends
    rw [← List.append_assoc] at hr
    obtain ⟨s₀, hr₀, hs⟩ := (logger ι σ first).run_concat_iff.mp hr
    exact (publishing_of_run hr₀ hbefore).ends (current_of_run hr₀) hs hends

/-- The sinks are cleared while a record is written to them. -/
theorem publish_writes_once_while_clearing :
    let record : LogRecord := { message := [], source := {}, context := none, timestamp := 0 }
    let h₀ : List (Act (Fin 2) ℕ) := [⟨0, .addSink (some 7) 1⟩, ⟨0, .addSink (some 8) 2⟩]
    let h₁ : List (Act (Fin 2) ℕ) := [⟨0, .load record (some 2)⟩, ⟨0, .write record 2 0 7⟩,
      ⟨1, .clearSinks 3⟩, ⟨0, .write record 2 1 8⟩]
    ∃ h', h' <+: h₁ ∧ written 0 (h₁ ++ [⟨0, .ret record 2 2⟩]) =
      (configured ((h₀ ++ [⟨0, .publish record⟩]) ++ h')).map fun sink => (record, sink) := by
  intro record h₀ h₁
  obtain ⟨s, hr, -⟩ : ∃ s, (logger (Fin 2) ℕ 0).Run
      ((h₀ ++ [⟨0, .publish record⟩]) ++ (h₁ ++ [⟨0, .ret record 2 2⟩])) s ∧ true = true :=
    Lts.exists_run_of_any (p := fun _ => true) (by decide)
  have hbefore : ∀ b ∈ h₁, ¬Ends 0 b := by
    simp [h₁, Ends, LoggerAct.Ends]
  exact (publish_writes_once (Fin 2) ℕ 0 _ s hr).2.2.2.2 h₀ 0 record h₁ ⟨0, .ret record 2 2⟩ rfl
    hbefore ⟨rfl, Or.inr ⟨record, 2, 2, rfl⟩⟩

end Logger

end GalayTracing
