import GalayTracing.Foundation.Lts
import GalayTracing.Foundation.SnapshotStore
import GalayTracing.Foundation.ThreadPool
import Mathlib.Data.Fintype.Basic

/-!
# The default logger and the default writer

`setDefaultLogger` stores the logger and then publishes a writer for it, in two variables.  The
stores of two calls may cross, and then the variables designate different loggers although no call
is in progress.  As long as no store of the writer is the last word of a call that has been
overtaken, the two views agree whenever nobody is in between.

A null pointer stands for the built-in logger in both variables.
-/

namespace GalayTracing

namespace DefaultLogger

variable {ι Logger : Type}

/-- The variables of the default logger. -/
structure Globals (Logger : Type) where
  /-- `g_defaultLogger`; `none` is the null pointer. -/
  defaultLogger : Option Logger := none
  /-- `g_defaultWriterSnapshots`: the logger of each writer, with the address of the snapshot. -/
  writerSnapshots : SnapshotStore Logger := []
  /-- `g_defaultLogWriterPtr`; `none` is the null pointer. -/
  logWriterPtr : Option ℕ := none

/-- The program points of a thread that calls `setDefaultLogger`. -/
inductive Pc (Logger : Type)
  /-- Outside. -/
  | idle
  /-- `g_defaultWriterSnapshots.push_back` under the mutex. -/
  | append (logger : Logger)
  /-- `g_defaultLogWriterPtr.store` of the new snapshot. -/
  | storeWriter (logger : Logger) (address : ℕ)
  /-- `g_defaultLogWriterPtr.store(nullptr)`. -/
  | storeNull
  deriving DecidableEq

/-- The atomic operations of `setDefaultLogger`. -/
inductive SetAct (Logger : Type)
  /-- `g_defaultLogger.store(logger)`, the first operation of the call. -/
  | storeLogger (logger : Option Logger)
  /-- `g_defaultWriterSnapshots.push_back`; the snapshot gets the given address. -/
  | append (logger : Logger) (address : ℕ)
  /-- `g_defaultLogWriterPtr.store` of the new snapshot; the call returns. -/
  | storeWriter (logger : Logger) (address : ℕ)
  /-- `g_defaultLogWriterPtr.store(nullptr)`; the call returns. -/
  | storeNull
  deriving DecidableEq

/-- The operations of `setDefaultLogger`. -/
def setCommand : SetAct Logger → Command (Globals Logger) (Pc Logger)
  | .storeLogger logger =>
    { source := .idle
      guard := fun _ => true
      update := fun sh => { sh with defaultLogger := logger }
      target := match logger with
        | some logger => .append logger
        | none => .storeNull }
  | .append logger address =>
    { source := .append logger
      guard := fun sh => sh.writerSnapshots.isFree address
      update := fun sh => { sh with writerSnapshots := sh.writerSnapshots.push address logger }
      target := .storeWriter logger address }
  | .storeWriter logger address =>
    { source := .storeWriter logger address
      guard := fun _ => true
      update := fun sh => { sh with logWriterPtr := some address }
      target := .idle }
  | .storeNull =>
    { source := .storeNull
      guard := fun _ => true
      update := fun sh => { sh with logWriterPtr := none }
      target := .idle }

/-- One step: thread `t` performs an operation. -/
structure Act (ι Logger : Type) where
  /-- The thread. -/
  t : ι
  /-- Its operation. -/
  op : SetAct Logger
  deriving DecidableEq

/-- The states of the default logger with threads `ι`; it has no thread of its own. -/
abbrev State (ι Logger : Type) := Pool ι (Globals Logger) (Pc Logger) Unit

variable [DecidableEq ι] [DecidableEq Logger]

/-- The default logger when the program starts, used by the threads `ι`. -/
def setters (ι Logger : Type) [DecidableEq ι] [DecidableEq Logger] :
    Lts (State ι Logger) (Act ι Logger) where
  init := { sh := {}, pc := fun _ => .idle, worker := () }
  step s a := s.threadStep a.t (setCommand a.op)

/-! ### The two views -/

/-- `defaultLogger()`: the logger that was stored, or the built-in one. -/
def Globals.logger (builtIn : Logger) (sh : Globals Logger) : Logger :=
  sh.defaultLogger.getD builtIn

/-- The logger of the writer that `detail::defaultLogWriterPtr()` returns; `none` if the pointer is
dangling. -/
def Globals.writer (builtIn : Logger) (sh : Globals Logger) : Option Logger :=
  match sh.logWriterPtr with
  | some address => sh.writerSnapshots.read address
  | none => some builtIn

/-- The two views designate the same logger. -/
def Agree (builtIn : Logger) (s : State ι Logger) : Prop :=
  s.sh.writer builtIn = some (s.sh.logger builtIn)

/-- No call of `setDefaultLogger` is in progress. -/
def Quiescent (s : State ι Logger) : Prop := ∀ t, s.pc t = .idle

instance [Fintype ι] (s : State ι Logger) : Decidable (Quiescent s) :=
  inferInstanceAs (Decidable (∀ t, s.pc t = .idle))

/-- The logger whose writer is about to be stored. -/
def Pc.carries (builtIn : Logger) : Pc Logger → Option Logger
  | .idle => none
  | .append logger => some logger
  | .storeWriter logger _ => some logger
  | .storeNull => some builtIn

/-- Some other call in progress is about to store the writer of the current default logger. -/
def Corrected (builtIn : Logger) (s : State ι Logger) (t : ι) : Prop :=
  ∃ t', t' ≠ t ∧ (s.pc t').carries builtIn = some (s.sh.logger builtIn)

instance [Fintype ι] (builtIn : Logger) (s : State ι Logger) (t : ι) :
    Decidable (Corrected builtIn s t) :=
  inferInstanceAs
    (Decidable (∃ t', t' ≠ t ∧ (s.pc t').carries builtIn = some (s.sh.logger builtIn)))

/-- The condition under which the views agree: a call that stores the writer of a logger either
finds that logger to be the default one still, or another call in progress is about to store the
writer of the one that is. -/
def notOvertaken [Fintype ι] (builtIn : Logger) (s : State ι Logger) (a : Act ι Logger) : Bool :=
  match a.op with
  | .storeWriter logger _ => decide (s.sh.logger builtIn = logger ∨ Corrected builtIn s a.t)
  | .storeNull => decide (s.sh.logger builtIn = builtIn ∨ Corrected builtIn s a.t)
  | _ => true

/-! ### The invariant -/

/-- A writer that is about to be stored is owned, and the views agree or some call in progress is
about to make them agree. -/
structure Tracked (builtIn : Logger) (s : State ι Logger) : Prop where
  owned : ∀ t logger address, s.pc t = .storeWriter logger address →
    s.sh.writerSnapshots.read address = some logger
  agree : Agree builtIn s ∨ ∃ t, (s.pc t).carries builtIn = some (s.sh.logger builtIn)

variable {builtIn : Logger} {h : List (Act ι Logger)} {a : Act ι Logger} {s s' : State ι Logger}
  {t : ι}

/-- When a step is enabled, and what it leads to. -/
lemma step_iff : (setters ι Logger).step s a = some s' ↔
    s.pc a.t = (setCommand a.op).source ∧ (setCommand a.op).guard s.sh = true ∧
      s' = { s with
        sh := (setCommand a.op).update s.sh
        pc := Function.update s.pc a.t (setCommand a.op).target } :=
  Pool.threadStep_eq_some

/-- Writers are never released: what is found at an address stays there. -/
lemma read_step {address : ℕ} {logger : Logger}
    (hread : s.sh.writerSnapshots.read address = some logger)
    (hs : (setters ι Logger).step s a = some s') :
    s'.sh.writerSnapshots.read address = some logger := by
  obtain ⟨-, -, rfl⟩ := step_iff.mp hs
  match a with
  | ⟨_, .append _ _⟩ => exact SnapshotStore.read_push_of_read hread
  | ⟨_, .storeLogger _⟩ | ⟨_, .storeWriter _ _⟩ | ⟨_, .storeNull⟩ => exact hread

/-- A writer that is about to be stored is owned after every step. -/
lemma Tracked.owned_step (htracked : Tracked builtIn s)
    (hs : (setters ι Logger).step s a = some s') {logger : Logger} {address : ℕ}
    (hpc : s'.pc t = .storeWriter logger address) :
    s'.sh.writerSnapshots.read address = some logger := by
  by_cases ht : a.t = t
  · have htarget : (setCommand a.op).target = .storeWriter logger address := by
      rw [← Pool.threadStep_pc_self hs, ht, hpc]
    obtain ⟨-, hguard, rfl⟩ := step_iff.mp hs
    match a with
    | ⟨_, .append logger' address'⟩ =>
      obtain ⟨rfl, rfl⟩ := Pc.storeWriter.inj htarget
      exact SnapshotStore.read_push hguard
    | ⟨_, .storeLogger none⟩ | ⟨_, .storeLogger (some _)⟩ | ⟨_, .storeWriter _ _⟩
    | ⟨_, .storeNull⟩ => cases htarget
  · rw [Pool.threadStep_pc_of_ne ht hs] at hpc
    exact read_step (htracked.owned t logger address hpc) hs

/-- Another call that is about to make the views agree is so after the step. -/
lemma Corrected.step (hcorrected : Corrected builtIn s a.t)
    (hs : (setters ι Logger).step s a = some s')
    (hlogger : s'.sh.logger builtIn = s.sh.logger builtIn) :
    ∃ t, (s'.pc t).carries builtIn = some (s'.sh.logger builtIn) := by
  obtain ⟨t, ht, hcarries⟩ := hcorrected
  exact ⟨t, by rw [Pool.threadStep_pc_of_ne (Ne.symm ht) hs, hlogger, hcarries]⟩

/-- A step that meets the condition leaves the views in agreement or about to agree. -/
lemma Tracked.agree_step [Fintype ι] (htracked : Tracked builtIn s)
    (hs : (setters ι Logger).step s a = some s') (hc : notOvertaken builtIn s a = true) :
    Agree builtIn s' ∨ ∃ t, (s'.pc t).carries builtIn = some (s'.sh.logger builtIn) := by
  have htarget := Pool.threadStep_pc_self hs
  obtain ⟨hsource, hguard, hs'⟩ := step_iff.mp hs
  match a with
  | ⟨t, .storeLogger none⟩ =>
    -- The call has just stored a logger and will store its writer.
    exact Or.inr ⟨t, by rw [htarget, hs']; rfl⟩
  | ⟨t, .storeLogger (some logger)⟩ => exact Or.inr ⟨t, by rw [htarget, hs']; rfl⟩
  | ⟨t, .append logger address⟩ =>
    have hlogger : s'.sh.logger builtIn = s.sh.logger builtIn := by rw [hs']; rfl
    rcases htracked.agree with hagree | ⟨t', hcarries⟩
    · refine Or.inl ?_
      rw [Agree, hlogger, ← hagree, hs']
      cases hptr : s.sh.logWriterPtr with
      | none => simp [Globals.writer, setCommand, hptr]
      | some current =>
        have hread : s.sh.writerSnapshots.read current = some (s.sh.logger builtIn) := by
          rw [← hagree, Globals.writer, hptr]
        simp [Globals.writer, setCommand, hptr, hread, SnapshotStore.read_push_of_read hread]
    · refine Or.inr ⟨t', ?_⟩
      rw [hlogger, ← hcarries]
      by_cases ht : t = t'
      · subst ht
        rw [htarget, show s.pc t = .append logger from hsource]
        rfl
      · rw [Pool.threadStep_pc_of_ne ht hs]
  | ⟨t, .storeWriter logger address⟩ =>
    have hlogger : s'.sh.logger builtIn = s.sh.logger builtIn := by rw [hs']; rfl
    rcases of_decide_eq_true hc with hsame | hcorrected
    · refine Or.inl ?_
      rw [Agree, hlogger, hsame, hs']
      exact htracked.owned t logger address hsource
    · exact Or.inr (hcorrected.step hs hlogger)
  | ⟨t, .storeNull⟩ =>
    have hlogger : s'.sh.logger builtIn = s.sh.logger builtIn := by rw [hs']; rfl
    rcases of_decide_eq_true hc with hsame | hcorrected
    · refine Or.inl ?_
      rw [Agree, hlogger, hsame, hs']
      rfl
    · exact Or.inr (hcorrected.step hs hlogger)

/-- The views agree or are about to agree in every run whose steps meet the condition. -/
lemma tracked_of_run [Fintype ι] (hr : (setters ι Logger).Run h s)
    (hc : (setters ι Logger).StepsMeet (notOvertaken builtIn) h) : Tracked builtIn s := by
  induction hr, hc using Lts.run_induction_where with
  | nil _ =>
    refine ⟨fun t logger address hpc => ?_, Or.inl rfl⟩
    cases hpc
  | concat h a s s' _ hs _ hC ih =>
    exact ⟨fun t logger address hpc => ih.owned_step hs hpc, ih.agree_step hs hC⟩

/-- A call that has stored the writer of another logger than the default one leaves the views in
disagreement, and unless another call corrects them, none in progress is going to. -/
lemma disagree_of_stored (hs : (setters ι Logger).step s a = some s') {logger : Logger}
    (hwriter : s'.sh.writer builtIn = some logger) (hne : s.sh.logger builtIn ≠ logger)
    (hlogger : s'.sh.logger builtIn = s.sh.logger builtIn) (hidle : s'.pc a.t = .idle)
    (hcorrected : ¬Corrected builtIn s a.t) :
    ¬Agree builtIn s' ∧ ∀ t, (s'.pc t).carries builtIn ≠ some (s'.sh.logger builtIn) := by
  refine ⟨fun hagree => ?_, fun t hcarries => ?_⟩
  · rw [Agree, hwriter, hlogger] at hagree
    exact hne (Option.some_inj.mp hagree).symm
  · by_cases ht : a.t = t
    · rw [← ht, hidle] at hcarries
      cases hcarries
    · rw [Pool.threadStep_pc_of_ne ht hs, hlogger] at hcarries
      exact hcorrected ⟨t, Ne.symm ht, hcarries⟩

/-- After a step that does not meet the condition the views disagree, and no call in progress is
about to make them agree; only a later one can. -/
theorem disagree_of_overtaken [Fintype ι] (htracked : Tracked builtIn s)
    (hs : (setters ι Logger).step s a = some s') (hc : notOvertaken builtIn s a = false) :
    ¬Agree builtIn s' ∧ ∀ t, (s'.pc t).carries builtIn ≠ some (s'.sh.logger builtIn) := by
  have htarget := Pool.threadStep_pc_self hs
  obtain ⟨hsource, -, hs'⟩ := step_iff.mp hs
  match a with
  | ⟨t, .storeLogger _⟩ | ⟨t, .append _ _⟩ => cases hc
  | ⟨t, .storeWriter logger address⟩ =>
    obtain ⟨hne, hcorrected⟩ := not_or.mp (of_decide_eq_false hc)
    refine disagree_of_stored hs ?_ hne (by rw [hs']; rfl) htarget hcorrected
    rw [hs']
    exact htracked.owned t logger address hsource
  | ⟨t, .storeNull⟩ =>
    obtain ⟨hne, hcorrected⟩ := not_or.mp (of_decide_eq_false hc)
    exact disagree_of_stored hs (by rw [hs']; rfl) hne (by rw [hs']; rfl) htarget
      hcorrected

/-- In every run in which no call that has been overtaken stores its writer last, the default logger
and the default writer designate the same logger whenever no call is in progress. -/
theorem agree_of_run [Fintype ι] (builtIn : Logger) (hr : (setters ι Logger).Run h s)
    (hc : (setters ι Logger).StepsMeet (notOvertaken builtIn) h) (hq : Quiescent s) :
    Agree builtIn s := by
  rcases (tracked_of_run hr hc).agree with hagree | ⟨t, hcarries⟩
  · exact hagree
  · rw [hq t] at hcarries
    cases hcarries

/-- Two calls overlap, and the one that began first returns first. -/
theorem agree_of_overlapping_calls :
    ∃ s : State (Fin 2) ℕ, (setters (Fin 2) ℕ).Run
        [⟨0, .storeLogger (some 1)⟩, ⟨1, .storeLogger (some 2)⟩, ⟨0, .append 1 0⟩,
          ⟨0, .storeWriter 1 0⟩, ⟨1, .append 2 1⟩, ⟨1, .storeWriter 2 1⟩] s ∧ Agree 0 s := by
  obtain ⟨s, hr, hq⟩ := Lts.exists_run_of_any (L := setters (Fin 2) ℕ)
    (h := [⟨0, .storeLogger (some 1)⟩, ⟨1, .storeLogger (some 2)⟩, ⟨0, .append 1 0⟩,
      ⟨0, .storeWriter 1 0⟩, ⟨1, .append 2 1⟩, ⟨1, .storeWriter 2 1⟩])
    (p := fun s => decide (Quiescent s)) (by decide)
  exact ⟨s, hr, agree_of_run 0 hr (by decide) (of_decide_eq_true hq)⟩

/-- Two calls cross: the second one returns before the first one stores its writer.  Afterwards the
default logger is that of the second call, and the writer is that of the first. -/
theorem crossing_calls_disagree :
    ¬∀ (h : List (Act (Fin 2) ℕ)) (s : State (Fin 2) ℕ), (setters (Fin 2) ℕ).Run h s →
      Quiescent s → Agree 0 s := by
  intro hall
  obtain ⟨s, hr, hp⟩ := Lts.exists_run_of_any (L := setters (Fin 2) ℕ)
    (h := [⟨0, .storeLogger (some 1)⟩, ⟨1, .storeLogger (some 2)⟩, ⟨1, .append 2 0⟩,
      ⟨1, .storeWriter 2 0⟩, ⟨0, .append 1 1⟩, ⟨0, .storeWriter 1 1⟩])
    (p := fun s => decide (Quiescent s) &&
      decide (s.sh.writer 0 ≠ some (s.sh.logger 0))) (by decide)
  obtain ⟨hq, hne⟩ := Bool.and_eq_true_iff.mp hp
  exact of_decide_eq_true hne (hall _ s hr (of_decide_eq_true hq))

end DefaultLogger

end GalayTracing
