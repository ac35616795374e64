import Mathlib.Tactic.Common

/-!
# Properly nested blocks

A program of statements and blocks over a state.  A block is entered, which yields a handle and a
new state, then its body runs, and then it is left through the handle.  The program is a tree, so
blocks are closed in the reverse order of their opening.

Some part of the state is observed.  The discipline `Scoped` asks that entering a block makes the
observation the one the block installs, and that leaving it, in any state with that observation,
brings back the observation from before.  The theorem `Scoped.holds_trace` then determines the
observation everywhere in a run: it is what the innermost enclosing block has installed.
-/

/-- How blocks of type `β` are entered and left, with a handle of type `η b` for a block `b`. -/
structure Scopes (σ : Type*) {β : Type*} (η : β → Type*) where
  /-- Entering a block: its handle, and the new state. -/
  enter : (b : β) → σ → η b × σ
  /-- Leaving a block through its handle. -/
  leave : (b : β) → η b → σ → σ

namespace Scopes

variable {σ β ℓ ω : Type*} {η : β → Type*}

/-- A program of statements of type `ℓ` and of properly nested blocks. -/
inductive Program (β ℓ : Type*)
  | done
  | statement (s : ℓ) (rest : Program β ℓ)
  | block (b : β) (body rest : Program β ℓ)

/-- The run of a program, with the states in which its parts were executed. -/
inductive Trace (σ : Type*) {β : Type*} (η : β → Type*) (ℓ : Type*)
  | done
  | statement (s : ℓ) (state : σ) (rest : Trace σ η ℓ)
  | block (b : β) (before : σ) (handle : η b) (body : Trace σ η ℓ) (after : σ)
    (rest : Trace σ η ℓ)

variable (S : Scopes σ η)

/-- The state after a program; statements do not change it. -/
def final : Program β ℓ → σ → σ
  | .done, state => state
  | .statement _ rest, state => final rest state
  | .block b body rest, state =>
    let entered := S.enter b state
    final rest (S.leave b entered.1 (final body entered.2))

/-- The run of a program from a state. -/
def trace : Program β ℓ → σ → Trace σ η ℓ
  | .done, _ => .done
  | .statement s rest, state => .statement s state (trace rest state)
  | .block b body rest, state =>
    let entered := S.enter b state
    let left := S.leave b entered.1 (S.final body entered.2)
    .block b state entered.1 (trace body entered.2) left (trace rest left)

/-- Blocks install an observation and bring the old one back. -/
structure Scoped (observe : σ → ω) (installs : (b : β) → η b → ω) : Prop where
  /-- Entering a block installs its observation. -/
  observe_enter : ∀ b state, observe (S.enter b state).2 = installs b (S.enter b state).1
  /-- Leaving a block brings the old observation back. -/
  observe_leave : ∀ b state state', observe state' = observe (S.enter b state).2 →
    observe (S.leave b (S.enter b state).1 state') = observe state

variable {S} {observe : σ → ω} {installs : (b : β) → η b → ω}

/-- A program leaves the observation as it found it. -/
theorem Scoped.observe_final (hS : S.Scoped observe installs) (program : Program β ℓ) (state : σ) :
    observe (S.final program state) = observe state := by
  induction program generalizing state with
  | done => rfl
  | statement s rest ih => exact ih state
  | block b body rest ihBody ihRest =>
    have hleft := hS.observe_leave b state _ (ihBody (S.enter b state).2)
    exact (ihRest _).trans hleft

/-- `Holds installs x trace`: at every place of the run outside all blocks the observation is `x`,
and inside a block it is the one the innermost enclosing block has installed. -/
def Trace.Holds (observe : σ → ω) (installs : (b : β) → η b → ω) : ω → Trace σ η ℓ → Prop
  | _, .done => True
  | x, .statement _ state rest => observe state = x ∧ rest.Holds observe installs x
  | x, .block b before handle body after rest =>
    observe before = x ∧ body.Holds observe installs (installs b handle) ∧ observe after = x ∧
      rest.Holds observe installs x

/-- In the run of a program the observation is everywhere what the innermost enclosing block has
installed, or the initial one outside all blocks. -/
theorem Scoped.holds_trace (hS : S.Scoped observe installs) (program : Program β ℓ) (state : σ) :
    (S.trace program state).Holds observe installs (observe state) := by
  induction program generalizing state with
  | done => trivial
  | statement s rest ih => exact ⟨rfl, ih state⟩
  | block b body rest ihBody ihRest =>
    have hleft := hS.observe_leave b state _ (hS.observe_final body (S.enter b state).2)
    refine ⟨rfl, ?_, hleft, ?_⟩
    · rw [← hS.observe_enter]
      exact ihBody _
    · rw [← hleft]
      exact ihRest _

end Scopes
