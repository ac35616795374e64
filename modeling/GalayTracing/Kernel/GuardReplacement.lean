import GalayTracing.Kernel.Continuation
import GalayTracing.Kernel.NestedScopes

/-!
# Replacing a live guard

A guard that is active receives new spans by move assignment, with nested blocks in between.  The
new span is started before `operator=` restores the old guard, so what the assignment makes current
is the context the old guard has saved, not the one of the new span; and the new guard has saved the
context of the old span.  From then on the two contexts change places with every assignment
(`replace_spec`).

The property one expects of a guard therefore holds only when the context of every new span happens
to be the one that the assignment brings back, the span identifier included.  With fresh span
identifiers it never holds.
-/

namespace GalayTracing

/-- A replacement: nested blocks, then `guard = start` at some time. -/
structure Replacement where
  inner : ThreadProgram
  start : Start
  finish : ℤ

/-- A move assignment from a start: the temporary guard is destroyed at its end. -/
def SpanGuard.replace (guard : SpanGuard) (step : Replacement) (state : CurrentContextState) :
    SpanGuard × CurrentContextState :=
  let state := threadScopes.final step.inner state
  let (other, state) := step.start.run state
  let (guard, other, state) := guard.moveAssign other step.finish state
  (guard, (other.destroy step.finish state).2)

/-- The guard and the state of the thread after a sequence of replacements. -/
def SpanGuard.replaceAll (guard : SpanGuard) (state : CurrentContextState) :
    List Replacement → SpanGuard × CurrentContextState
  | [] => (guard, state)
  | step :: steps =>
    let next := guard.replace step state
    next.1.replaceAll next.2 steps

/-- After each of the replacements the current context is that of the span now held. -/
def CurrentAfterEach (guard : SpanGuard) (state : CurrentContextState) : List Replacement → Prop
  | [] => True
  | step :: steps =>
    let next := guard.replace step state
    currentContext next.2 = some next.1.span.context ∧ CurrentAfterEach next.1 next.2 steps

/-- A guard is started, replaced, and destroyed after some more nested blocks.  The context is kept
right if it is that of the span held after each replacement, and the one from before the first span
at the end. -/
def ReplacementsKeepContext (first : Start) (steps : List Replacement) (last : ThreadProgram)
    (finish : ℤ) (state : CurrentContextState) : Prop :=
  let started := first.run state
  let replaced := started.1.replaceAll started.2 steps
  CurrentAfterEach started.1 started.2 steps ∧
    currentContext (replaced.1.destroy finish (threadScopes.final last replaced.2)).2 =
      currentContext state

/-- The span identifier drawn by a start. -/
def Start.spanId : Start → SpanId
  | .startSpan around _ => around.spanId
  | .startServerSpan around _ _ => around.spanId

/-- The context of a span that is started while a context is current. -/
def Start.contextUnder (current : Option TraceContext) : Start → TraceContext
  | .startSpan around _ =>
    (nextContext around current).toTraceContext (current.elim [] (·.tracestate))
  | .startServerSpan around _ parent =>
    (nextContext around (some parent)).toTraceContext
      (if parent.isValid then parent.tracestate else [])

/-- The context of every new span is the one that is brought back by its assignment, and the last
context brought back is the initial one.  `current` is the current context, and `saved` the one the
guard brings back. -/
def ContextsCoincide (initial current saved : Option TraceContext) : List Replacement → Prop
  | [] => saved = initial
  | step :: steps =>
    saved = some (step.start.contextUnder current) ∧ ContextsCoincide initial saved current steps

variable {guard : SpanGuard} {state : CurrentContextState} {start : Start}

/-- The context of a started span is determined by the current one. -/
lemma Start.context_run : (start.run state).1.span.context =
    start.contextUnder (currentContext state) := by
  cases start with
  | startSpan around name =>
    rw [Start.run, Span.context, spanContext_startSpan, tracestate_startSpan, Start.contextUnder]
  | startServerSpan around name parent =>
    rw [Start.run, Span.context, spanContext_startServerSpan, tracestate_startServerSpan,
      Start.contextUnder]

/-- A started span has the span identifier that was drawn for it. -/
lemma Start.spanId_contextUnder (start : Start) (current : Option TraceContext) :
    (start.contextUnder current).spanId = start.spanId := by
  have hnext : ∀ around parent, (nextContext around parent).spanId = around.spanId := by
    intro around parent
    unfold nextContext
    cases parent.filter (·.isValid) with
    | some context => rfl
    | none => rfl
  cases start with
  | startSpan around name => exact hnext around current
  | startServerSpan around name parent => exact hnext around (some parent)

/-- A replacement starts a span after its nested blocks and destroys the old guard; the temporary
guard is not active any more when it is destroyed. -/
lemma replace_eq (guard : SpanGuard) (step : Replacement) (state : CurrentContextState) :
    guard.replace step state =
      let started := step.start.run (threadScopes.final step.inner state)
      (started.1, (guard.destroy step.finish started.2).2) := by
  simp only [SpanGuard.replace, SpanGuard.moveAssign, destroy_of_not_active]
  rfl

/-- A replacement makes the saved context current, and saves the one that was current. -/
lemma replace_spec (hactive : guard.active = true) (step : Replacement)
    (state : CurrentContextState) :
    currentContext (guard.replace step state).2 = guard.saved ∧
      (guard.replace step state).1.saved = currentContext state ∧
      (guard.replace step state).1.active = true ∧
      (guard.replace step state).1.span.context =
        step.start.contextUnder (currentContext state) := by
  have hinner := scoped_threadScopes.observe_final step.inner state
  rw [replace_eq]
  refine ⟨?_, ?_, Start.active_run, ?_⟩
  · exact currentContext_destroy hactive _ _
  · rw [← hinner]
    exact Start.saved_run
  · rw [← hinner]
    exact Start.context_run

/-- What a sequence of replacements does to the context, from an active guard. -/
lemma currentAfterEach_iff (hactive : guard.active = true) (state : CurrentContextState)
    (steps : List Replacement) (last : ThreadProgram) (finish : ℤ) (initial : Option TraceContext) :
    (CurrentAfterEach guard state steps ∧
      currentContext ((guard.replaceAll state steps).1.destroy finish
        (threadScopes.final last (guard.replaceAll state steps).2)).2 = initial) ↔
      ContextsCoincide initial (currentContext state) guard.saved steps := by
  induction steps generalizing guard state with
  | nil =>
    rw [SpanGuard.replaceAll, currentContext_destroy hactive]
    exact ⟨And.right, fun hsaved => ⟨trivial, hsaved⟩⟩
  | cons step steps ih =>
    obtain ⟨hcurrent, hsaved, hactive', hspan⟩ := replace_spec hactive step state
    rw [CurrentAfterEach, SpanGuard.replaceAll, and_assoc, ih hactive', hcurrent, hsaved, hspan,
      ContextsCoincide]

/-- Replacing a live guard keeps the context right if and only if the context of every new span is
the one its assignment brings back; it does not, when the first new span has a span identifier other
than that of the initial context. -/
theorem replacementsKeepContext_iff (first : Start) (steps : List Replacement)
    (last : ThreadProgram) (finish : ℤ) (state : CurrentContextState) :
    (ReplacementsKeepContext first steps last finish state ↔
      ContextsCoincide (currentContext state)
        (some (first.contextUnder (currentContext state))) (currentContext state) steps) ∧
    ∀ step rest, steps = step :: rest →
      (∀ context, currentContext state = some context → step.start.spanId ≠ context.spanId) →
      ¬ReplacementsKeepContext first steps last finish state := by
  have hiff : ReplacementsKeepContext first steps last finish state ↔
      ContextsCoincide (currentContext state)
        (some (first.contextUnder (currentContext state))) (currentContext state) steps := by
    have hactive : (first.run state).1.active = true := Start.active_run
    have hrun := currentAfterEach_iff hactive (first.run state).2 steps last finish
      (currentContext state)
    rw [Start.currentContext_run, Start.context_run, Start.saved_run] at hrun
    exact hrun
  refine ⟨hiff, ?_⟩
  rintro step rest rfl hfresh hkeeps
  have hcoincide := (hiff.mp hkeeps).1
  have hspanId := step.start.spanId_contextUnder (some (first.contextUnder (currentContext state)))
  exact hfresh _ hcoincide hspanId.symm

/-- One guard is replaced once, on a thread without a context: afterwards the thread has no context,
although the guard holds an active span. -/
theorem oneReplacement_loses :
    ¬ReplacementsKeepContext (.startSpan (sampleSurroundings 1 (by decide)) [])
      [⟨.done, .startSpan (sampleSurroundings 2 (by decide)) [], 0⟩] .done 0 {} := by
  rintro ⟨⟨hcurrent, -⟩, -⟩
  revert hcurrent
  decide

end GalayTracing
