import GalayTracing.Foundation.Lts
import GalayTracing.Kernel.GuardReplacement

/-!
# Ending a guard by hand

A thread starts spans, ends guards by hand and destroys guards, always the innermost one first.  The
documentation of `SpanGuard::end` promises that it ends the span and brings back the context from
before, and that the guard is not active afterwards.  The code only ends the span.

So a run keeps the promise if and only if it never ends a guard by hand.  In the runs that do not,
the live guards form a stack (`Stacked`): each one has saved the context of the next one.
-/

namespace GalayTracing

/-- The state of the thread: its context, its live guards from the innermost one on, and the spans
whose guards have been destroyed. -/
structure GuardState where
  current : CurrentContextState
  guards : List SpanGuard := []
  destroyed : List Span := []
  deriving DecidableEq

/-- What the thread does: it starts a span, it calls `end` on the guard at a position of the stack,
or it destroys the innermost guard. -/
inductive GuardAct
  | start (start : Start)
  | «end» (position : ℕ) (now : ℤ)
  | destroy (now : ℤ)

/-- One action.  `end` may be called on a guard when all guards inside it have been ended. -/
def guardStep (s : GuardState) : GuardAct → Option GuardState
  | .start start =>
    let started := start.run s.current
    some { s with current := started.2, guards := started.1 :: s.guards }
  | .end position now =>
    if position < s.guards.length ∧ (s.guards.take position).all (·.span.ended) then
      some { s with guards := s.guards.modify position (·.end now) }
    else none
  | .destroy now =>
    match s.guards with
    | [] => none
    | guard :: guards =>
      let (guard, current) := guard.destroy now s.current
      some { current := current, guards := guards, destroyed := guard.span :: s.destroyed }

/-- The runs of a thread from a context. -/
def guardSystem (initial : CurrentContextState) : Lts GuardState GuardAct where
  init := { current := initial }
  step := guardStep

/-- The context of the innermost span whose guard has not been ended, or the initial one. -/
def liveContext (initial : CurrentContextState) (s : GuardState) : Option TraceContext :=
  match s.guards.find? (!·.span.ended) with
  | some guard => some guard.span.context
  | none => currentContext initial

/-- The spans that have been ended. -/
def endedSpans (s : GuardState) : List Span :=
  (s.guards.map (·.span)).filter (·.ended) ++ s.destroyed

/-- The span identifiers drawn in a run. -/
def drawnSpanIds (h : List GuardAct) : List SpanId :=
  h.filterMap fun
    | .start start => some start.spanId
    | _ => none

/-- The span identifiers of a run are new: they are drawn once each, and the initial context has
none of them. -/
def FreshSpanIds (initial : CurrentContextState) (h : List GuardAct) : Prop :=
  (drawnSpanIds h).Nodup ∧
    ∀ context, currentContext initial = some context → context.spanId ∉ drawnSpanIds h

/-- The documented contract of a guard, at every moment of a run. -/
structure EndsCleanly (initial : CurrentContextState) (h : List GuardAct) : Prop where
  /-- The current context is that of the innermost span that has not been ended. -/
  live : ∀ pre post s, h = pre ++ post → (guardSystem initial).Run pre s →
    currentContext s.current = liveContext initial s
  /-- When the span identifiers are new, no ended span has the current context. -/
  notEnded : FreshSpanIds initial h → ∀ pre post s, h = pre ++ post →
    (guardSystem initial).Run pre s → ∀ span ∈ endedSpans s,
      currentContext s.current ≠ some span.context
  /-- Ending the innermost guard that has not been ended restores the saved context, and the guard
  is not active afterwards. -/
  ending : ∀ pre position now post s s' guard, h = pre ++ .end position now :: post →
    (guardSystem initial).Run pre s → guardStep s (.end position now) = some s' →
    s.guards[position]? = some guard → guard.span.ended = false →
      currentContext s'.current = guard.saved ∧
        ∃ guard', s'.guards[position]? = some guard' ∧ guard'.active = false
  /-- Destroying a guard that has been ended changes neither the context nor the span. -/
  destroying : ∀ pre now post s s' guard guards, h = pre ++ .destroy now :: post →
    (guardSystem initial).Run pre s → guardStep s (.destroy now) = some s' →
    s.guards = guard :: guards → guard.span.ended = true →
      currentContext s'.current = currentContext s.current ∧
        s'.destroyed.head? = some guard.span

/-- The action is a call of `end`. -/
def GuardAct.isEnd : GuardAct → Bool
  | .end _ _ => true
  | _ => false

/-- The live guards form a stack: none has been ended, each is active and has saved the context of
the next one, the innermost one has installed the given context and the outermost one has saved the
initial context. -/
def Stacked (initial : CurrentContextState) : Option TraceContext → List SpanGuard → Prop
  | context, [] => context = currentContext initial
  | context, guard :: guards =>
    guard.active = true ∧ guard.span.ended = false ∧ context = some guard.span.context ∧
      Stacked initial guard.saved guards

variable {initial : CurrentContextState} {h : List GuardAct} {s s' : GuardState}

/-- Every guard of the stack is active and has not been ended. -/
lemma Stacked.of_mem {context : Option TraceContext} {guards : List SpanGuard}
    (hs : Stacked initial context guards) {guard : SpanGuard} (hmem : guard ∈ guards) :
    guard.active = true ∧ guard.span.ended = false := by
  induction guards generalizing context with
  | nil => cases hmem
  | cons first guards ih =>
    obtain ⟨hactive, hended, -, hrest⟩ := hs
    rcases List.mem_cons.mp hmem with rfl | hmem
    · exact ⟨hactive, hended⟩
    · exact ih hrest hmem

/-- The span of a start has not been ended. -/
lemma Start.ended_run {start : Start} {state : CurrentContextState} :
    (start.run state).1.span.ended = false := by
  cases start with
  | startSpan around name => rfl
  | startServerSpan around name parent => rfl

/-- An action other than `end` keeps the stack. -/
lemma stacked_step {a : GuardAct} (ha : a.isEnd = false) (hs : guardStep s a = some s')
    (hstacked : Stacked initial (currentContext s.current) s.guards) :
    Stacked initial (currentContext s'.current) s'.guards := by
  cases a with
  | start start =>
    obtain rfl := Option.some_inj.mp hs
    refine ⟨Start.active_run, Start.ended_run, Start.currentContext_run, ?_⟩
    rw [Start.saved_run]
    exact hstacked
  | «end» position now => cases ha
  | destroy now =>
    simp only [guardStep] at hs
    split at hs
    · cases hs
    · next guard guards hguards =>
      obtain rfl := Option.some_inj.mp hs
      rw [hguards] at hstacked
      obtain ⟨hactive, -, -, hrest⟩ := hstacked
      rw [← currentContext_destroy hactive now s.current] at hrest
      exact hrest

/-- In a run without calls of `end` the live guards form a stack. -/
theorem stacked_of_run (hr : (guardSystem initial).Run h s) (hnone : ∀ a ∈ h, a.isEnd = false) :
    Stacked initial (currentContext s.current) s.guards := by
  induction hr using Lts.run_induction with
  | nil => rfl
  | concat h a s s' hr hs ih =>
    refine stacked_step (hnone a (by simp)) hs (ih fun b hb => hnone b ?_)
    exact List.mem_append_left _ hb

/-! ### The span identifiers -/

/-- The span identifiers of the live guards and of the destroyed spans. -/
def spanIds (s : GuardState) : List SpanId :=
  s.guards.map (·.span.spanContext.spanId) ++ s.destroyed.map (·.spanContext.spanId)

/-- Ending a span does not change its identity. -/
lemma spanContext_end (guard : SpanGuard) (now : ℤ) :
    (guard.end now).span.spanContext = guard.span.spanContext := by
  unfold SpanGuard.end Span.end
  split_ifs <;> rfl

/-- Ending a guard leaves it active. -/
lemma active_end (guard : SpanGuard) (now : ℤ) : (guard.end now).active = guard.active := by
  unfold SpanGuard.end
  split_ifs <;> rfl

/-- Destroying a guard does not change the identity of its span. -/
lemma spanContext_destroy (guard : SpanGuard) (now : ℤ) (state : CurrentContextState) :
    (guard.destroy now state).1.span.spanContext = guard.span.spanContext := by
  unfold SpanGuard.destroy SpanGuard.restore
  split_ifs
  · rfl
  · exact spanContext_end guard now

/-- A call of `end` is for a live guard, and changes only that guard. -/
lemma guardStep_end {position : ℕ} {now : ℤ} (hs : guardStep s (.end position now) = some s') :
    position < s.guards.length ∧ s'.guards = s.guards.modify position (·.end now) := by
  simp only [guardStep] at hs
  split_ifs at hs with hcond
  obtain rfl := Option.some_inj.mp hs
  exact ⟨hcond.1, rfl⟩

/-- The span identifiers are those that were drawn. -/
theorem spanIds_perm (hr : (guardSystem initial).Run h s) : (spanIds s).Perm (drawnSpanIds h) := by
  induction hr using Lts.run_induction with
  | nil => exact List.Perm.nil
  | concat h a s s' hr hs ih =>
    have hdrawn : drawnSpanIds (h ++ [a]) = drawnSpanIds h ++ drawnSpanIds [a] :=
      List.filterMap_append
    rw [hdrawn]
    cases a with
    | start start =>
      obtain rfl := Option.some_inj.mp hs
      have hid : (start.run s.current).1.span.spanContext.spanId = start.spanId := by
        rw [← start.spanId_contextUnder (currentContext s.current), ← Start.context_run]
        rfl
      have hnew : drawnSpanIds [.start start] = [start.spanId] := rfl
      rw [hnew]
      refine List.Perm.trans ?_ (List.perm_append_singleton _ _).symm
      simp only [spanIds, List.map_cons, hid, List.cons_append]
      exact ih.cons _
    | «end» position now =>
      simp only [guardSystem, guardStep] at hs
      split_ifs at hs
      obtain rfl := Option.some_inj.mp hs
      have hsame : (s.guards.modify position (·.end now)).map (·.span.spanContext.spanId) =
          s.guards.map (·.span.spanContext.spanId) := by
        apply List.ext_getElem?
        intro i
        simp only [List.getElem?_map, List.getElem?_modify]
        cases s.guards[i]? with
        | none => rfl
        | some guard =>
          simp only [Option.map_eq_map, Option.map_some]
          split_ifs
          · rw [spanContext_end]
          · rfl
      have hnew : drawnSpanIds [.end position now] = [] := rfl
      rw [hnew, List.append_nil, spanIds, hsame]
      exact ih
    | destroy now =>
      simp only [guardSystem, guardStep] at hs
      split at hs
      · cases hs
      · next guard guards hguards =>
        obtain rfl := Option.some_inj.mp hs
        have hnew : drawnSpanIds [.destroy now] = [] := rfl
        rw [hnew, List.append_nil]
        refine List.Perm.trans ?_ ih
        simp only [spanIds, hguards, List.map_cons, spanContext_destroy]
        exact List.perm_middle

/-! ### The contract -/

/-- The current context of a stack is that of the innermost span that has not been ended. -/
lemma Stacked.eq_liveContext (hs : Stacked initial (currentContext s.current) s.guards) :
    currentContext s.current = liveContext initial s := by
  unfold liveContext
  cases hguards : s.guards with
  | nil =>
    rw [hguards] at hs
    exact hs
  | cons guard guards =>
    rw [hguards] at hs
    obtain ⟨-, hended, hcurrent, -⟩ := hs
    rw [hcurrent, List.find?_cons_of_pos (by simp [hended])]

/-- The spans of a stack that have been ended are those of the destroyed guards. -/
lemma Stacked.endedSpans_eq {context : Option TraceContext}
    (hs : Stacked initial context s.guards) :
    endedSpans s = s.destroyed := by
  have hlive : (s.guards.map (·.span)).filter (·.ended) = [] := by
    rw [List.filter_eq_nil_iff]
    intro span hmem
    obtain ⟨guard, hguard, rfl⟩ := List.mem_map.mp hmem
    simp [(hs.of_mem hguard).2]
  rw [endedSpans, hlive, List.nil_append]

/-- In a stack whose span identifiers are new, no ended span has the current context. -/
lemma Stacked.ne_of_fresh (hs : Stacked initial (currentContext s.current) s.guards)
    (hr : (guardSystem initial).Run h s) (hfresh : FreshSpanIds initial h) {span : Span}
    (hspan : span ∈ endedSpans s) : currentContext s.current ≠ some span.context := by
  intro hcurrent
  have hperm := spanIds_perm hr
  obtain ⟨hnodup, hinitial⟩ := hfresh
  rw [hs.endedSpans_eq] at hspan
  have hid : span.spanContext.spanId ∈ s.destroyed.map (·.spanContext.spanId) :=
    List.mem_map_of_mem hspan
  cases hguards : s.guards with
  | nil =>
    -- The current context is the initial one, whose identifier has not been drawn.
    rw [hguards] at hs
    apply hinitial span.context (hs.symm.trans hcurrent)
    exact hperm.mem_iff.mp (List.mem_append_right _ hid)
  | cons guard guards =>
    -- The current context is that of a live guard, whose identifier has been drawn once.
    rw [hguards] at hs
    have hsame : guard.span.context = span.context :=
      Option.some_inj.mp (hs.2.2.1.symm.trans hcurrent)
    have hsameId : guard.span.spanContext.spanId = span.spanContext.spanId :=
      congrArg TraceContext.spanId hsame
    have hspanIds : (spanIds s).Nodup := hperm.nodup_iff.mpr hnodup
    rw [spanIds, hguards, List.map_cons, hsameId] at hspanIds
    exact (List.nodup_append.mp hspanIds).2.2 _ List.mem_cons_self _ hid rfl

/-- The span identifiers of a part of a run are new if those of the run are. -/
lemma FreshSpanIds.of_append {pre post : List GuardAct}
    (hfresh : FreshSpanIds initial (pre ++ post)) : FreshSpanIds initial pre := by
  have hdrawn : drawnSpanIds (pre ++ post) = drawnSpanIds pre ++ drawnSpanIds post :=
    List.filterMap_append
  obtain ⟨hnodup, hinitial⟩ := hfresh
  rw [hdrawn] at hnodup hinitial
  constructor
  · exact (List.nodup_append.mp hnodup).1
  · intro context hcontext hmem
    exact hinitial context hcontext (List.mem_append_left _ hmem)

/-- A run without calls of `end` keeps the contract of the guards. -/
theorem endsCleanly_of_no_end (hnone : ∀ a ∈ h, a.isEnd = false) : EndsCleanly initial h := by
  have hstack : ∀ pre post s, h = pre ++ post → (guardSystem initial).Run pre s →
      Stacked initial (currentContext s.current) s.guards := by
    rintro pre post s rfl hr
    exact stacked_of_run hr fun a ha => hnone a (List.mem_append_left _ ha)
  constructor
  · intro pre post s hsplit hr
    exact (hstack pre post s hsplit hr).eq_liveContext
  · intro hfresh pre post s hsplit hr span hspan
    have hfresh' : FreshSpanIds initial pre := by
      rw [hsplit] at hfresh
      exact hfresh.of_append
    exact (hstack pre post s hsplit hr).ne_of_fresh hr hfresh' hspan
  · rintro pre position now post s s' guard rfl
    have hend := hnone (.end position now) (by simp)
    cases hend
  · intro pre now post s s' guard guards hsplit hr _ hguards hended
    have hmem : guard ∈ s.guards := by
      rw [hguards]
      exact List.mem_cons_self
    rw [((hstack pre _ s hsplit hr).of_mem hmem).2] at hended
    cases hended

/-- The first call of `end` in a run leaves its guard active. -/
lemma not_endsCleanly_of_end (hr : (guardSystem initial).Run h s) {a : GuardAct} (ha : a ∈ h)
    (hend : a.isEnd = true) : ¬EndsCleanly initial h := by
  intro hclean
  obtain ⟨b, hfind⟩ : ∃ b, h.find? GuardAct.isEnd = some b :=
    Option.isSome_iff_exists.mp (List.find?_isSome.mpr ⟨a, ha, hend⟩)
  obtain ⟨hb, pre, post, rfl, hpre⟩ := List.find?_eq_some_iff_append.mp hfind
  cases b with
  | «end» position now =>
    have hsplit : pre ++ .end position now :: post = (pre ++ [.end position now]) ++ post := by simp
    rw [hsplit] at hr
    obtain ⟨s₁, hr₁⟩ := hr.of_append
    obtain ⟨s₀, hr₀, hs⟩ := (guardSystem initial).run_concat_iff.mp hr₁
    replace hs : guardStep s₀ (.end position now) = some s₁ := hs
    have hstacked := stacked_of_run hr₀ fun c hc => by simpa using hpre c hc
    obtain ⟨hlt, hguards⟩ := guardStep_end hs
    have hget := List.getElem?_eq_getElem hlt
    obtain ⟨hactive, hended⟩ := hstacked.of_mem (List.getElem_mem hlt)
    obtain ⟨-, guard', hguard', hinactive⟩ :=
      hclean.ending pre position now post s₀ s₁ _ rfl hr₀ hs hget hended
    -- The guard at the position is the old one with its span ended.
    rw [hguards, List.getElem?_modify_eq, hget] at hguard'
    obtain rfl := Option.some_inj.mp hguard'
    rw [active_end, hactive] at hinactive
    cases hinactive
  | _ => cases hb

/-- A run keeps the contract of the guards if and only if no guard is ended by hand in it. -/
theorem endsCleanly_iff (hr : (guardSystem initial).Run h s) :
    EndsCleanly initial h ↔ ∀ a ∈ h, a.isEnd = false := by
  constructor
  · intro hclean a ha
    by_contra hend
    exact not_endsCleanly_of_end hr ha (eq_true_of_ne_false hend) hclean
  · intro hnone
    exact endsCleanly_of_no_end hnone

/-- A span is started and destroyed inside another one. -/
theorem endsCleanly_nested :
    EndsCleanly {} [.start (.startSpan (sampleSurroundings 1 (by decide)) []),
      .start (.startSpan (sampleSurroundings 2 (by decide)) []), .destroy 3, .destroy 4] := by
  have hrun : ((guardSystem {}).exec (guardSystem {}).init
      [.start (.startSpan (sampleSurroundings 1 (by decide)) []),
        .start (.startSpan (sampleSurroundings 2 (by decide)) []), .destroy 3,
        .destroy 4]).any fun _ => true := by decide
  obtain ⟨s, hr, -⟩ := Lts.exists_run_of_any hrun
  exact (endsCleanly_iff hr).mpr (by simp [GuardAct.isEnd])

/-- A guard is ended by hand on a thread without a context: the context of the ended span stays
current. -/
theorem endedSpan_stays_current :
    ¬EndsCleanly {} [.start (.startSpan (sampleSurroundings 1 (by decide)) []), .end 0 3] := by
  intro hclean
  have hrun : ((guardSystem {}).exec (guardSystem {}).init
      [.start (.startSpan (sampleSurroundings 1 (by decide)) []), .end 0 3]).any fun s =>
        decide (∃ span ∈ endedSpans s, currentContext s.current = some span.context) := by decide
  obtain ⟨s, hr, hcurrent⟩ := Lts.exists_run_of_any hrun
  obtain ⟨span, hspan, hcurrent⟩ := of_decide_eq_true hcurrent
  have hfresh : FreshSpanIds {} [.start (.startSpan (sampleSurroundings 1 (by decide)) []),
      .end 0 3] := ⟨by decide, by intro context hcontext; cases hcontext⟩
  exact hclean.notEnded hfresh _ [] s (List.append_nil _).symm hr span hspan hcurrent

end GalayTracing
