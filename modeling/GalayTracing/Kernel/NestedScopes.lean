import GalayTracing.Foundation.Scopes
import GalayTracing.Kernel.SpanGuard
import GalayTracing.Log.LogRecord

/-!
# Nested scopes

A thread opens and closes spans and context scopes in properly nested blocks.  There are two kinds
of guards, `SpanGuard` and `KernelTraceContextScope`, which save the context of the thread in
different forms.  Both install a context and bring the old one back, so the context is everywhere
the one that the innermost enclosing block has installed; the parents of the spans and the
identities in the log records follow from that.
-/

namespace GalayTracing

/-- `KernelTraceContextScope`: the saved context. -/
structure KernelTraceContextScope where
  previous : Option TraceContext
  deriving DecidableEq

namespace KernelTraceContextScope

/-- The constructor, which sets the context of the thread. -/
def new (context : Option TraceContext) (state : CurrentContextState) :
    KernelTraceContextScope × CurrentContextState :=
  (⟨currentContext state⟩, setCurrentContext context)

/-- The destructor. -/
def destroy (scope : KernelTraceContextScope) : CurrentContextState :=
  setCurrentContext scope.previous

end KernelTraceContextScope

/-- How a span is started. -/
inductive Start
  | startSpan (around : Surroundings) (name : ByteString)
  | startServerSpan (around : Surroundings) (name : ByteString) (parent : TraceContext)

/-- Starting a span on a thread. -/
def Start.run : Start → CurrentContextState → SpanGuard × CurrentContextState
  | .startSpan around name, state => GalayTracing.startSpan around name state
  | .startServerSpan around name parent, state =>
    GalayTracing.startServerSpan around name parent state

/-- A block: the guard of a new span, destroyed at some time, or a context scope. -/
inductive Block
  | span (start : Start) (finish : ℤ)
  | contextScope (context : Option TraceContext)

/-- The object that closes a block. -/
def Block.Handle : Block → Type
  | .span _ _ => SpanGuard
  | .contextScope _ => KernelTraceContextScope

/-- Opening a block. -/
def Block.enter : (block : Block) → CurrentContextState → block.Handle × CurrentContextState
  | .span start _, state => start.run state
  | .contextScope context, state => KernelTraceContextScope.new context state

/-- Closing a block. -/
def Block.leave : (block : Block) → block.Handle → CurrentContextState → CurrentContextState
  | .span _ finish, guard, state => (SpanGuard.destroy guard finish state).2
  | .contextScope _, scope, _ => KernelTraceContextScope.destroy scope

/-- The blocks of a thread. -/
def threadScopes : Scopes CurrentContextState Block.Handle where
  enter := Block.enter
  leave := Block.leave

/-- The context a block installs: the context of its span, or the context it was given. -/
def Block.installs : (block : Block) → block.Handle → Option TraceContext
  | .span _ _, guard => some (SpanGuard.span guard).context
  | .contextScope context, _ => context

/-- A program of log calls and nested blocks. -/
abbrev ThreadProgram := Scopes.Program Block LogCall

/-- The run of a program. -/
abbrev ThreadTrace := Scopes.Trace CurrentContextState Block.Handle LogCall

variable {state : CurrentContextState} {start : Start}

/-- A start makes the context of its span the current one. -/
lemma Start.currentContext_run : currentContext (start.run state).2 =
    some (start.run state).1.span.context := by
  cases start with
  | startSpan around name => exact currentContext_startSpan
  | startServerSpan around name parent => exact currentContext_startServerSpan

/-- The guard of a start has saved the context from before. -/
lemma Start.saved_run : (start.run state).1.saved = currentContext state := by
  cases start with
  | startSpan around name => exact saved_startSpan
  | startServerSpan around name parent => exact saved_startServerSpan

/-- The guard of a start is active. -/
lemma Start.active_run : (start.run state).1.active = true := by
  cases start with
  | startSpan around name => rfl
  | startServerSpan around name parent => rfl

/-- The blocks of a thread install a context and bring the old one back. -/
theorem scoped_threadScopes : threadScopes.Scoped currentContext Block.installs where
  observe_enter block state := by
    cases block with
    | span start finish => exact Start.currentContext_run
    | contextScope context => exact currentContext_setCurrentContext context
  observe_leave block state state' _ := by
    cases block with
    | span start finish =>
      have hactive : (start.run state).1.active = true := Start.active_run
      exact (currentContext_destroy hactive _ _).trans Start.saved_run
    | contextScope context => exact currentContext_setCurrentContext _

/-! ### Span tree, log correlation and restoration -/

/-- The span is a child of the installed context if that is valid, and a root without a parent
otherwise. -/
def ContinuesInstalled (installed : Option TraceContext) (span : SpanContext) : Prop :=
  match installed.filter (·.isValid) with
  | some context =>
    span.traceId = context.traceId ∧ span.parentSpanId = some context.spanId
  | none => span.parentSpanId = none

/-- What a block opened under an installed context has to be: `startSpan` continues that context. -/
def OpenedUnder (installed : Option TraceContext) : (block : Block) → block.Handle → Prop
  | .span (.startSpan _ _) _, guard =>
    ContinuesInstalled installed (SpanGuard.span guard).spanContext
  | .span (.startServerSpan _ _ _) _, _ => True
  | .contextScope _, _ => True

/-- `NestsRight isEnabled installed trace`: in the run of a program under an installed context,
every span of `startSpan` continues the context that the innermost enclosing block has installed,
every log record has the identity of that context, and at the end of every block the current context
is the one from its start. -/
def NestsRight (isEnabled : LogLevel → Bool) : Option TraceContext → ThreadTrace → Prop
  | _, .done => True
  | installed, .statement call state rest =>
    (∀ record, logAt isEnabled call state = some record →
      record.context = makeLogContext installed) ∧ NestsRight isEnabled installed rest
  | installed, .block block before handle body after rest =>
    OpenedUnder installed block handle ∧
      NestsRight isEnabled (block.installs handle) body ∧
      currentContext after = currentContext before ∧ NestsRight isEnabled installed rest

/-- A span continues the context of the thread it is started on. -/
lemma continuesInstalled_nextContext (around : Surroundings) (installed : Option TraceContext) :
    ContinuesInstalled installed (nextContext around installed) := by
  unfold ContinuesInstalled nextContext
  cases installed.filter (·.isValid) with
  | some context => exact ⟨rfl, rfl⟩
  | none => rfl

/-- A block is opened under the current context. -/
lemma openedUnder_enter (block : Block) (state : CurrentContextState) :
    OpenedUnder (currentContext state) block (block.enter state).1 := by
  cases block with
  | span start finish =>
    cases start with
    | startSpan around name =>
      have hcontinues := continuesInstalled_nextContext around (currentContext state)
      have hspan : (startSpan around name state).1.span.spanContext =
          nextContext around (currentContext state) := spanContext_startSpan
      rw [← hspan] at hcontinues
      exact hcontinues
    | startServerSpan around name parent => trivial
  | contextScope context => trivial

/-- The run of a program in which the context is everywhere the installed one nests right. -/
lemma nestsRight_of_holds (isEnabled : LogLevel → Bool) (program : ThreadProgram)
    (state : CurrentContextState) {installed : Option TraceContext}
    (hholds : (threadScopes.trace program state).Holds currentContext Block.installs installed) :
    NestsRight isEnabled installed (threadScopes.trace program state) := by
  induction program generalizing state installed with
  | done => trivial
  | statement call rest ih =>
    obtain ⟨hstate, hrest⟩ := hholds
    refine ⟨fun record hlog => ?_, ih state hrest⟩
    rw [context_of_logAt hlog, hstate]
  | block block body rest ihBody ihRest =>
    obtain ⟨hbefore, hbody, hafter, hrest⟩ := hholds
    refine ⟨?_, ihBody _ hbody, hafter.trans hbefore.symm, ihRest _ hrest⟩
    rw [← hbefore]
    exact openedUnder_enter block state

/-- In every program of nested blocks, from every state of the thread, the spans form the tree of
the blocks, the log records carry the identity of the innermost block, every block restores the
context, and so does the program. -/
theorem nestsRight_trace (isEnabled : LogLevel → Bool) (program : ThreadProgram)
    (state : CurrentContextState) :
    NestsRight isEnabled (currentContext state) (threadScopes.trace program state) ∧
      currentContext (threadScopes.final program state) = currentContext state :=
  ⟨nestsRight_of_holds isEnabled program state (scoped_threadScopes.holds_trace program state),
    scoped_threadScopes.observe_final program state⟩

end GalayTracing
