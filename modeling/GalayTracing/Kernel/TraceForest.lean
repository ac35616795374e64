import GalayTracing.Foundation.Ancestry
import GalayTracing.Foundation.Lts
import GalayTracing.Kernel.TraceChain
import Mathlib.Logic.Function.Basic

/-!
# The spans of all threads and services

Any number of threads, in one service or in many, start and destroy spans, enter and leave context
scopes, capture contexts and hand them to one another, send the headers of their current context and
receive headers, in any order.  Nothing is assumed about the order in which guards and scopes are
destroyed, nor about the thread that does it; headers may be delivered often, late or never.  Some
headers come from outside.

A context that a thread can get hold of is the context of a span that has been started, or one that
came from outside (`Known`), and this is all that the steps need: the spans form a forest whose
roots have no parent or continue a context from outside, and a log record carries the identity of
one of these spans or contexts, or none.
-/

namespace GalayTracing

open Ancestry

/-! ### The steps of the threads -/

/-- What spans can continue: a context that came from outside, or a span that has been started under
a configured sampler. -/
inductive TraceNode
  | inbound (context : TraceContext)
  | started (sampler : Option Sampler) (span : Span)

/-- The context of a node. -/
def TraceNode.context : TraceNode → TraceContext
  | .inbound context => context
  | .started _ span => span.context

/-- The state of all threads and services. -/
structure World (θ : Type*) where
  /-- `t_currentContext` of each thread. -/
  current : θ → CurrentContextState := fun _ => {}
  /-- The guards that have not been destroyed; they can be moved from thread to thread. -/
  guards : List SpanGuard := []
  scopes : List KernelTraceContextScope := []
  /-- The contexts that some variable of a program holds. -/
  held : List TraceContext := []
  /-- The headers that have been sent, `traceparent` and `tracestate`. -/
  sent : List (ByteString × ByteString) := []
  /-- The spans and the contexts from outside, in the order of their appearance. -/
  nodes : List TraceNode := []
  /-- The log records that have been written. -/
  records : List LogRecord := []

/-- A step of some thread. -/
inductive TraceStep (θ : Type*)
  | start (thread : θ) (start : Start)
  | endSpan (guard : SpanGuard) (now : ℤ)
  /-- The destructor of a guard; its move assignment does the same to the guard it replaces. -/
  | destroy (thread : θ) (guard : SpanGuard) (now : ℤ)
  | enterScope (thread : θ) (context : Option TraceContext)
  | leaveScope (thread : θ) (scope : KernelTraceContextScope)
  | setCurrentContext (thread : θ) (context : Option TraceContext)
  | captureTraceContext (thread : θ)
  /-- `SpanGuard::span` and `Span::context`. -/
  | spanContext (guard : SpanGuard)
  /-- The headers of the current context are sent. -/
  | send (thread : θ)
  /-- Headers that have been sent are delivered. -/
  | deliver (headers : ByteString × ByteString)
  /-- Headers come from outside. -/
  | outside (headers : ByteString × ByteString)
  | log (thread : θ) (isEnabled : LogLevel → Bool) (call : LogCall)
  | logWithContext (isEnabled : LogLevel → Bool) (call : LogCall) (context : Option TraceContext)

/-- What starting a span reads from its surroundings. -/
def Start.around : Start → Surroundings
  | .startSpan around _ => around
  | .startServerSpan around _ _ => around

/-- The context a new span continues. -/
def Start.parent : Start → CurrentContextState → Option TraceContext
  | .startSpan _ _, state => currentContext state
  | .startServerSpan _ _ parent, _ => some parent

/-- The contexts that a start is given are held. -/
def Start.IsGiven (start : Start) (held : List TraceContext) : Prop :=
  match start with
  | .startSpan _ _ => True
  | .startServerSpan _ _ parent => parent ∈ held

instance (held : List TraceContext) : (start : Start) → Decidable (start.IsGiven held)
  | .startSpan _ _ => inferInstanceAs (Decidable True)
  | .startServerSpan _ _ parent => inferInstanceAs (Decidable (parent ∈ held))

/-- The node of a new span. -/
def Start.node (start : Start) (state : CurrentContextState) : TraceNode :=
  .started start.around.sampler (start.run state).1.span

/-- What a service gets from the headers of a request: a context, if they denote one. -/
def extracted (headers : ByteString × ByteString) : Option (Option TraceContext) := do
  match ← extractTraceparent headers.1 headers.2 with
  | .ok context => return some context
  | .error _ => return none

namespace World

variable {θ : Type*} [DecidableEq θ]

/-- The step relation; the objects a step uses have to exist. -/
def step (w : World θ) : TraceStep θ → Option (World θ)
  | .start thread start =>
    if start.IsGiven w.held then
      let (guard, state) := start.run (w.current thread)
      some { w with
        current := Function.update w.current thread state
        guards := guard :: w.guards
        nodes := w.nodes ++ [start.node (w.current thread)] }
    else none
  | .endSpan guard now =>
    if guard ∈ w.guards then some { w with guards := guard.end now :: w.guards.erase guard }
    else none
  | .destroy thread guard now =>
    if guard ∈ w.guards then
      let (_, state) := guard.destroy now (w.current thread)
      some { w with
        current := Function.update w.current thread state
        guards := w.guards.erase guard }
    else none
  | .enterScope thread context =>
    if ∀ held ∈ context, held ∈ w.held then
      let (scope, state) := KernelTraceContextScope.new context (w.current thread)
      some { w with
        current := Function.update w.current thread state
        scopes := scope :: w.scopes }
    else none
  | .leaveScope thread scope =>
    if scope ∈ w.scopes then
      some { w with
        current := Function.update w.current thread scope.destroy
        scopes := w.scopes.erase scope }
    else none
  | .setCurrentContext thread context =>
    if ∀ held ∈ context, held ∈ w.held then
      some { w with
        current := Function.update w.current thread (GalayTracing.setCurrentContext context) }
    else none
  | .captureTraceContext thread =>
    some { w with held := (currentContext (w.current thread)).toList ++ w.held }
  | .spanContext guard =>
    if guard ∈ w.guards then some { w with held := guard.span.context :: w.held } else none
  | .send thread =>
    (currentContext (w.current thread)).map fun context =>
      { w with sent := (injectTraceparent context, injectTracestate context) :: w.sent }
  | .deliver headers =>
    if headers ∈ w.sent then
      (extracted headers).map fun context => { w with held := context.toList ++ w.held }
    else none
  | .outside headers =>
    (extracted headers).map fun context =>
      { w with
        held := context.toList ++ w.held
        nodes := w.nodes ++ context.toList.map .inbound }
  | .log thread isEnabled call =>
    some { w with records := w.records ++ (logAt isEnabled call (w.current thread)).toList }
  | .logWithContext isEnabled call context =>
    if ∀ held ∈ context, held ∈ w.held then
      some { w with records := w.records ++ (logWithContextAt isEnabled call context).toList }
    else none

end World

/-- The threads of all services, before any of them has a context. -/
def tracing (θ : Type*) [DecidableEq θ] : Lts (World θ) (TraceStep θ) where
  init := {}
  step := World.step

/-! ### The forest of the spans -/

/-- A node in which a trace begins: a context from outside, or a span without a parent, which has no
tracestate either. -/
def TraceNode.IsOrigin : TraceNode → Prop
  | .inbound _ => True
  | .started _ span => span.spanContext.parentSpanId = none ∧ span.tracestate = []

/-- A node is a span that continues the other one: in the same trace, with the other one as its
parent, the same tracestate, and the same flags if the sampler follows the parent. -/
def TraceNode.Continues (parent : TraceNode) : TraceNode → Prop
  | .inbound _ => False
  | .started sampler span =>
    span.spanContext.traceId = parent.context.traceId ∧
      span.spanContext.parentSpanId = some parent.context.spanId ∧
      span.tracestate = parent.context.tracestate ∧
      (FollowsParent sampler → span.spanContext.traceFlags = parent.context.traceFlags)

/-- The sampler under which the node was made follows the parent. -/
def TraceNode.FollowsParent : TraceNode → Prop
  | .inbound _ => True
  | .started sampler _ => GalayTracing.FollowsParent sampler

/-- What headers keep of a context. -/
def TraceContext.withoutParent (context : TraceContext) : TraceContext :=
  { context with parentSpanId := none }

/-- The context is valid, and, up to its parent, the one of a node. -/
def Known (nodes : List TraceNode) (context : TraceContext) : Prop :=
  context.isValid = true ∧ ∃ node ∈ nodes, node.context.withoutParent = context.withoutParent

variable {θ : Type*} {nodes : List TraceNode} {context : TraceContext} {start : Start}
  {state : CurrentContextState}

/-- A known context stays known when there are more nodes. -/
lemma Known.mono {nodes' : List TraceNode} (hsub : nodes ⊆ nodes') (hk : Known nodes context) :
    Known nodes' context := by
  obtain ⟨hvalid, node, hnode, heq⟩ := hk
  exact ⟨hvalid, node, hsub hnode, heq⟩

/-- The headers of a known context denote a known context. -/
lemma Known.withoutParent (hk : Known nodes context) : Known nodes context.withoutParent := hk

/-- A start continues its parent. -/
lemma Start.spanContext_run :
    (start.run state).1.span.spanContext = nextContext start.around (start.parent state) := by
  cases start with
  | startSpan around name => exact spanContext_startSpan
  | startServerSpan around name parent => exact spanContext_startServerSpan

/-- A start inherits the tracestate of its parent, if that is valid. -/
lemma Start.tracestate_run
    (hvalid : ∀ context, start.parent state = some context → context.isValid = true) :
    (start.run state).1.span.tracestate = (start.parent state).elim [] (·.tracestate) := by
  cases start with
  | startSpan around name => exact tracestate_startSpan
  | startServerSpan around name parent =>
    exact tracestate_startServerSpan.trans (if_pos (hvalid parent rfl))

/-- The context of a new span is valid. -/
lemma Start.isValid_run : (start.run state).1.span.context.isValid = true := by
  rw [Span.context, SpanContext.isValid_toTraceContext, Start.spanContext_run]
  exact isValid_nextContext _ _

/-- A start without a parent begins a trace. -/
lemma Start.isOrigin_node (hparent : start.parent state = none) :
    (start.node state).IsOrigin := by
  have hspan : (start.run state).1.span.spanContext = nextContext start.around none := by
    rw [Start.spanContext_run, hparent]
  have htracestate : (start.run state).1.span.tracestate = [] := by
    rw [Start.tracestate_run (by simp [hparent]), hparent]
    rfl
  refine ⟨?_, htracestate⟩
  rw [hspan]
  rfl

/-- A start with a valid parent continues every node with the context of the parent. -/
lemma Start.continues_node {parent : TraceNode} (hparent : start.parent state = some context)
    (hvalid : context.isValid = true)
    (heq : parent.context.withoutParent = context.withoutParent) :
    parent.Continues (start.node state) := by
  have hspan : (start.run state).1.span.spanContext = nextContext start.around (some context) := by
    rw [Start.spanContext_run, hparent]
  have htracestate : (start.run state).1.span.tracestate = context.tracestate := by
    have hvalid' : ∀ c, start.parent state = some c → c.isValid = true := fun c hc =>
      Option.some_inj.mp (hparent.symm.trans hc) ▸ hvalid
    rw [Start.tracestate_run hvalid', hparent]
    rfl
  obtain ⟨htraceId, hspanId, -, hflags, hstate⟩ := TraceContext.mk.inj heq
  refine ⟨?_, ?_, htracestate.trans hstate.symm, fun hfollows => ?_⟩
  · rw [hspan, nextContext_of_valid hvalid, htraceId]
    rfl
  · rw [hspan, nextContext_of_valid hvalid, hspanId]
    rfl
  · rw [hspan, nextContext_of_follows hfollows hvalid, hflags]

/-! ### The invariant -/

/-- Every context that a thread can get hold of is known, the nodes form a forest, and the log
records carry identities of nodes. -/
structure Accounted (w : World θ) : Prop where
  current : ∀ t, ∀ context ∈ currentContext (w.current t), Known w.nodes context
  active : ∀ guard ∈ w.guards, guard.active = true
  saved : ∀ guard ∈ w.guards, ∀ context ∈ guard.saved, Known w.nodes context
  span : ∀ guard ∈ w.guards, Known w.nodes guard.span.context
  previous : ∀ scope ∈ w.scopes, ∀ context ∈ scope.previous, Known w.nodes context
  held : ∀ context ∈ w.held, Known w.nodes context
  sent : ∀ headers ∈ w.sent, ∃ context, Known w.nodes context ∧
    headers = (injectTraceparent context, injectTracestate context)
  valid : ∀ node ∈ w.nodes, node.context.isValid = true
  grown : Grown TraceNode.IsOrigin TraceNode.Continues w.nodes
  records : ∀ record ∈ w.records, ∀ identity ∈ record.context,
    ∃ node ∈ w.nodes, identity = .ofTraceContext node.context

/-- The identity of a known context is that of a node. -/
lemma Known.exists_identity (hk : Known nodes context) :
    ∃ node ∈ nodes, LogContext.ofTraceContext context = .ofTraceContext node.context := by
  obtain ⟨-, node, hnode, heq⟩ := hk
  obtain ⟨htraceId, hspanId, -, hflags, -⟩ := TraceContext.mk.inj heq
  refine ⟨node, hnode, ?_⟩
  rw [LogContext.ofTraceContext, LogContext.ofTraceContext, htraceId, hspanId, hflags]

/-- The headers of a valid context denote it, without its parent. -/
lemma extracted_inject (hvalid : context.isValid = true) :
    extracted (injectTraceparent context, injectTracestate context) =
      some (some context.withoutParent) := by
  have hextract := (denotesContext_injectTraceparent hvalid).extractTraceparent_eq
  rw [extracted, hextract]
  rfl

/-- Headers only denote valid contexts. -/
lemma isValid_of_extracted {headers : ByteString × ByteString}
    (hextracted : extracted headers = some (some context)) : context.isValid = true := by
  unfold extracted at hextracted
  cases hextract : extractTraceparent headers.1 headers.2 with
  | none => simp [hextract] at hextracted
  | some outcome =>
    cases outcome with
    | error fault => simp [hextract] at hextracted
    | ok inbound =>
      obtain rfl : inbound = context := by simpa [hextract] using hextracted
      exact (extractTraceparent_eq_ok_iff.mp hextract).2.1

namespace Accounted

variable {w : World θ}

/-- A new node that begins a trace or continues a node. -/
lemma addNode (hw : Accounted w) (node : TraceNode) (hvalid : node.context.isValid = true)
    (hnode : node.IsOrigin ∨ ∃ parent ∈ w.nodes, parent.Continues node) :
    Accounted { w with nodes := w.nodes ++ [node] } := by
  have hsub : w.nodes ⊆ w.nodes ++ [node] := List.subset_append_left _ _
  exact
    { current := fun t c hc => (hw.current t c hc).mono hsub
      active := hw.active
      saved := fun guard hguard c hc => (hw.saved guard hguard c hc).mono hsub
      span := fun guard hguard => (hw.span guard hguard).mono hsub
      previous := fun scope hscope c hc => (hw.previous scope hscope c hc).mono hsub
      held := fun c hc => (hw.held c hc).mono hsub
      sent := fun headers hheaders => by
        obtain ⟨c, hc, heq⟩ := hw.sent headers hheaders
        exact ⟨c, hc.mono hsub, heq⟩
      valid := fun other hother => by
        rcases List.mem_append.mp hother with hold | hnew
        · exact hw.valid other hold
        · rw [List.mem_singleton.mp hnew]
          exact hvalid
      grown := hw.grown.concat hnode
      records := fun record hrecord identity hidentity => by
        obtain ⟨other, hother, heq⟩ := hw.records record hrecord identity hidentity
        exact ⟨other, hsub hother, heq⟩ }

/-- A thread gets a known context, or none. -/
lemma setCurrent [DecidableEq θ] (hw : Accounted w) (thread : θ) {state : CurrentContextState}
    (hstate : ∀ c ∈ currentContext state, Known w.nodes c) :
    Accounted { w with current := Function.update w.current thread state } := by
  refine { hw with current := fun t => ?_ }
  rcases eq_or_ne t thread with rfl | hne
  · simpa using hstate
  · simpa only [Function.update_of_ne hne] using hw.current t

/-- A program holds more contexts, known ones. -/
lemma hold (hw : Accounted w) {contexts : List TraceContext}
    (hknown : ∀ c ∈ contexts, Known w.nodes c) :
    Accounted { w with held := contexts ++ w.held } := by
  refine { hw with held := fun c hc => ?_ }
  rcases List.mem_append.mp hc with hnew | hold
  · exact hknown c hnew
  · exact hw.held c hold

/-- A guard is destroyed, or taken out to be put back. -/
lemma eraseGuard (hw : Accounted w) (guard : SpanGuard) :
    Accounted { w with guards := w.guards.erase guard } :=
  { hw with
    active := fun other hother => hw.active other (List.mem_of_mem_erase hother)
    saved := fun other hother => hw.saved other (List.mem_of_mem_erase hother)
    span := fun other hother => hw.span other (List.mem_of_mem_erase hother) }

/-- There is a new active guard, with a known span, that has saved a known context. -/
lemma addGuard (hw : Accounted w) {guard : SpanGuard} (hactive : guard.active = true)
    (hsaved : ∀ c ∈ guard.saved, Known w.nodes c) (hspan : Known w.nodes guard.span.context) :
    Accounted { w with guards := guard :: w.guards } :=
  { hw with
    active := List.forall_mem_cons.mpr ⟨hactive, hw.active⟩
    saved := List.forall_mem_cons.mpr ⟨hsaved, hw.saved⟩
    span := List.forall_mem_cons.mpr ⟨hspan, hw.span⟩ }

/-- A record with the identity of a known context, or without one, is written. -/
lemma addRecord (hw : Accounted w) {record : Option LogRecord} {context : Option TraceContext}
    (hrecord : ∀ r ∈ record, r.context = makeLogContext context)
    (hknown : ∀ c ∈ context, Known w.nodes c) :
    Accounted { w with records := w.records ++ record.toList } := by
  refine { hw with records := fun r hr identity hidentity => ?_ }
  rcases List.mem_append.mp hr with hold | hnew
  · exact hw.records r hold identity hidentity
  · rw [hrecord r (by simpa using hnew), makeLogContext] at hidentity
    obtain ⟨c, rfl, rfl⟩ := Option.map_eq_some_iff.mp hidentity
    exact (hknown c rfl).exists_identity

/-- A span is started: it begins a trace or continues a node. -/
lemma addSpan [DecidableEq θ] (hw : Accounted w) {thread : θ} {start : Start}
    (hgiven : start.IsGiven w.held) :
    Accounted { w with
      current := Function.update w.current thread (start.run (w.current thread)).2
      guards := (start.run (w.current thread)).1 :: w.guards
      nodes := w.nodes ++ [start.node (w.current thread)] } := by
  have hnode : (start.node (w.current thread)).IsOrigin ∨
      ∃ parent ∈ w.nodes, parent.Continues (start.node (w.current thread)) := by
    cases hparent : start.parent (w.current thread) with
    | none => exact Or.inl (Start.isOrigin_node hparent)
    | some context =>
      have hknown : Known w.nodes context := by
        cases start with
        | startSpan around name => exact hw.current thread context hparent
        | startServerSpan around name parent =>
          obtain rfl := Option.some_inj.mp hparent
          exact hw.held parent hgiven
      obtain ⟨hvalid, node, hmem, heq⟩ := hknown
      exact Or.inr ⟨node, hmem, Start.continues_node hparent hvalid heq⟩
  have hadd := hw.addNode (start.node (w.current thread)) Start.isValid_run hnode
  have hspan : Known (w.nodes ++ [start.node (w.current thread)])
      (start.run (w.current thread)).1.span.context :=
    ⟨Start.isValid_run, _, List.mem_append_right _ List.mem_cons_self, rfl⟩
  refine (hadd.addGuard Start.active_run (fun c hc => ?_) hspan).setCurrent thread fun c hc => ?_
  · rw [Start.saved_run] at hc
    exact hadd.current thread c hc
  · rw [Start.currentContext_run] at hc
    exact Option.some_inj.mp hc ▸ hspan

/-- Contexts that are held are known. -/
lemma known_of_held (hw : Accounted w) {context : Option TraceContext}
    (hheld : ∀ c ∈ context, c ∈ w.held) : ∀ c ∈ context, Known w.nodes c :=
  fun c hc => hw.held c (hheld c hc)

/-- Headers that have been sent denote known contexts. -/
lemma known_of_sent (hw : Accounted w) {headers : ByteString × ByteString}
    (hsent : headers ∈ w.sent) {context : Option TraceContext}
    (hextracted : extracted headers = some context) : ∀ c ∈ context.toList, Known w.nodes c := by
  obtain ⟨inbound, hknown, rfl⟩ := hw.sent headers hsent
  rw [extracted_inject hknown.1] at hextracted
  obtain rfl := Option.some_inj.mp hextracted
  simpa using hknown.withoutParent

/-- A context comes from outside, or headers that denote none. -/
lemma addInbound (hw : Accounted w) {headers : ByteString × ByteString}
    {context : Option TraceContext} (hextracted : extracted headers = some context) :
    Accounted { w with
      held := context.toList ++ w.held
      nodes := w.nodes ++ context.toList.map .inbound } := by
  cases context with
  | none => simpa using hw
  | some inbound =>
    have hvalid := isValid_of_extracted hextracted
    have hadd := hw.addNode (.inbound inbound) hvalid (Or.inl trivial)
    refine hadd.hold fun c hc => ?_
    obtain rfl := List.mem_singleton.mp hc
    exact ⟨hvalid, _, List.mem_append_right _ List.mem_cons_self, rfl⟩

/-- A guard whose span is ended has saved the same context. -/
lemma endGuard (hw : Accounted w) {guard : SpanGuard} (hguard : guard ∈ w.guards) (now : ℤ) :
    Accounted { w with guards := guard.end now :: w.guards.erase guard } := by
  have hactive := hw.active guard hguard
  have hend : guard.end now = { guard with span := guard.span.end now } := if_pos hactive
  have hcontext : (guard.span.end now).context = guard.span.context := by
    unfold Span.end
    split_ifs <;> rfl
  rw [hend]
  refine (hw.eraseGuard guard).addGuard hactive (hw.saved guard hguard) ?_
  rw [hcontext]
  exact hw.span guard hguard

/-- Every step keeps all contexts known. -/
lemma step [DecidableEq θ] (hw : Accounted w) {w' : World θ} {a : TraceStep θ}
    (hs : w.step a = some w') : Accounted w' := by
  cases a <;> simp only [World.step, Option.ite_none_right_eq_some, Option.some.injEq,
    Option.map_eq_some_iff] at hs
  case start thread start =>
    obtain ⟨hgiven, rfl⟩ := hs
    exact hw.addSpan hgiven
  case endSpan guard now =>
    obtain ⟨hguard, rfl⟩ := hs
    exact hw.endGuard hguard now
  case destroy thread guard now =>
    obtain ⟨hguard, rfl⟩ := hs
    refine (hw.eraseGuard guard).setCurrent thread fun c hc => ?_
    rw [currentContext_destroy (hw.active guard hguard)] at hc
    exact hw.saved guard hguard c hc
  case enterScope thread context =>
    obtain ⟨hheld, rfl⟩ := hs
    have hadd : Accounted
        { w with scopes := (⟨currentContext (w.current thread)⟩ :: w.scopes) } :=
      { hw with previous := List.forall_mem_cons.mpr ⟨hw.current thread, hw.previous⟩ }
    refine hadd.setCurrent thread fun c hc => ?_
    rw [KernelTraceContextScope.new, currentContext_setCurrentContext] at hc
    exact hw.known_of_held hheld c hc
  case leaveScope thread scope =>
    obtain ⟨hscope, rfl⟩ := hs
    have hremove : Accounted { w with scopes := w.scopes.erase scope } :=
      { hw with
        previous := fun other hother => hw.previous other (List.mem_of_mem_erase hother) }
    refine hremove.setCurrent thread fun c hc => ?_
    rw [KernelTraceContextScope.destroy, currentContext_setCurrentContext] at hc
    exact hw.previous scope hscope c hc
  case setCurrentContext thread context =>
    obtain ⟨hheld, rfl⟩ := hs
    refine hw.setCurrent thread fun c hc => ?_
    rw [currentContext_setCurrentContext] at hc
    exact hw.known_of_held hheld c hc
  case captureTraceContext thread =>
    subst hs
    exact hw.hold (by simpa using hw.current thread)
  case spanContext guard =>
    obtain ⟨hguard, rfl⟩ := hs
    exact hw.hold (List.forall_mem_singleton.mpr (hw.span guard hguard))
  case send thread =>
    obtain ⟨context, hcurrent, rfl⟩ := hs
    have hknown := hw.current thread context hcurrent
    exact { hw with sent := List.forall_mem_cons.mpr ⟨⟨context, hknown, rfl⟩, hw.sent⟩ }
  case deliver headers =>
    obtain ⟨hsent, context, hextracted, rfl⟩ := hs
    exact hw.hold (hw.known_of_sent hsent hextracted)
  case outside headers =>
    obtain ⟨context, hextracted, rfl⟩ := hs
    exact hw.addInbound hextracted
  case log thread isEnabled call =>
    subst hs
    exact hw.addRecord (fun r hr => context_of_logAt hr) (hw.current thread)
  case logWithContext isEnabled call context =>
    obtain ⟨hheld, rfl⟩ := hs
    exact hw.addRecord (fun r hr => context_of_logWithContextAt hr) (hw.known_of_held hheld)

end Accounted

/-- In every run every context that a thread can get hold of is known. -/
lemma accounted_of_run [DecidableEq θ] {h : List (TraceStep θ)} {w : World θ}
    (hr : (tracing θ).Run h w) : Accounted w := by
  induction hr using Lts.run_induction with
  | nil =>
    exact
      { current := fun t c hc => absurd hc.symm (Option.some_ne_none _)
        active := List.forall_mem_nil _
        saved := List.forall_mem_nil _
        span := List.forall_mem_nil _
        previous := List.forall_mem_nil _
        held := List.forall_mem_nil _
        sent := List.forall_mem_nil _
        valid := List.forall_mem_nil _
        grown := .nil
        records := List.forall_mem_nil _ }
  | concat h a s s' hr hs ih => exact ih.step hs

/-! ### Traces and their log records -/

/-- The nodes are a forest whose trees are the traces. -/
structure IsTraceForest (nodes : List TraceNode) : Prop where
  /-- A span without a parent begins a trace; the parent of any other one is an earlier node. -/
  parents : ∀ (i : ℕ) (node : TraceNode), nodes[i]? = some node →
    node.IsOrigin ∨ ∃ j < i, ∃ parent : TraceNode, nodes[j]? = some parent ∧ parent.Continues node
  /-- Every node descends from the origin of its trace and has its trace identifier and tracestate,
  and, where all samplers follow the parent, its flags. -/
  origins : ∀ node ∈ nodes, ∃ origin ∈ nodes, origin.IsOrigin ∧
    Descends TraceNode.Continues nodes origin node ∧
    node.context.traceId = origin.context.traceId ∧
    node.context.tracestate = origin.context.tracestate ∧
    ((∀ other ∈ nodes, other.FollowsParent) →
      node.context.traceFlags = origin.context.traceFlags)

/-- What a span takes over from the node that it continues. -/
lemma TraceNode.Continues.takes_over {parent node : TraceNode} (hc : parent.Continues node) :
    node.context.traceId = parent.context.traceId ∧
      node.context.tracestate = parent.context.tracestate ∧
      (node.FollowsParent → node.context.traceFlags = parent.context.traceFlags) := by
  cases node with
  | inbound context => exact hc.elim
  | started sampler span => exact ⟨hc.1, hc.2.2.1, hc.2.2.2⟩

/-- A grown list of nodes is a forest of traces. -/
lemma isTraceForest_of_grown {nodes : List TraceNode}
    (hgrown : Grown TraceNode.IsOrigin TraceNode.Continues nodes) : IsTraceForest nodes where
  parents _ _ hnode := hgrown.exists_lt hnode
  origins node hnode := by
    obtain ⟨origin, horigin, hfirst, hpath⟩ := hgrown.exists_origin hnode
    refine ⟨origin, horigin, hfirst, hpath, ?_, ?_, fun hfollows => ?_⟩
    · exact hpath.eq_of_child (f := fun n => n.context.traceId) fun _ _ _ _ hc => hc.takes_over.1
    · exact hpath.eq_of_child (f := fun n => n.context.tracestate) fun _ _ _ _ hc =>
        hc.takes_over.2.1
    · exact hpath.eq_of_child (f := fun n => n.context.traceFlags) fun _ _ b hb hc =>
        hc.takes_over.2.2 (hfollows b hb)

/-- In every run of any number of threads and services the spans and the contexts from outside form
a forest of traces. -/
theorem spans_isTraceForest [DecidableEq θ] {h : List (TraceStep θ)} {w : World θ}
    (hr : (tracing θ).Run h w) : IsTraceForest w.nodes :=
  isTraceForest_of_grown (accounted_of_run hr).grown

/-- A context from outside, for a concrete run. -/
def inboundContext : TraceContext :=
  { traceId := sampleId 15 1, spanId := sampleId 7 1, traceFlags := kSampledFlag,
    tracestate := ascii "a=b" }

/-- Two services with a thread each, for a concrete run. -/
inductive Service
  | frontend
  | backend
  deriving DecidableEq

/-- A run through two services: the first one receives a context from outside and calls the second
one, and both write a log record. -/
def twoServices : List (TraceStep Service) :=
  let call : LogCall := { level := .kInfo, message := ascii "m", source := {}, now := 0 }
  let sent := { inboundContext with spanId := sampleId 7 3 }
  [.outside (injectTraceparent inboundContext, injectTracestate inboundContext),
    .start .frontend
      (.startServerSpan (sampleSurroundings 2 (by decide)) (ascii "in") inboundContext),
    .log .frontend (fun _ => true) call,
    .start .frontend (.startSpan (sampleSurroundings 3 (by decide)) []),
    .send .frontend, .deliver (injectTraceparent sent, injectTracestate sent),
    .start .backend (.startServerSpan (sampleSurroundings 4 (by decide)) (ascii "out") sent),
    .log .backend (fun _ => true) call]

/-- The three spans of the run through two services, and the context from outside. -/
theorem spans_isTraceForest_twoServices : ∃ w, (tracing Service).Run twoServices w ∧
    w.nodes.length = 4 ∧ IsTraceForest w.nodes := by
  obtain ⟨w, hr, hlength⟩ := Lts.exists_run_of_any (L := tracing Service) (h := twoServices)
    (p := fun w => w.nodes.length = 4) (by decide +kernel)
  exact ⟨w, hr, of_decide_eq_true hlength, spans_isTraceForest hr⟩

/-- In every run the identity in a log record is that of a span that has been started or of a
context from outside. -/
theorem records_identify_nodes [DecidableEq θ] {h : List (TraceStep θ)} {w : World θ}
    (hr : (tracing θ).Run h w) {record : LogRecord} (hrecord : record ∈ w.records) :
    record.context = none ∨
      ∃ node ∈ w.nodes, record.context = some (.ofTraceContext node.context) := by
  cases hidentity : record.context with
  | none => exact Or.inl rfl
  | some identity =>
    obtain ⟨node, hnode, rfl⟩ :=
      (accounted_of_run hr).records record hrecord identity hidentity
    exact Or.inr ⟨node, hnode, rfl⟩

/-- The two log records of the run through two services. -/
theorem records_identify_nodes_twoServices : ∃ w, (tracing Service).Run twoServices w ∧
    w.records.length = 2 ∧ ∀ record ∈ w.records, record.context = none ∨
      ∃ node ∈ w.nodes, record.context = some (.ofTraceContext node.context) := by
  obtain ⟨w, hr, hlength⟩ := Lts.exists_run_of_any (L := tracing Service) (h := twoServices)
    (p := fun w => w.records.length = 2) (by decide +kernel)
  exact ⟨w, hr, of_decide_eq_true hlength, fun _ => records_identify_nodes hr⟩

end GalayTracing
