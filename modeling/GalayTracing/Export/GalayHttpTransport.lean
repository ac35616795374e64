import GalayTracing.Export.WireHeaders
import GalayTracing.Foundation.Monitor

/-!
# The transport over galay-http

The transport sends each request in a coroutine on a runtime of its own, which the first call makes
and starts.  The calls are behind a mutex, and a call waits for its coroutine, so one request is on
the network at a time.  A call on a thread of a scheduler is rejected in front of the mutex: such a
thread never waits here.

What the two libraries do is left open: the calls of galay-http may fail or throw, and making the
runtime, starting it or joining a coroutine may throw.  A response with a status of success is then
always that of a server that was sent the body of this very request (`transport_serves`).
-/

namespace GalayTracing

namespace OtlpHttpExporter

/-! ### One request -/

/-- What a library throws: a `std::exception` with its text, or something else. -/
inductive Thrown
  | exception (what : ByteString)
  | other
  deriving DecidableEq

/-- The members of a response that the transport reads. -/
structure HttpResponse where
  code : ℤ
  body : ByteString
  deriving DecidableEq

/-- What galay-http does during one request: each of its calls returns something or throws. -/
structure Exchange where
  /-- `HttpClientBuilder().build()`. -/
  build : Except Thrown Unit
  /-- `client.connect(endpoint)`; the inner error is what the call reports. -/
  connect : Except Thrown (Except ByteString Unit)
  /-- `client.getSession()`. -/
  getSession : Except Thrown Unit
  /-- `session.post(...)`; a response may be incomplete. -/
  post : Except Thrown (Except ByteString (Option HttpResponse))
  /-- `client.close()`. -/
  close : Except Thrown Unit

/-- The calls of galay-http that reach the network. -/
inductive NetworkCall
  | connect (endpoint : ByteString) (timeout : ℤ)
  | post (path body contentType : ByteString) (headers : HeaderMap) (timeout : ℤ)
  | close

/-- `HttpUrl::parse`. -/
abbrev ParseUrl := ByteString → Except Thrown (Option HttpUrl)

/-- The body of the `try` block of `sendWithGalayHttp`: its calls of the network, and its
response. -/
def tryToSend (parse : ParseUrl) (exchange : Exchange) (request : OtlpHttpRequest) :
    List NetworkCall × Except Thrown OtlpHttpResponse :=
  match parse request.endpoint with
  | .error e => ([], .error e)
  | .ok none => ([], .ok { error := ascii "invalid OTLP HTTP endpoint" })
  | .ok (some parsed) =>
    if parsed.isSecure then
      ([], .ok { error := ascii "https OTLP endpoints require a TLS transport" })
    else
      let (contentType, headers) := wireHeaders parsed request.headers
      let connect := .connect request.endpoint request.timeout
      match exchange.build, exchange.connect, exchange.getSession with
      | .error e, _, _ => ([], .error e)
      | .ok (), .error e, _ => ([connect], .error e)
      | .ok (), .ok (.error message), _ => ([connect], .ok { error := message })
      | .ok (), .ok (.ok ()), .error e => ([connect], .error e)
      | .ok (), .ok (.ok ()), .ok () =>
        let post := .post parsed.path request.body contentType headers request.timeout
        match exchange.post with
        | .error e => ([connect, post], .error e)
        | .ok result =>
          let response : OtlpHttpResponse :=
            match result with
            | .error message => { error := message }
            | .ok none => { error := ascii "incomplete OTLP HTTP response" }
            | .ok (some response) => { statusCode := response.code, body := response.body }
          ([connect, post, .close], exchange.close.map fun _ => response)

/-- What the `catch` blocks make of the end of the `try` block. -/
def caught : Except Thrown OtlpHttpResponse → OtlpHttpResponse
  | .ok response => response
  | .error (.exception what) => { error := what }
  | .error .other => { error := ascii "unknown OTLP HTTP transport error" }

/-- `sendWithGalayHttp`: its calls of the network, and its response. -/
def sendWithGalayHttp (parse : ParseUrl) (exchange : Exchange) (request : OtlpHttpRequest) :
    List NetworkCall × OtlpHttpResponse :=
  let (calls, response) := tryToSend parse exchange request
  (calls, caught response)

/-- The server was sent the request and has answered it: the calls of the network are those of one
`POST` of the body, with the headers of the request, and its answer is the response. -/
def Delivered (parse : ParseUrl) (exchange : Exchange) (request : OtlpHttpRequest)
    (response : OtlpHttpResponse) : Prop :=
  ∃ url : HttpUrl, parse request.endpoint = .ok (some url) ∧ url.isSecure = false ∧
    exchange.post = .ok (.ok (some ⟨response.statusCode, response.body⟩)) ∧
    (sendWithGalayHttp parse exchange request).1 =
      [.connect request.endpoint request.timeout,
        .post url.path request.body (wireHeaders url request.headers).1
          (wireHeaders url request.headers).2 request.timeout,
        .close]

variable {parse : ParseUrl} {exchange : Exchange} {request : OtlpHttpRequest}

/-- All that the `catch` blocks and the error paths return has the status zero. -/
lemma caught_of_error (e : Thrown) : (caught (.error e)).statusCode = 0 := by
  cases e <;> rfl

/-- A response with another status than zero comes from the server that was sent the request. -/
lemma delivered_of_status (hstatus : (sendWithGalayHttp parse exchange request).2.statusCode ≠ 0) :
    Delivered parse exchange request (sendWithGalayHttp parse exchange request).2 := by
  have herror := caught_of_error
  cases hparse : parse request.endpoint with
  | error e => simp [sendWithGalayHttp, tryToSend, hparse, herror] at hstatus
  | ok parsed =>
    cases parsed with
    | none => simp [sendWithGalayHttp, tryToSend, hparse, caught] at hstatus
    | some url =>
      cases hsecure : url.isSecure with
      | true => simp [sendWithGalayHttp, tryToSend, hparse, hsecure, caught] at hstatus
      | false =>
        refine ⟨url, hparse, hsecure, ?_⟩
        simp only [sendWithGalayHttp, tryToSend, hparse, hsecure, Bool.false_eq_true, if_false]
          at hstatus ⊢
        split at hstatus
        · exact absurd (herror _) hstatus
        · exact absurd (herror _) hstatus
        · exact absurd rfl hstatus
        · exact absurd (herror _) hstatus
        · cases hpost : exchange.post with
          | error e => exact absurd (by simp only [hpost, herror]) hstatus
          | ok result =>
            cases hclose : exchange.close with
            | error e => exact absurd (by simp only [hpost, hclose, Except.map, herror]) hstatus
            | ok closed =>
              cases result with
              | error message => exact absurd (by simp only [hpost, hclose]; rfl) hstatus
              | ok complete =>
                cases complete with
                | none => exact absurd (by simp only [hpost, hclose]; rfl) hstatus
                | some response => exact ⟨rfl, rfl⟩

/-! ### The calls of the transport -/

/-- `GalayHttpOtlpTransportConfig`. -/
structure GalayHttpOtlpTransportConfig where
  ioSchedulerCount : ℕ := 1
  rejectOnRuntimeThread : Bool := true
  deriving DecidableEq

/-- A `galay::kernel::Runtime`. -/
structure Runtime where
  ioSchedulerCount : ℕ
  started : Bool
  deriving DecidableEq

/-- `GalayHttpTransportState` without its mutex. -/
structure GalayHttpTransportState where
  config : GalayHttpOtlpTransportConfig
  runtime : Option Runtime := none
  deriving DecidableEq

/-- The constructor of `GalayHttpTransportState`. -/
def GalayHttpTransportState.new (config : GalayHttpOtlpTransportConfig) :
    GalayHttpTransportState where
  config := { config with ioSchedulerCount := max config.ioSchedulerCount 1 }

/-- The test in front of the mutex: what `send` returns on a thread of a scheduler. -/
def rejection (config : GalayHttpOtlpTransportConfig) (onScheduler : Bool) :
    Option OtlpHttpResponse :=
  if config.rejectOnRuntimeThread && onScheduler then
    some { error := ascii "synchronous OTLP export is not allowed on a galay scheduler thread" }
  else none

/-- The program points of `send` while it holds the mutex. -/
inductive SendPoint
  /-- `if (m_runtime)` of `ensureRuntime`. -/
  | ensureRuntime (request : OtlpHttpRequest)
  /-- `m_runtime = std::make_unique<galay::kernel::Runtime>(runtime_config)`. -/
  | construct (request : OtlpHttpRequest)
  /-- `m_runtime->start()`. -/
  | start (request : OtlpHttpRequest)
  /-- `m_runtime->spawn(...)` and `join.join()`. -/
  | spawn (request : OtlpHttpRequest)
  /-- The call is about to return, or to throw. -/
  | done (outcome : Outcome)
  deriving DecidableEq

/-- The operations of `send` while it holds the mutex. -/
inductive SendOp
  /-- There is a runtime, or there is none. -/
  | ensureRuntime (request : OtlpHttpRequest) (present : Bool)
  /-- A runtime is made, or this throws. -/
  | construct (request : OtlpHttpRequest) (ok : Bool)
  /-- The runtime is started, or this throws. -/
  | start (request : OtlpHttpRequest) (ok : Bool)
  /-- The coroutine of the request runs, and ends. -/
  | join (request : OtlpHttpRequest) (exchange : Exchange)
  /-- The coroutine cannot be spawned or joined. -/
  | throws (request : OtlpHttpRequest)

/-- The operations, as `send` has them. -/
def sendCommand (parse : ParseUrl) : SendOp → Command GalayHttpTransportState SendPoint
  | .ensureRuntime request present =>
    { source := .ensureRuntime request
      guard := fun state => state.runtime.isSome == present
      update := id
      target := if present then .spawn request else .construct request }
  | .construct request ok =>
    { source := .construct request
      guard := fun _ => true
      update := fun state =>
        if ok then { state with runtime := some ⟨state.config.ioSchedulerCount, false⟩ } else state
      target := if ok then .start request else .done .thrown }
  | .start request ok =>
    { source := .start request
      guard := fun _ => true
      update := fun state =>
        if ok then { state with runtime := state.runtime.map ({ · with started := true }) }
        else state
      target := if ok then .spawn request else .done .thrown }
  | .join request exchange =>
    { source := .spawn request
      guard := fun _ => true
      update := id
      target := .done (.response (sendWithGalayHttp parse exchange request).2) }
  | .throws request =>
    { source := .spawn request
      guard := fun _ => true
      update := id
      target := .done .thrown }

/-- `GalayHttpTransportState`: its mutex, and what `send` does behind it. -/
def transportState (parse : ParseUrl) :
    Monitor GalayHttpTransportState OtlpHttpRequest Outcome SendPoint SendOp where
  start := .ensureRuntime
  body := sendCommand parse
  answer
    | .done outcome => some outcome
    | _ => none

/-- The steps of the threads that use a transport. -/
inductive TransportStep (ι : Type)
  /-- The call of thread `t` is rejected in front of the mutex. -/
  | rejected (t : ι)
  /-- A step of a call that is not rejected. -/
  | locked (step : Monitor.Label ι OtlpHttpRequest Outcome SendOp)

/-- The states of a transport and its threads. -/
abbrev TransportThreads (ι : Type) :=
  Monitor.State ι GalayHttpTransportState OtlpHttpRequest Outcome SendPoint

variable {ι : Type} [DecidableEq ι]

/-- A transport that the threads `ι` use, some of which are threads of a scheduler. -/
def transport (parse : ParseUrl) (config : GalayHttpOtlpTransportConfig) (onScheduler : ι → Bool) :
    Lts (TransportThreads ι) (TransportStep ι) where
  init := ((transportState parse).system ι (.new config)).init
  step s
    | .rejected t =>
      if s.pc t = .idle ∧ (rejection config (onScheduler t)).isSome = true then some s else none
    | .locked (.call t request) =>
      if rejection config (onScheduler t) = none then
        (transportState parse).step s (.call t request)
      else none
    | .locked step => (transportState parse).step s step

/-- The step of the monitor, if it is one. -/
def TransportStep.labels : TransportStep ι → List (Monitor.Label ι OtlpHttpRequest Outcome SendOp)
  | .rejected _ => []
  | .locked step => [step]

/-- What is done behind the mutex, in the order in which the calls held it. -/
def behindMutex (h : List (TransportStep ι)) :
    List (Monitor.Section OtlpHttpRequest Outcome SendOp) :=
  (h.flatMap TransportStep.labels).flatMap Monitor.Label.sections

/-- The requests whose coroutines have run, each with what galay-http did. -/
def served (h : List (Monitor.Section OtlpHttpRequest Outcome SendOp)) :
    List (OtlpHttpRequest × Exchange) :=
  h.filterMap fun
    | .act (.join request exchange) => some (request, exchange)
    | _ => none

/-- The calls that have returned a response. -/
def answered (h : List (Monitor.Section OtlpHttpRequest Outcome SendOp)) :
    List (OtlpHttpRequest × OtlpHttpResponse) :=
  (Monitor.answers h).filterMap fun
    | (request, .response response) => some (request, response)
    | (_, .thrown) => none

/-- The runtimes that have been made. -/
def constructed (h : List (Monitor.Section OtlpHttpRequest Outcome SendOp)) : ℕ :=
  h.countP fun
    | .act (.construct _ ok) => ok
    | _ => false

/-- Starting the runtime has thrown. -/
def startThrew (h : List (Monitor.Section OtlpHttpRequest Outcome SendOp)) : Bool :=
  h.any fun
    | .act (.start _ ok) => !ok
    | _ => false

/-! ### One request at a time -/

/-- The response that a call is about to return. -/
def unreturned : Option (OtlpHttpRequest × SendPoint) → List (OtlpHttpRequest × OtlpHttpResponse)
  | some (request, .done (.response response)) => [(request, response)]
  | _ => []

/-- What holds at a program point. -/
def SendPoint.Right (state : GalayHttpTransportState) (threw : Bool) (request : OtlpHttpRequest) :
    SendPoint → Prop
  | .ensureRuntime r => r = request ∧ (threw = false → ∀ rt ∈ state.runtime, rt.started = true)
  | .construct r => r = request ∧ state.runtime = none
  | .start r => r = request ∧ state.runtime.isSome = true
  | .spawn r => r = request ∧ ∃ rt, state.runtime = some rt ∧ (threw = false → rt.started = true)
  | .done _ => threw = false → ∀ rt ∈ state.runtime, rt.started = true

/-- The transport between two operations. -/
structure Serving (parse : ParseUrl) (config : GalayHttpOtlpTransportConfig)
    (h : List (Monitor.Section OtlpHttpRequest Outcome SendOp)) (state : GalayHttpTransportState)
    (current : Option (OtlpHttpRequest × SendPoint)) : Prop where
  config_eq : state.config = (GalayHttpTransportState.new config).config
  /-- The runtime is the only one that has been made. -/
  runtime : constructed h = state.runtime.toList.length
  /-- Between the calls the runtime is started, unless that has thrown. -/
  started : current = none → startThrew h = false → ∀ rt ∈ state.runtime, rt.started = true
  schedulers : ∀ rt ∈ state.runtime, rt.ioSchedulerCount = max config.ioSchedulerCount 1
  right : ∀ request q, current = some (request, q) → q.Right state (startThrew h) request
  /-- Every response is that of its own request. -/
  answers : answered h ++ unreturned current = (served h).map fun (request, exchange) =>
    (request, (sendWithGalayHttp parse exchange request).2)

section Sections

variable {config : GalayHttpOtlpTransportConfig}
  {h h' : List (Monitor.Section OtlpHttpRequest Outcome SendOp)}

@[simp]
lemma served_append : served (h ++ h') = served h ++ served h' := List.filterMap_append

@[simp]
lemma answered_append : answered (h ++ h') = answered h ++ answered h' := by
  rw [answered, Monitor.answers_append, List.filterMap_append]
  rfl

@[simp]
lemma constructed_append : constructed (h ++ h') = constructed h + constructed h' :=
  List.countP_append

@[simp]
lemma startThrew_append : startThrew (h ++ h') = (startThrew h || startThrew h') :=
  List.any_append

section Operations

variable {state : GalayHttpTransportState} {op : SendOp}
  (hS : Serving parse config h state (some (request, (sendCommand parse op).source)))
  (hg : (sendCommand parse op).guard state = true)

include hS

/-- Only the construction makes a runtime, where there is none. -/
lemma Serving.runtime_act : constructed (h ++ [.act op]) =
    ((sendCommand parse op).update state).runtime.toList.length := by
  have hright := hS.right request _ rfl
  have hruntime := hS.runtime
  cases op with
  | ensureRuntime | join | throws => simpa [constructed, sendCommand] using hruntime
  | construct r ok =>
    obtain ⟨-, hnone⟩ := hright
    rw [hnone] at hruntime
    rw [constructed_append, hruntime]
    cases ok with
    | true => rfl
    | false => simp [constructed, sendCommand, hnone]
  | start r ok =>
    cases ok with
    | true => cases hrt : state.runtime <;> simpa [constructed, sendCommand, hrt] using hruntime
    | false => simpa [constructed, sendCommand] using hruntime

/-- A runtime is made with the configured number of schedulers. -/
lemma Serving.schedulers_act : ∀ rt ∈ ((sendCommand parse op).update state).runtime,
    rt.ioSchedulerCount = max config.ioSchedulerCount 1 := by
  have hschedulers := hS.schedulers
  intro rt hrt
  cases op with
  | ensureRuntime r present | join r exchange | throws r => exact hschedulers rt hrt
  | construct r ok =>
    cases ok with
    | false => exact hschedulers rt hrt
    | true =>
      obtain rfl := Option.some_inj.mp hrt
      exact congrArg GalayHttpOtlpTransportConfig.ioSchedulerCount hS.config_eq
  | start r ok =>
    cases ok with
    | false => exact hschedulers rt hrt
    | true =>
      obtain ⟨rt₀, hrt₀, rfl⟩ := Option.map_eq_some_iff.mp hrt
      exact hschedulers rt₀ hrt₀

/-- Only the join gives a response, that of the request of the call. -/
lemma Serving.answers_act : answered (h ++ [.act op]) ++
    unreturned (some (request, (sendCommand parse op).target)) =
      (served (h ++ [.act op])).map fun (request, exchange) =>
        (request, (sendWithGalayHttp parse exchange request).2) := by
  have hright := hS.right request _ rfl
  have hanswers := hS.answers
  have hold : answered (h ++ [.act op]) = answered h := by
    rw [answered_append]
    exact List.append_nil _
  rw [hold, served_append, List.map_append, ← hanswers]
  cases op with
  | join r exchange =>
    obtain ⟨rfl, -⟩ := hright
    simp [served, unreturned, sendCommand]
  | throws r => simp [served, unreturned, sendCommand]
  | ensureRuntime r ok | construct r ok | start r ok =>
    cases ok <;> simp [served, unreturned, sendCommand]

include hg

/-- Every program point is reached with what holds there. -/
lemma Serving.right_act : (sendCommand parse op).target.Right
    ((sendCommand parse op).update state) (startThrew (h ++ [.act op])) request := by
  have hright := hS.right request _ rfl
  rw [startThrew_append]
  cases op with
  | ensureRuntime r present =>
    obtain ⟨rfl, hstarted⟩ := hright
    obtain rfl : state.runtime.isSome = present := beq_iff_eq.mp hg
    cases hruntime : state.runtime with
    | none => exact ⟨rfl, hruntime⟩
    | some rt =>
      refine ⟨rfl, rt, hruntime, fun hthrew => hstarted ?_ rt hruntime⟩
      exact (Bool.or_eq_false_iff.mp hthrew).1
  | construct r ok =>
    obtain ⟨rfl, hnone⟩ := hright
    cases ok with
    | true => exact ⟨rfl, rfl⟩
    | false =>
      intro _ rt hrt
      exact absurd (hnone.symm.trans hrt).symm (Option.some_ne_none _)
  | start r ok =>
    obtain ⟨rfl, hsome⟩ := hright
    obtain ⟨rt, hrt⟩ := Option.isSome_iff_exists.mp hsome
    cases ok with
    | true =>
      have hmap := congrArg (Option.map ({ · with started := true })) hrt
      exact ⟨rfl, { rt with started := true }, hmap, fun _ => rfl⟩
    | false =>
      intro hthrew
      exact Bool.noConfusion (Bool.or_eq_false_iff.mp hthrew).2
  | join r exchange | throws r =>
    obtain ⟨rfl, rt, hrt, hstarted⟩ := hright
    intro hthrew rt' hrt'
    obtain rfl := Option.some_inj.mp (hrt.symm.trans hrt')
    exact hstarted (Bool.or_eq_false_iff.mp hthrew).1

/-- An operation of a call that holds the mutex. -/
lemma Serving.act : Serving parse config (h ++ [.act op]) ((sendCommand parse op).update state)
    (some (request, (sendCommand parse op).target)) where
  config_eq := by
    rw [← hS.config_eq]
    cases op with
    | ensureRuntime | join | throws => rfl
    | construct r ok | start r ok => cases ok <;> rfl
  runtime := hS.runtime_act
  started hnone := absurd hnone (Option.some_ne_none _)
  schedulers := hS.schedulers_act
  right request' q hq := by
    obtain ⟨rfl, rfl⟩ := Prod.mk.inj (Option.some_inj.mp hq)
    exact hS.right_act hg
  answers := hS.answers_act

end Operations

/-- What is known of the transport holds after every sequence of calls. -/
lemma serving_of_run {s : GalayHttpTransportState × Option (OtlpHttpRequest × SendPoint)}
    (hr : ((transportState parse).sequential (.new config)).Run h s) :
    Serving parse config h s.1 s.2 := by
  induction hr using Lts.run_induction with
  | nil =>
    exact ⟨rfl, rfl, fun _ _ rt hrt => absurd hrt.symm (Option.some_ne_none _),
      fun rt hrt => absurd hrt.symm (Option.some_ne_none _),
      fun request q hq => absurd hq.symm (Option.some_ne_none _), rfl⟩
  | concat h a s s' hr hs ih =>
    cases a with
    | enter request =>
      obtain ⟨hfree, rfl⟩ := Monitor.sectionStep_enter_iff.mp hs
      have hstarted := ih.started hfree
      have hanswers := ih.answers
      rw [hfree] at hanswers
      refine ⟨ih.config_eq, ?_, fun hnone => absurd hnone (Option.some_ne_none _), ih.schedulers,
        fun r q hq => ?_, ?_⟩
      · rw [constructed_append, ih.runtime]
        rfl
      · obtain ⟨rfl, rfl⟩ := Prod.mk.inj (Option.some_inj.mp hq)
        refine ⟨rfl, fun hthrew => hstarted ?_⟩
        rw [startThrew_append, Bool.or_eq_false_iff] at hthrew
        exact hthrew.1
      · rw [answered_append, served_append]
        simpa [answered, Monitor.answers, served, unreturned, transportState] using hanswers
    | act op =>
      obtain ⟨hg, request, hcurrent, rfl⟩ := Monitor.sectionStep_act_iff.mp hs
      rw [hcurrent] at ih
      exact ih.act hg
    | leave request outcome =>
      obtain ⟨q, hcurrent, ha, rfl⟩ := Monitor.sectionStep_leave_iff.mp hs
      obtain rfl : q = .done outcome := by
        cases q with
        | done answer => exact congrArg SendPoint.done (Option.some_inj.mp ha)
        | _ => cases ha
      have hright := ih.right request _ hcurrent
      have hanswers := ih.answers
      rw [hcurrent] at hanswers
      refine ⟨ih.config_eq, ?_, fun _ hthrew => hright ?_, ih.schedulers,
        fun r q hq => absurd hq.symm (Option.some_ne_none _), ?_⟩
      · rw [constructed_append, ih.runtime]
        rfl
      · rw [startThrew_append, Bool.or_eq_false_iff] at hthrew
        exact hthrew.1
      · rw [answered_append, served_append]
        cases outcome with
        | response response =>
          simpa [answered, Monitor.answers, served, unreturned] using hanswers
        | thrown => simpa [answered, Monitor.answers, served, unreturned] using hanswers

end Sections

/-! ### The threads that use a transport -/

section Threads

variable {config : GalayHttpOtlpTransportConfig} {onScheduler : ι → Bool}
  {h : List (TransportStep ι)} {s s' : TransportThreads ι}

/-- A step of a call that is not rejected is one of the monitor. -/
lemma step_of_locked {step : Monitor.Label ι OtlpHttpRequest Outcome SendOp}
    (hs : (transport parse config onScheduler).step s (.locked step) = some s') :
    (transportState parse).step s step = some s' ∧
      ∀ t request, step = .call t request → rejection config (onScheduler t) = none := by
  cases step with
  | call t request =>
    simp only [transport] at hs
    split_ifs at hs with hnone
    exact ⟨hs, fun t' request' heq => by cases heq; exact hnone⟩
  | enter | act | leave | ret => exact ⟨hs, nofun⟩

/-- A run of the threads is one of the monitor. -/
lemma run_locked (hr : (transport parse config onScheduler).Run h s) :
    ((transportState parse).system ι (.new config)).Run (h.flatMap TransportStep.labels) s := by
  refine Lts.run_refinement (f := TransportStep.labels) (fun s => s) rfl
    (fun h a s s' _ hs => ?_) hr
  cases a with
  | rejected t =>
    simp only [transport] at hs
    split_ifs at hs
    exact hs
  | locked step =>
    exact Option.bind_eq_some_iff.mpr ⟨s', (step_of_locked hs).1, rfl⟩

/-- A thread of a scheduler never waits for the transport. -/
lemma idle_of_rejected (hr : (transport parse config onScheduler).Run h s) {t : ι}
    (hreject : rejection config (onScheduler t) ≠ none) : s.pc t = .idle := by
  induction hr using Lts.run_induction with
  | nil => rfl
  | concat h a s s' hr hs ih =>
    cases a with
    | rejected t' =>
      simp only [transport] at hs
      split_ifs at hs
      obtain rfl := Option.some_inj.mp hs
      exact ih
    | locked step =>
      obtain ⟨hstep, hcall⟩ := step_of_locked hs
      have ht : t ≠ step.thread := by
        rintro rfl
        by_cases hcalls : ∃ t request, step = .call t request
        · obtain ⟨t', request, rfl⟩ := hcalls
          exact hreject (hcall t' request rfl)
        · push Not at hcalls
          exact Monitor.pc_ne_idle_of_step hstep hcalls ih
      rw [Monitor.pc_of_thread_ne hstep ht, ih]

/-- What the transport promises to the threads that use it. -/
structure Serves (parse : ParseUrl) (config : GalayHttpOtlpTransportConfig)
    (onScheduler : ι → Bool) (h : List (TransportStep ι)) (s : TransportThreads ι) : Prop where
  /-- A thread of a scheduler never waits, if the configuration says so. -/
  neverWaits : ∀ t, rejection config (onScheduler t) ≠ none → s.pc t = .idle
  /-- At most one runtime is made. -/
  oneRuntime : constructed (behindMutex h) ≤ 1
  /-- A coroutine is spawned on a runtime with the configured schedulers, but at least one, and
  this runtime is started, unless that has thrown. -/
  spawns : ∀ t request, s.pc t = .inside request (.spawn request) → ∃ rt, s.data.runtime = some rt ∧
    rt.ioSchedulerCount = max config.ioSchedulerCount 1 ∧
      (startThrew (behindMutex h) = false → rt.started = true)
  /-- The responses are those of the requests that were sent, one after the other. -/
  inOrder : answered (behindMutex h) <+: (served (behindMutex h)).map fun (request, exchange) =>
    (request, (sendWithGalayHttp parse exchange request).2)
  /-- A request that counts as successful was sent to the server, which answered it so. -/
  delivered : ∀ request response, (request, response) ∈ answered (behindMutex h) →
    resultOf (.response response) = .kSuccess →
      ∃ exchange, (request, exchange) ∈ served (behindMutex h) ∧
        Delivered parse exchange request response

/-- In every run of any number of threads the transport makes one runtime at most, answers every
request with the response of its own coroutine, and reports success only for what a server has
received and answered. -/
theorem transport_serves (hr : (transport parse config onScheduler).Run h s) :
    Serves parse config onScheduler h s := by
  have hrun := run_locked hr
  have hserving : Serving parse config (behindMutex h) s.data s.current :=
    serving_of_run (Monitor.run_sequential hrun)
  have hinOrder : answered (behindMutex h) <+: (served (behindMutex h)).map
      fun (request, exchange) => (request, (sendWithGalayHttp parse exchange request).2) :=
    ⟨_, hserving.answers⟩
  refine ⟨fun t => idle_of_rejected hr, ?_, fun t request hpc => ?_, hinOrder,
    fun request response hmem hsuccess => ?_⟩
  · rw [hserving.runtime]
    cases s.data.runtime <;> simp
  · have hcurrent := (Monitor.exclusive_of_run hrun).current hpc
    obtain ⟨-, rt, hrt, hstarted⟩ := hserving.right _ _ hcurrent
    exact ⟨rt, hrt, hserving.schedulers rt hrt, hstarted⟩
  · obtain ⟨⟨r, exchange⟩, hserved, heq⟩ := List.mem_map.mp (hinOrder.subset hmem)
    obtain ⟨rfl, rfl⟩ := Prod.mk.inj heq
    refine ⟨exchange, hserved, delivered_of_status fun hzero => ?_⟩
    simp [resultOf, hzero] at hsuccess

end Threads

/-- A response with the status 200, for a concrete run. -/
def sampleExchange : Exchange where
  build := .ok ()
  connect := .ok (.ok ())
  getSession := .ok ()
  post := .ok (.ok (some { code := 200, body := [] }))
  close := .ok ()

/-- The parts of the default endpoint. -/
def sampleUrl : HttpUrl :=
  { host := ascii "127.0.0.1", port := 4318, path := ascii "/v1/traces", isSecure := false }

/-- A call on a thread of a scheduler, and the first call on another thread. -/
def twoSenders : List (TransportStep (Fin 2)) :=
  let request : OtlpHttpRequest :=
    { endpoint := ascii "http://127.0.0.1:4318/v1/traces", timeout := 500, headers := [],
      body := ascii "{}" }
  [.rejected 1, .locked (.call 0 request), .locked (.enter 0 request),
    .locked (.act 0 (.ensureRuntime request false)), .locked (.act 0 (.construct request true)),
    .locked (.act 0 (.start request true)), .locked (.act 0 (.join request sampleExchange)),
    .locked (.leave 0 request (.response { statusCode := 200 })),
    .locked (.ret 0 request (.response { statusCode := 200 }))]

/-- The promises for the run of two threads. -/
theorem transport_serves_twoSenders :
    ∃ s, (transport (fun _ => .ok (some sampleUrl)) {} (fun t : Fin 2 => t == 1)).Run twoSenders s ∧
      s.data.runtime.isSome = true ∧
      Serves (fun _ => .ok (some sampleUrl)) {} (fun t : Fin 2 => t == 1) twoSenders s := by
  obtain ⟨s, hr, hsome⟩ := Lts.exists_run_of_any
    (L := transport (fun _ => .ok (some sampleUrl)) {} (fun t : Fin 2 => t == 1))
    (h := twoSenders) (p := fun s => s.data.runtime.isSome) (by decide +kernel)
  exact ⟨s, hr, hsome, transport_serves hr⟩

end OtlpHttpExporter

end GalayTracing
