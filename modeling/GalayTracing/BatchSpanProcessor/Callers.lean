import GalayTracing.BatchSpanProcessor.State

/-!
# The calls into the processor: `onEnd`, `forceFlush` and `shutdown`

Each atomic operation of the three functions is a label that carries the values the operation
observes, and a `Command` that says at which program point it is performed, what it does to the
shared memory and where it leads.  Local computations between two atomic operations are part of
the target of the earlier one.  A call returns with its last atomic operation.
-/

namespace GalayTracing

variable {ι α : Type}

/-! ### `onEnd` -/

/-- The atomic operations of `onEnd`, `SpanQueue::tryPush` and `notify`. -/
inductive OnEndAct (α : Type)
  /-- The call `onEnd(span)`. -/
  | call (span : α)
  /-- `size.fetch_add(1)` reads `previous`. -/
  | fetchAdd (span : α) (previous : ℕ)
  /-- `size.fetch_sub(1)`; the push answers `kFull`. -/
  | fullSub (span : α)
  /-- `shutdownRequested.load()` reads `value`. -/
  | loadShutdown (span : α) (previous : ℕ) (value : Bool)
  /-- `size.fetch_sub(1)`; the push answers `kClosed`. -/
  | closedSub (span : α)
  /-- `spans.enqueue(span)`; on success the push answers `kAccepted`. -/
  | enqueue (span : α) (previous : ℕ) (success : Bool)
  /-- `size.fetch_sub(1)`; the push answers `kFull`. -/
  | failedSub (span : α)
  /-- `m_droppedSpans.fetch_add(1)`. -/
  | drop (span : α)
  /-- `signalPending.exchange(true)` returns `old`. -/
  | exchangePending (old : Bool)
  /-- `signal.release()`. -/
  | releaseSignal
  deriving DecidableEq

/-- Whether a push that read the counter up to `queuedCount` wakes the worker. -/
def shouldNotify (config : NormalizedConfig) (queuedCount : ℕ) : Bool :=
  match config.scheduleMode with
  | .kOnEnd => true
  | .kBatchSize =>
    decide (config.maxBatchSize ≤ queuedCount) && decide (queuedCount - 1 < config.maxBatchSize)
  | .kTimed => false

/-- The operations of `onEnd` performed by thread `t`. -/
def onEndCommand (P : Processor α) (t : ι) :
    OnEndAct α → Command (Shared ι α) (CallerPc α)
  | .call span =>
    { source := .idle
      guard := fun _ => true
      update := id
      target := if P.sampled span then .onEnd (.fetchAdd span) else .idle }
  | .fetchAdd span previous =>
    { source := .onEnd (.fetchAdd span)
      guard := fun sh => sh.size == previous
      update := fun sh => { sh with size := sh.size + 1 }
      target := if P.config.queueCapacity ≤ previous then .onEnd (.fullSub span)
        else .onEnd (.loadShutdown span previous) }
  | .fullSub span =>
    { source := .onEnd (.fullSub span)
      guard := fun _ => true
      update := fun sh => { sh with size := fetchSub sh.size 1 }
      target := .onEnd (.drop span) }
  | .loadShutdown span previous value =>
    { source := .onEnd (.loadShutdown span previous)
      guard := fun sh => sh.shutdownRequested == value
      update := id
      target := if value then .onEnd (.closedSub span) else .onEnd (.enqueue span previous) }
  | .closedSub span =>
    { source := .onEnd (.closedSub span)
      guard := fun _ => true
      update := fun sh => { sh with size := fetchSub sh.size 1 }
      target := .onEnd .exchangePending }
  | .enqueue span previous true =>
    { source := .onEnd (.enqueue span previous)
      guard := fun _ => true
      update := fun sh => { sh with spans := sh.spans ++ [(t, span)] }
      target := if shouldNotify P.config (previous + 1) then .onEnd .exchangePending else .idle }
  | .enqueue span previous false =>
    { source := .onEnd (.enqueue span previous)
      guard := fun _ => true
      update := id
      target := .onEnd (.failedSub span) }
  | .failedSub span =>
    { source := .onEnd (.failedSub span)
      guard := fun _ => true
      update := fun sh => { sh with size := fetchSub sh.size 1 }
      target := .onEnd (.drop span) }
  | .drop span =>
    { source := .onEnd (.drop span)
      guard := fun _ => true
      update := fun sh => { sh with droppedSpans := sh.droppedSpans + 1 }
      target := .idle }
  | .exchangePending old =>
    { source := .onEnd .exchangePending
      guard := fun sh => sh.signalPending == old
      update := fun sh => { sh with signalPending := true }
      target := if old then .idle else .onEnd .releaseSignal }
  | .releaseSignal =>
    { source := .onEnd .releaseSignal
      guard := fun _ => true
      update := fun sh => { sh with signal := sh.signal + 1 }
      target := .idle }

/-! ### `forceFlush` -/

/-- The atomic operations of `forceFlush` and `forceNotify`. -/
inductive ForceFlushAct
  /-- The call `forceFlush(timeout)`; a negative timeout is answered `false` at once. -/
  | call (timeout : ℤ)
  /-- `activeFlushCallers.fetch_add(1)`. -/
  | announce (timeout : ℤ)
  /-- `shutdownRequested.load()` reads `value`. -/
  | loadShutdown (timeout : ℤ) (value : Bool)
  /-- `workerStopped.load()` reads `value`. -/
  | loadStopped (timeout : ℤ) (value : Bool)
  /-- A `FlushRequest` is created at the heap index `request`. -/
  | create (timeout : ℤ) (request : ℕ)
  /-- `flushRequests.enqueue(request)`. -/
  | enqueue (request : ℕ) (success : Bool)
  /-- `activeFlushCallers.fetch_sub(1)` reads `previous`. -/
  | leave (exit : FlushExit) (previous : ℕ)
  /-- `shutdownRequested.load()` of the last caller to leave reads `value`. -/
  | leaveLoad (exit : FlushExit) (value : Bool)
  /-- `signalPending.store(true)` of the last caller's `forceNotify`. -/
  | leaveStore (exit : FlushExit)
  /-- `signal.release()` of the last caller's `forceNotify`. -/
  | leaveRelease (exit : FlushExit)
  /-- `m_queue->empty()` reads `value`; the call returns `value`. -/
  | readEmpty (value : Bool)
  /-- `signalPending.store(true)` of `forceNotify`. -/
  | notifyStore (request : ℕ)
  /-- `signal.release()` of `forceNotify`. -/
  | notifyRelease (request : ℕ)
  /-- `done` is acquired. -/
  | acquireDone (request : ℕ)
  /-- `done.try_acquire_until` times out; the call returns `false`. -/
  | timeoutDone (request : ℕ)
  /-- `ok.load()` reads `value`; the call returns `value`. -/
  | loadOk (request : ℕ) (value : Bool)
  deriving DecidableEq

/-- Where `forceFlush` goes on after it has left `activeFlushCallers`. -/
def FlushExit.next : FlushExit → CallerPc α
  | .refused => .forceFlush .readEmpty
  | .failed => .idle
  | .queued request => .forceFlush (.notifyStore request)

/-- The operations of `forceFlush` performed by thread `t`. -/
def forceFlushCommand (t : ι) : ForceFlushAct → Command (Shared ι α) (CallerPc α)
  | .call timeout =>
    { source := .idle
      guard := fun _ => true
      update := id
      target := if timeout < 0 then .idle else .forceFlush (.announce timeout) }
  | .announce timeout =>
    { source := .forceFlush (.announce timeout)
      guard := fun _ => true
      update := fun sh => { sh with activeFlushCallers := sh.activeFlushCallers + 1 }
      target := .forceFlush (.loadShutdown timeout) }
  | .loadShutdown timeout value =>
    { source := .forceFlush (.loadShutdown timeout)
      guard := fun sh => sh.shutdownRequested == value
      update := id
      target := if value then .forceFlush (.leave .refused)
        else .forceFlush (.loadStopped timeout) }
  | .loadStopped timeout value =>
    { source := .forceFlush (.loadStopped timeout)
      guard := fun sh => sh.workerStopped == value
      update := id
      target := if value then .forceFlush (.leave .refused) else .forceFlush (.create timeout) }
  | .create timeout request =>
    { source := .forceFlush (.create timeout)
      guard := fun sh => sh.created == request
      update := fun sh =>
        { sh with
          created := sh.created + 1
          requests := Function.update sh.requests request
            { deadline := deadlineAfter sh.now timeout } }
      target := .forceFlush (.enqueue request) }
  | .enqueue request true =>
    { source := .forceFlush (.enqueue request)
      guard := fun _ => true
      update := fun sh => { sh with flushRequests := sh.flushRequests ++ [(t, request)] }
      target := .forceFlush (.leave (.queued request)) }
  | .enqueue request false =>
    { source := .forceFlush (.enqueue request)
      guard := fun _ => true
      update := id
      target := .forceFlush (.leave .failed) }
  | .leave exit previous =>
    { source := .forceFlush (.leave exit)
      guard := fun sh => sh.activeFlushCallers == previous
      update := fun sh => { sh with activeFlushCallers := fetchSub sh.activeFlushCallers 1 }
      target := if previous = 1 then .forceFlush (.leaveLoad exit) else exit.next }
  | .leaveLoad exit value =>
    { source := .forceFlush (.leaveLoad exit)
      guard := fun sh => sh.shutdownRequested == value
      update := id
      target := if value then .forceFlush (.leaveStore exit) else exit.next }
  | .leaveStore exit =>
    { source := .forceFlush (.leaveStore exit)
      guard := fun _ => true
      update := fun sh => { sh with signalPending := true }
      target := .forceFlush (.leaveRelease exit) }
  | .leaveRelease exit =>
    { source := .forceFlush (.leaveRelease exit)
      guard := fun _ => true
      update := fun sh => { sh with signal := sh.signal + 1 }
      target := exit.next }
  | .readEmpty value =>
    { source := .forceFlush .readEmpty
      guard := fun sh => (sh.size == 0) == value
      update := id
      target := .idle }
  | .notifyStore request =>
    { source := .forceFlush (.notifyStore request)
      guard := fun _ => true
      update := fun sh => { sh with signalPending := true }
      target := .forceFlush (.notifyRelease request) }
  | .notifyRelease request =>
    { source := .forceFlush (.notifyRelease request)
      guard := fun _ => true
      update := fun sh => { sh with signal := sh.signal + 1 }
      target := .forceFlush (.awaitDone request) }
  | .acquireDone request =>
    { source := .forceFlush (.awaitDone request)
      guard := fun sh => decide (0 < (sh.requests request).done)
      update := fun sh =>
        { sh with
          requests := Function.update sh.requests request
            { sh.requests request with done := (sh.requests request).done - 1 } }
      target := .forceFlush (.loadOk request) }
  | .timeoutDone request =>
    { source := .forceFlush (.awaitDone request)
      guard := fun _ => true
      update := id
      target := .idle }
  | .loadOk request value =>
    { source := .forceFlush (.loadOk request)
      guard := fun sh => (sh.requests request).ok == value
      update := id
      target := .idle }

/-! ### `shutdown` -/

/-- The atomic operations of `shutdown` and `forceNotify`. -/
inductive ShutdownAct
  /-- The call `shutdown(timeout)`, which reads the clock. -/
  | call (timeout : ℤ) (deadline : ℤ)
  /-- `shutdownRequested.store(true)`. -/
  | storeRequested (deadline : ℤ)
  /-- `signalPending.store(true)` of `forceNotify`. -/
  | notifyStore (deadline : ℤ)
  /-- `signal.release()` of `forceNotify`. -/
  | notifyRelease (deadline : ℤ)
  /-- `joinClaimed.exchange(true)` returns `old`. -/
  | claimJoin (deadline : ℤ) (old : Bool)
  /-- `m_worker.join()` returns. -/
  | join (deadline : ℤ)
  /-- `workerStopped.load()` of the waiting loop reads `value`. -/
  | waitStopped (deadline : ℤ) (value : Bool)
  /-- The clock comparison of the waiting loop; `value` says whether the loop goes on. -/
  | waitClock (deadline : ℤ) (value : Bool)
  /-- `workerStopped.load()` after the waiting loop reads `value`. -/
  | loadStopped (deadline : ℤ) (value : Bool)
  /-- `shutdownDrainOk.load()` reads `value`. -/
  | loadDrainOk (deadline : ℤ) (ok value : Bool)
  /-- `exporterShutdown.exchange(true)` returns `old`. -/
  | claimExporter (deadline : ℤ) (ok old : Bool)
  /-- `m_exporter->shutdown` is called. -/
  | callExporter (deadline : ℤ) (ok : Bool)
  /-- `m_exporter->shutdown` returns `answer`. -/
  | exporterReturn (deadline : ℤ) (ok answer : Bool)
  /-- The clock comparison of the result; the call returns `ok && inTime`. -/
  | ret (deadline : ℤ) (ok inTime : Bool)
  deriving DecidableEq

/-- The operations of `shutdown`.  `join` returns when the thread function has, which is once
`workerStopped` is stored, its last operation. -/
def shutdownCommand (P : Processor α) : ShutdownAct → Command (Shared ι α) (CallerPc α)
  | .call timeout deadline =>
    { source := .idle
      guard := fun sh => deadlineAfter sh.now timeout == deadline
      update := id
      target := .shutdown (.storeRequested deadline) }
  | .storeRequested deadline =>
    { source := .shutdown (.storeRequested deadline)
      guard := fun _ => true
      update := fun sh => { sh with shutdownRequested := true }
      target := .shutdown (.notifyStore deadline) }
  | .notifyStore deadline =>
    { source := .shutdown (.notifyStore deadline)
      guard := fun _ => true
      update := fun sh => { sh with signalPending := true }
      target := .shutdown (.notifyRelease deadline) }
  | .notifyRelease deadline =>
    { source := .shutdown (.notifyRelease deadline)
      guard := fun _ => true
      update := fun sh => { sh with signal := sh.signal + 1 }
      target := .shutdown (.claimJoin deadline) }
  | .claimJoin deadline old =>
    { source := .shutdown (.claimJoin deadline)
      guard := fun sh => sh.joinClaimed == old
      update := fun sh => { sh with joinClaimed := true }
      target := if old then .shutdown (.waitStopped deadline) else .shutdown (.join deadline) }
  | .join deadline =>
    { source := .shutdown (.join deadline)
      guard := fun sh => sh.workerStopped
      update := id
      target := .shutdown (.loadDrainOk deadline true) }
  | .waitStopped deadline value =>
    { source := .shutdown (.waitStopped deadline)
      guard := fun sh => sh.workerStopped == value
      update := id
      target := if value then .shutdown (.loadStopped deadline)
        else .shutdown (.waitClock deadline) }
  | .waitClock deadline value =>
    { source := .shutdown (.waitClock deadline)
      guard := fun sh => decide (sh.now ≤ deadline) == value
      update := id
      target := if value then .shutdown (.waitStopped deadline)
        else .shutdown (.loadStopped deadline) }
  | .loadStopped deadline value =>
    { source := .shutdown (.loadStopped deadline)
      guard := fun sh => sh.workerStopped == value
      update := id
      target := .shutdown (.loadDrainOk deadline value) }
  | .loadDrainOk deadline ok value =>
    { source := .shutdown (.loadDrainOk deadline ok)
      guard := fun sh => sh.shutdownDrainOk == value
      update := id
      target := if P.exporter then .shutdown (.claimExporter deadline (value && ok))
        else .shutdown (.readClock deadline (value && ok)) }
  | .claimExporter deadline ok old =>
    { source := .shutdown (.claimExporter deadline ok)
      guard := fun sh => sh.exporterShutdown == old
      update := fun sh => { sh with exporterShutdown := true }
      target := if old then .shutdown (.readClock deadline ok)
        else .shutdown (.callExporter deadline ok) }
  | .callExporter deadline ok =>
    { source := .shutdown (.callExporter deadline ok)
      guard := fun _ => true
      update := id
      target := .shutdown (.inExporter deadline ok) }
  | .exporterReturn deadline ok answer =>
    { source := .shutdown (.inExporter deadline ok)
      guard := fun _ => true
      update := id
      target := .shutdown (.readClock deadline (answer && ok)) }
  | .ret deadline ok inTime =>
    { source := .shutdown (.readClock deadline ok)
      guard := fun sh => decide (sh.now ≤ deadline) == inTime
      update := id
      target := .idle }

end GalayTracing
