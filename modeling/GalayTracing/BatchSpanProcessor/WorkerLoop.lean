import GalayTracing.BatchSpanProcessor.State

/-!
# The worker: `workerLoop` and the functions it calls

The atomic operations of the worker thread, in the manner of the caller operations.  The lambdas
`drainReadyBatches`, `drainUntilIdle` and `completeFlushRequests` and the member functions
`tryPopBulk` and `exportBatch` are called from several places; the call site is part of the
program point, and `afterPop`, `afterExport`, `afterRequests` and `afterDrain` say where they
return to.

The span queue is linearizable and first-in first-out for each producer: a bulk dequeue takes some
of the oldest spans of some producers, at least one unless the queue is empty.
-/

namespace GalayTracing

variable {ι α : Type}

/-- The atomic operations of the worker. -/
inductive WorkerAct (ι α : Type)
  /-- The main loop acquires the signal. -/
  | waitAcquire
  /-- The flush interval of the main loop elapses. -/
  | waitTimeout
  /-- `signalPending.store(false)` of the main loop. -/
  | clearPending
  /-- `shutdownRequested.load()` reads `value`. -/
  | loadShutdown (intervalElapsed value : Bool)
  /-- `try_dequeue` takes `request`, which thread `caller` had enqueued. -/
  | dequeueRequest (site : FlushSite) (completedAny : Bool) (caller : ι) (request : ℕ)
  /-- `try_dequeue` finds no request. -/
  | noRequest (site : FlushSite) (completedAny : Bool)
  /-- `queuedCount()` of the main loop reads `count`. -/
  | loadCount (count : ℕ)
  /-- `queuedCount()` of `drainReadyBatches` reads `count`. -/
  | readyCount (drainPartial : Bool) (count : ℕ)
  /-- `empty()` of `drainReadyBatches` reads `value`. -/
  | readyEmpty (value : Bool)
  /-- `size.load()` of `tryPopBulk` reads `count`. -/
  | popLoad (site : PopSite) (count : ℕ)
  /-- `try_dequeue_bulk` takes `batch`. -/
  | popBatch (site : PopSite) (batch : List (ι × α))
  /-- `try_dequeue_bulk` finds no span. -/
  | popNone (site : PopSite)
  /-- `size.fetch_sub(count)`. -/
  | popRelease (site : PopSite) (batch : List (ι × α))
  /-- `exportSpans` is called. -/
  | callExport (site : PopSite) (batch : List (ι × α))
  /-- `exportSpans` returns `result`. -/
  | exportReturn (site : PopSite) (batch : List (ι × α)) (result : ExportResult)
  /-- The loop condition of `drainUntilIdle` evaluates to `value`. -/
  | drainClock (site : DrainSite) (ok value : Bool)
  /-- `empty()` of `drainUntilIdle` reads `value`. -/
  | drainEmpty (site : DrainSite) (ok exportedAny value : Bool)
  /-- `drainUntilIdle` acquires the signal. -/
  | drainAcquire (site : DrainSite) (ok : Bool)
  /-- The millisecond of `drainUntilIdle` elapses. -/
  | drainTimeout (site : DrainSite) (ok : Bool)
  /-- `signalPending.store(false)` of `drainUntilIdle`. -/
  | drainClear (site : DrainSite) (ok : Bool)
  /-- The clock comparison of the result of `drainUntilIdle` evaluates to `value`. -/
  | drainResult (site : DrainSite) (ok value : Bool)
  /-- The exporter's `forceFlush(remaining)` is called for a request. -/
  | callFlush (site : FlushSite) (request : ℕ) (ok : Bool) (remaining : ℤ)
  /-- The exporter's `forceFlush` returns `answer` for a request. -/
  | flushReturn (site : FlushSite) (request : ℕ) (ok answer : Bool)
  /-- `request->ok.store(ok)`. -/
  | storeOk (site : FlushSite) (request : ℕ) (ok : Bool)
  /-- `request->done.release()`. -/
  | releaseDone (site : FlushSite) (request : ℕ)
  /-- `activeFlushCallers.load()` reads `count`. -/
  | loadActive (shutdownOk : Bool) (count : ℕ)
  /-- `empty()` of the exit test reads `value`. -/
  | exitEmpty (shutdownOk value : Bool)
  /-- The exporter's `forceFlush(0)` is called on the way out. -/
  | callFinalFlush (shutdownOk : Bool)
  /-- The exporter's `forceFlush` returns `answer` on the way out. -/
  | finalFlushReturn (shutdownOk answer : Bool)
  /-- `shutdownDrainOk.store(shutdownOk)`. -/
  | storeDrainOk (shutdownOk : Bool)
  /-- `workerStopped.store(true)`; the thread function returns. -/
  | storeStopped
  deriving DecidableEq

/-- Where the worker goes on when `drainQueue` returned zero. -/
def PopSite.afterNone : PopSite → WorkerPc ι α
  | .ready _ => .wait
  | .drain site ok exportedAny => .drainEmpty site ok exportedAny

/-- Where the worker goes on when `exportBatch` returned `success`. -/
def PopSite.afterExport (success : Bool) : PopSite → WorkerPc ι α
  | .ready drainPartial => .readyCount drainPartial
  | .drain site ok _ => .popLoad (.drain site (success && ok) true)

/-- The ordinary path of the main loop, when no request was completed and no shutdown seen. -/
def ordinaryDrain (config : NormalizedConfig) (intervalElapsed : Bool) : WorkerPc ι α :=
  if intervalElapsed || config.scheduleMode == .kOnEnd then .readyCount true else .loadCount

/-- Where the worker goes on when `completeFlushRequests` returned `completedAny`. -/
def FlushSite.afterRequests (P : Processor α) (completedAny : Bool) : FlushSite → WorkerPc ι α
  | .head intervalElapsed shutdownRequested =>
    if completedAny then .wait
    else if shutdownRequested then .drainClock .shutdown true
    else ordinaryDrain P.config intervalElapsed
  | .drained shutdownOk => .loadActive shutdownOk
  | .exitTest shutdownOk =>
    if completedAny then .wait
    else if P.exporter then .callFinalFlush shutdownOk else .storeDrainOk shutdownOk

/-- The deadline `drainUntilIdle` was given. -/
def DrainSite.deadline (sh : Shared ι α) : DrainSite → ℤ
  | .request _ id => (sh.requests id).deadline
  | .shutdown => timePointMax

/-- Where the worker goes on when `drainUntilIdle` returned `ok`. -/
def DrainSite.afterDrain (P : Processor α) (ok : Bool) : DrainSite → WorkerPc ι α
  | .request site id => if P.exporter then .callFlush site id ok else .storeOk site id ok
  | .shutdown => .dequeueRequest (.drained ok) false

variable [DecidableEq ι] [DecidableEq α]

/-- The operations of the worker. -/
def workerCommand (P : Processor α) : WorkerAct ι α → Command (Shared ι α) (WorkerPc ι α)
  | .waitAcquire =>
    { source := .wait
      guard := fun sh => decide (0 < sh.signal)
      update := fun sh => { sh with signal := sh.signal - 1 }
      target := .clearPending }
  | .waitTimeout =>
    { source := .wait
      guard := fun _ => true
      update := id
      target := .loadShutdown true }
  | .clearPending =>
    { source := .clearPending
      guard := fun _ => true
      update := fun sh => { sh with signalPending := false }
      target := .loadShutdown false }
  | .loadShutdown intervalElapsed value =>
    { source := .loadShutdown intervalElapsed
      guard := fun sh => sh.shutdownRequested == value
      update := id
      target := .dequeueRequest (.head intervalElapsed value) false }
  | .dequeueRequest site completedAny caller request =>
    { source := .dequeueRequest site completedAny
      guard := fun sh => (ProducerQueue.dequeue (caller, request) sh.flushRequests).isSome
      update := fun sh =>
        { sh with
          flushRequests := (ProducerQueue.dequeue (caller, request) sh.flushRequests).getD [] }
      target := .drainClock (.request site request) true }
  | .noRequest site completedAny =>
    { source := .dequeueRequest site completedAny
      guard := fun sh => sh.flushRequests.isEmpty
      update := id
      target := site.afterRequests P completedAny }
  | .loadCount count =>
    { source := .loadCount
      guard := fun sh => sh.size == count
      update := id
      target := if count < P.config.maxBatchSize then .wait else .readyCount false }
  | .readyCount drainPartial count =>
    { source := .readyCount drainPartial
      guard := fun sh => sh.size == count
      update := id
      target := if P.config.maxBatchSize ≤ count then .popLoad (.ready drainPartial)
        else if drainPartial then .readyEmpty else .wait }
  | .readyEmpty value =>
    { source := .readyEmpty
      guard := fun sh => (sh.size == 0) == value
      update := id
      target := if value then .wait else .popLoad (.ready true) }
  | .popLoad site count =>
    { source := .popLoad site
      guard := fun sh => sh.size == count
      update := id
      target := if count = 0 then site.afterNone else .popDequeue site }
  | .popBatch site batch =>
    { source := .popDequeue site
      guard := fun sh => decide (batch ≠ []) && decide (batch.length ≤ P.config.maxBatchSize) &&
        (ProducerQueue.dequeueBulk batch sh.spans).isSome
      update := fun sh =>
        { sh with spans := (ProducerQueue.dequeueBulk batch sh.spans).getD [] }
      target := .popRelease site batch }
  | .popNone site =>
    { source := .popDequeue site
      guard := fun sh => sh.spans.isEmpty
      update := id
      target := site.afterNone }
  | .popRelease site batch =>
    { source := .popRelease site batch
      guard := fun _ => true
      update := fun sh => { sh with size := fetchSub sh.size batch.length }
      target := if P.exporter then .callExport site batch else site.afterExport true }
  | .callExport site batch =>
    { source := .callExport site batch
      guard := fun _ => true
      update := id
      target := .inExport site batch }
  | .exportReturn site batch result =>
    { source := .inExport site batch
      guard := fun _ => true
      update := id
      target := site.afterExport (result == .kSuccess) }
  | .drainClock site ok value =>
    { source := .drainClock site ok
      guard := fun sh => decide (sh.now ≤ site.deadline sh) == value
      update := id
      target := if value then .popLoad (.drain site ok false) else .drainResult site ok }
  | .drainEmpty site ok exportedAny value =>
    { source := .drainEmpty site ok exportedAny
      guard := fun sh => (sh.size == 0) == value
      update := id
      target := if value then .drainResult site ok
        else if exportedAny then .drainClock site ok else .drainWait site ok }
  | .drainAcquire site ok =>
    { source := .drainWait site ok
      guard := fun sh => decide (0 < sh.signal)
      update := fun sh => { sh with signal := sh.signal - 1 }
      target := .drainClear site ok }
  | .drainTimeout site ok =>
    { source := .drainWait site ok
      guard := fun _ => true
      update := id
      target := .drainClock site ok }
  | .drainClear site ok =>
    { source := .drainClear site ok
      guard := fun _ => true
      update := fun sh => { sh with signalPending := false }
      target := .drainClock site ok }
  | .drainResult site ok value =>
    { source := .drainResult site ok
      guard := fun sh => decide (sh.now ≤ site.deadline sh) == value
      update := id
      target := site.afterDrain P (ok && value) }
  | .callFlush site request ok remaining =>
    { source := .callFlush site request ok
      guard := fun sh => remainingTimeout sh.now (sh.requests request).deadline == remaining
      update := id
      target := .inFlush site request ok }
  | .flushReturn site request ok answer =>
    { source := .inFlush site request ok
      guard := fun _ => true
      update := id
      target := .storeOk site request (answer && ok) }
  | .storeOk site request ok =>
    { source := .storeOk site request ok
      guard := fun _ => true
      update := fun sh =>
        { sh with
          requests := Function.update sh.requests request
            { sh.requests request with ok := ok } }
      target := .releaseDone site request }
  | .releaseDone site request =>
    { source := .releaseDone site request
      guard := fun _ => true
      update := fun sh =>
        { sh with
          requests := Function.update sh.requests request
            { sh.requests request with done := (sh.requests request).done + 1 } }
      target := .dequeueRequest site true }
  | .loadActive shutdownOk count =>
    { source := .loadActive shutdownOk
      guard := fun sh => sh.activeFlushCallers == count
      update := id
      target := if count = 0 then .exitEmpty shutdownOk else .wait }
  | .exitEmpty shutdownOk value =>
    { source := .exitEmpty shutdownOk
      guard := fun sh => (sh.size == 0) == value
      update := id
      target := if value then .dequeueRequest (.exitTest shutdownOk) false else .wait }
  | .callFinalFlush shutdownOk =>
    { source := .callFinalFlush shutdownOk
      guard := fun _ => true
      update := id
      target := .inFinalFlush shutdownOk }
  | .finalFlushReturn shutdownOk answer =>
    { source := .inFinalFlush shutdownOk
      guard := fun _ => true
      update := id
      target := .storeDrainOk (answer && shutdownOk) }
  | .storeDrainOk shutdownOk =>
    { source := .storeDrainOk shutdownOk
      guard := fun _ => true
      update := fun sh => { sh with shutdownDrainOk := shutdownOk }
      target := .storeStopped }
  | .storeStopped =>
    { source := .storeStopped
      guard := fun _ => true
      update := fun sh => { sh with workerStopped := true }
      target := .stopped }

end GalayTracing
