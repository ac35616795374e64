import GalayTracing.Foundation.Lts
import GalayTracing.Foundation.ThreadPool
import GalayTracing.Foundation.ProducerQueue

/-!
# The data of a `BatchSpanProcessor`

The configuration, the shared memory of the processor (the members of `SpanQueue` and
`WorkerControl`, the heap of flush requests and the steady clock), and the program points of its
callers and of its worker thread.  Every program point is named after the atomic operation that is
performed there next.

The threads that call into the processor form an arbitrary finite type `ι`; each of them may call
`onEnd`, `forceFlush` and `shutdown` any number of times.  Spans are values of an arbitrary type
`α`; the processor only ever asks them whether they are sampled.
-/

namespace GalayTracing

/-! ### Configuration -/

/-- When the callers wake the worker (`BatchSpanScheduleMode`). -/
inductive BatchSpanScheduleMode
  /-- Only the flush interval wakes the worker. -/
  | kTimed
  /-- Every accepted span wakes the worker. -/
  | kOnEnd
  /-- The worker is woken when the queue reaches `maxBatchSize`. -/
  | kBatchSize
  deriving DecidableEq, Repr

/-- The configuration as the user gives it (`BatchSpanProcessorConfig`). -/
structure BatchSpanProcessorConfig where
  /-- The capacity of the span queue. -/
  queueCapacity : ℕ := 2048
  /-- The largest batch handed to one `exportSpans` call. -/
  maxBatchSize : ℕ := 512
  /-- The flush interval in milliseconds. -/
  flushInterval : ℤ := 5000
  /-- The wake-up strategy. -/
  scheduleMode : BatchSpanScheduleMode := .kBatchSize

/-- A configuration whose sizes and interval are usable, as the constructor stores it. -/
structure NormalizedConfig extends BatchSpanProcessorConfig where
  /-- A batch holds at least one span. -/
  one_le_maxBatchSize : 1 ≤ maxBatchSize
  /-- A batch fits into the queue. -/
  maxBatchSize_le : maxBatchSize ≤ queueCapacity
  /-- The worker waits for a positive time. -/
  flushInterval_pos : 0 < flushInterval

/-- `std::clamp`. -/
def clamp (value low high : ℕ) : ℕ :=
  if value < low then low else if high < value then high else value

/-- The constructor's `normalizeConfig`. -/
def normalizeConfig (config : BatchSpanProcessorConfig) : NormalizedConfig where
  queueCapacity := max config.queueCapacity 1
  maxBatchSize := clamp config.maxBatchSize 1 (max config.queueCapacity 1)
  flushInterval := if config.flushInterval ≤ 0 then 1 else config.flushInterval
  scheduleMode := config.scheduleMode
  one_le_maxBatchSize := by unfold clamp; split_ifs <;> omega
  maxBatchSize_le := by unfold clamp; split_ifs <;> omega
  flushInterval_pos := by split_ifs <;> omega

/-- What is fixed for the lifetime of a processor: its configuration, whether it was given an
exporter, and the sampled test of its spans. -/
structure Processor (α : Type) where
  /-- `m_config`. -/
  config : NormalizedConfig
  /-- Whether `m_exporter` is non-null. -/
  exporter : Bool
  /-- `span.spanContext().sampled()`. -/
  sampled : α → Bool

/-- What an exporter answers to `exportSpans`. -/
inductive ExportResult
  /-- The batch was exported. -/
  | kSuccess
  /-- The batch was not exported. -/
  | kFailure
  deriving DecidableEq, Repr

/-! ### The clock -/

/-- `steady_clock::time_point::max()`, in nanoseconds. -/
def timePointMax : ℤ := 2 ^ 63 - 1

/-- `now + timeout` for a clock reading in nanoseconds and a timeout in milliseconds, computed in
64-bit signed nanoseconds. -/
def deadlineAfter (now timeout : ℤ) : ℤ := Int.bmod (now + timeout * 1000000) (2 ^ 64)

/-- `remainingTimeout`: the time left until a deadline, in whole milliseconds. -/
def remainingTimeout (now deadline : ℤ) : ℤ :=
  if deadline ≤ now then 0 else (deadline - now).tdiv 1000000

/-! ### The shared memory -/

/-- `std::size_t` subtraction, which wraps below zero. -/
def fetchSub (value amount : ℕ) : ℕ :=
  if amount ≤ value then value - amount else value + 2 ^ 64 - amount

/-- Within range, the subtraction is exact. -/
lemma fetchSub_of_le {value amount : ℕ} (h : amount ≤ value) :
    fetchSub value amount = value - amount := if_pos h

/-- `WorkerControl::FlushRequest`. -/
structure FlushRequest where
  /-- The time point after which the request has failed. -/
  deadline : ℤ := 0
  /-- The permits of the binary semaphore `done`. -/
  done : ℕ := 0
  /-- The answer, stored before `done` is released. -/
  ok : Bool := false

/-- The shared memory of a processor.  Flush requests live on a heap that is indexed by the order
of their creation; the queue of requests holds such indices. -/
structure Shared (ι α : Type) where
  /-- `SpanQueue::size`. -/
  size : ℕ := 0
  /-- `SpanQueue::spans`, each span with the thread that enqueued it. -/
  spans : List (ι × α) := []
  /-- `m_droppedSpans`. -/
  droppedSpans : ℕ := 0
  /-- `WorkerControl::shutdownRequested`. -/
  shutdownRequested : Bool := false
  /-- `WorkerControl::workerStopped`. -/
  workerStopped : Bool := false
  /-- `WorkerControl::joinClaimed`. -/
  joinClaimed : Bool := false
  /-- `WorkerControl::exporterShutdown`. -/
  exporterShutdown : Bool := false
  /-- `WorkerControl::shutdownDrainOk`. -/
  shutdownDrainOk : Bool := true
  /-- `WorkerControl::activeFlushCallers`. -/
  activeFlushCallers : ℕ := 0
  /-- `WorkerControl::signalPending`. -/
  signalPending : Bool := false
  /-- The permits of `WorkerControl::signal`. -/
  signal : ℕ := 0
  /-- `WorkerControl::flushRequests`, each request with the thread that enqueued it. -/
  flushRequests : List (ι × ℕ) := []
  /-- The flush requests created so far. -/
  requests : ℕ → FlushRequest := fun _ => {}
  /-- The number of flush requests created so far. -/
  created : ℕ := 0
  /-- The reading of the steady clock. -/
  now : ℤ := 0

/-! ### Program points of the callers -/

/-- The program points of `onEnd` and of the functions it calls. -/
inductive OnEndPc (α : Type)
  /-- `size.fetch_add(1)`. -/
  | fetchAdd (span : α)
  /-- `size.fetch_sub(1)` of a push that found the queue full. -/
  | fullSub (span : α)
  /-- `shutdownRequested.load()`. -/
  | loadShutdown (span : α) (previous : ℕ)
  /-- `size.fetch_sub(1)` of a push that found the processor closed. -/
  | closedSub (span : α)
  /-- `spans.enqueue(span)`. -/
  | enqueue (span : α) (previous : ℕ)
  /-- `size.fetch_sub(1)` of a push whose `enqueue` failed. -/
  | failedSub (span : α)
  /-- `m_droppedSpans.fetch_add(1)`. -/
  | drop (span : α)
  /-- `signalPending.exchange(true)` of `notify`. -/
  | exchangePending
  /-- `signal.release()` of `notify`. -/
  | releaseSignal
  deriving DecidableEq

/-- The three places of `forceFlush` that leave `activeFlushCallers`, by what follows. -/
inductive FlushExit
  /-- The processor is shutting down: the answer is read from the counter. -/
  | refused
  /-- The request could not be enqueued: the answer is `false`. -/
  | failed
  /-- The request was enqueued: its completion is awaited. -/
  | queued (request : ℕ)
  deriving DecidableEq

/-- The program points of `forceFlush`. -/
inductive ForceFlushPc
  /-- `activeFlushCallers.fetch_add(1)`. -/
  | announce (timeout : ℤ)
  /-- `shutdownRequested.load()`. -/
  | loadShutdown (timeout : ℤ)
  /-- `workerStopped.load()`. -/
  | loadStopped (timeout : ℤ)
  /-- The construction of the `FlushRequest`, which reads the clock. -/
  | create (timeout : ℤ)
  /-- `flushRequests.enqueue(request)`. -/
  | enqueue (request : ℕ)
  /-- `activeFlushCallers.fetch_sub(1)`. -/
  | leave (exit : FlushExit)
  /-- `shutdownRequested.load()` of the last caller to leave. -/
  | leaveLoad (exit : FlushExit)
  /-- `signalPending.store(true)` of the last caller's `forceNotify`. -/
  | leaveStore (exit : FlushExit)
  /-- `signal.release()` of the last caller's `forceNotify`. -/
  | leaveRelease (exit : FlushExit)
  /-- `m_queue->empty()` on the shutdown path. -/
  | readEmpty
  /-- `signalPending.store(true)` of `forceNotify`. -/
  | notifyStore (request : ℕ)
  /-- `signal.release()` of `forceNotify`. -/
  | notifyRelease (request : ℕ)
  /-- `done.try_acquire_until(deadline)`. -/
  | awaitDone (request : ℕ)
  /-- `ok.load()`. -/
  | loadOk (request : ℕ)
  deriving DecidableEq

/-- The program points of `shutdown`; `deadline` and `ok` are its local variables. -/
inductive ShutdownPc
  /-- `shutdownRequested.store(true)`. -/
  | storeRequested (deadline : ℤ)
  /-- `signalPending.store(true)` of `forceNotify`. -/
  | notifyStore (deadline : ℤ)
  /-- `signal.release()` of `forceNotify`. -/
  | notifyRelease (deadline : ℤ)
  /-- `joinClaimed.exchange(true)`. -/
  | claimJoin (deadline : ℤ)
  /-- `m_worker.join()`. -/
  | join (deadline : ℤ)
  /-- `workerStopped.load()` of the waiting loop. -/
  | waitStopped (deadline : ℤ)
  /-- `steady_clock::now()` of the waiting loop. -/
  | waitClock (deadline : ℤ)
  /-- `workerStopped.load()` after the waiting loop. -/
  | loadStopped (deadline : ℤ)
  /-- `shutdownDrainOk.load()`. -/
  | loadDrainOk (deadline : ℤ) (ok : Bool)
  /-- `exporterShutdown.exchange(true)`. -/
  | claimExporter (deadline : ℤ) (ok : Bool)
  /-- The call of `m_exporter->shutdown`. -/
  | callExporter (deadline : ℤ) (ok : Bool)
  /-- `m_exporter->shutdown` is in progress. -/
  | inExporter (deadline : ℤ) (ok : Bool)
  /-- `steady_clock::now()` of the result. -/
  | readClock (deadline : ℤ) (ok : Bool)
  deriving DecidableEq

/-- The program points of a calling thread. -/
inductive CallerPc (α : Type)
  /-- Outside the processor. -/
  | idle
  /-- Inside `onEnd`. -/
  | onEnd (pc : OnEndPc α)
  /-- Inside `forceFlush`. -/
  | forceFlush (pc : ForceFlushPc)
  /-- Inside `shutdown`. -/
  | shutdown (pc : ShutdownPc)
  deriving DecidableEq

/-! ### Program points of the worker -/

/-- The three call sites of `completeFlushRequests`, with the locals of the main loop that are
live across the call. -/
inductive FlushSite
  /-- The call at the head of an iteration. -/
  | head (intervalElapsed shutdownRequested : Bool)
  /-- The call after the drain of the shutdown branch. -/
  | drained (shutdownOk : Bool)
  /-- The call in the exit test of the shutdown branch. -/
  | exitTest (shutdownOk : Bool)
  deriving DecidableEq

/-- The two call sites of `drainUntilIdle`. -/
inductive DrainSite
  /-- The drain of a flush request, served at a call site of `completeFlushRequests`. -/
  | request (site : FlushSite) (request : ℕ)
  /-- The drain of the shutdown branch. -/
  | shutdown
  deriving DecidableEq

/-- The two loops that pop batches, with their live locals. -/
inductive PopSite
  /-- The loop of `drainReadyBatches`. -/
  | ready (drainPartial : Bool)
  /-- The inner loop of `drainUntilIdle`. -/
  | drain (site : DrainSite) (ok exportedAny : Bool)
  deriving DecidableEq

/-- The program points of `workerLoop` and of the functions and lambdas it calls. -/
inductive WorkerPc (ι α : Type)
  /-- `signal.try_acquire_for(flush_interval)` of the main loop. -/
  | wait
  /-- `signalPending.store(false)` after the main loop acquired the signal. -/
  | clearPending
  /-- `shutdownRequested.load()`. -/
  | loadShutdown (intervalElapsed : Bool)
  /-- `flushRequests.try_dequeue(request)`. -/
  | dequeueRequest (site : FlushSite) (completedAny : Bool)
  /-- `queuedCount()` of the test that skips the ordinary drain. -/
  | loadCount
  /-- `queuedCount()` of the loop condition of `drainReadyBatches`. -/
  | readyCount (drainPartial : Bool)
  /-- `empty()` of the loop condition of `drainReadyBatches`. -/
  | readyEmpty
  /-- `size.load()` of `tryPopBulk`. -/
  | popLoad (site : PopSite)
  /-- `try_dequeue_bulk` of `tryPopBulk`. -/
  | popDequeue (site : PopSite)
  /-- `size.fetch_sub(count)` of `tryPopBulk`. -/
  | popRelease (site : PopSite) (batch : List (ι × α))
  /-- The call of `exportSpans`. -/
  | callExport (site : PopSite) (batch : List (ι × α))
  /-- `exportSpans` is in progress. -/
  | inExport (site : PopSite) (batch : List (ι × α))
  /-- `steady_clock::now()` of the loop condition of `drainUntilIdle`. -/
  | drainClock (site : DrainSite) (ok : Bool)
  /-- `m_queue->empty()` of `drainUntilIdle`. -/
  | drainEmpty (site : DrainSite) (ok exportedAny : Bool)
  /-- `signal.try_acquire_for(1ms)` of `drainUntilIdle`. -/
  | drainWait (site : DrainSite) (ok : Bool)
  /-- `signalPending.store(false)` after `drainUntilIdle` acquired the signal. -/
  | drainClear (site : DrainSite) (ok : Bool)
  /-- `steady_clock::now()` of the result of `drainUntilIdle`. -/
  | drainResult (site : DrainSite) (ok : Bool)
  /-- The call of the exporter's `forceFlush` for a request, after `remainingTimeout`. -/
  | callFlush (site : FlushSite) (request : ℕ) (ok : Bool)
  /-- The exporter's `forceFlush` for a request is in progress. -/
  | inFlush (site : FlushSite) (request : ℕ) (ok : Bool)
  /-- `request->ok.store(ok)`. -/
  | storeOk (site : FlushSite) (request : ℕ) (ok : Bool)
  /-- `request->done.release()`. -/
  | releaseDone (site : FlushSite) (request : ℕ)
  /-- `activeFlushCallers.load()` of the exit test. -/
  | loadActive (shutdownOk : Bool)
  /-- `m_queue->empty()` of the exit test. -/
  | exitEmpty (shutdownOk : Bool)
  /-- The call of the exporter's `forceFlush` on the way out. -/
  | callFinalFlush (shutdownOk : Bool)
  /-- The exporter's `forceFlush` on the way out is in progress. -/
  | inFinalFlush (shutdownOk : Bool)
  /-- `shutdownDrainOk.store(shutdownOk)`. -/
  | storeDrainOk (shutdownOk : Bool)
  /-- `workerStopped.store(true)`. -/
  | storeStopped
  /-- The thread function has returned. -/
  | stopped
  deriving DecidableEq

/-- The states of a processor with calling threads `ι`. -/
abbrev State (ι α : Type) := Pool ι (Shared ι α) (CallerPc α) (WorkerPc ι α)

end GalayTracing
