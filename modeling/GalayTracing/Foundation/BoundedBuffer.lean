import GalayTracing.Foundation.Lts
import GalayTracing.Foundation.ProducerQueue

/-!
# A bounded buffer between producers and one consumer

The purpose of a bounded, lossy buffer in a few transitions: items of any number of producers are
accepted while there is room, or dropped; the consumer takes a batch of the oldest items into its
hand and delivers it, one batch after another; after the buffer is closed items may also be refused,
and the consumer stops once it has delivered everything.

A program implements such a buffer when its steps refine these transitions; `accepted_eq_of_run`
and `delivered_of_stopped` then say that nothing accepted is lost, duplicated or reordered.
-/

namespace BoundedBuffer

variable {ι α : Type*}

/-- What can happen to a buffer. -/
inductive Label (ι α : Type*)
  /-- The item of a producer is accepted. -/
  | accept (producer : ι) (item : α)
  /-- The item of a producer is dropped. -/
  | drop (producer : ι) (item : α)
  /-- The item of a producer is refused. -/
  | refuse (producer : ι) (item : α)
  /-- The buffer is closed. -/
  | close
  /-- The consumer takes a batch. -/
  | take (batch : List (ι × α))
  /-- The consumer has delivered its batch. -/
  | deliver (batch : List (ι × α))
  /-- The consumer stops. -/
  | stop
  deriving DecidableEq

/-- The states of a buffer. -/
structure State (ι α : Type*) where
  /-- The accepted items that no batch has taken, each with its producer. -/
  queue : List (ι × α) := []
  /-- The batch in the hand of the consumer. -/
  hand : List (ι × α) := []
  /-- Items may be refused. -/
  closed : Bool := false
  /-- The consumer has stopped. -/
  stopped : Bool := false
  deriving DecidableEq

variable [DecidableEq ι] [DecidableEq α] {capacity maxBatch : ℕ} {s s' : State ι α}
  {h : List (Label ι α)}

/-- The transitions of a buffer with room for `capacity` items, taken in batches of at most
`maxBatch`. -/
def step (capacity maxBatch : ℕ) (s : State ι α) : Label ι α → Option (State ι α)
  | .accept producer item =>
    if s.stopped = false ∧ s.queue.length < capacity then
      some { s with queue := s.queue ++ [(producer, item)] }
    else none
  | .drop _ _ => some s
  | .refuse _ _ => if s.closed = true then some s else none
  | .close => some { s with closed := true }
  | .take batch =>
    if s.hand = [] ∧ batch ≠ [] ∧ batch.length ≤ maxBatch then
      (ProducerQueue.dequeueBulk batch s.queue).map fun rest =>
        { s with queue := rest, hand := batch }
    else none
  | .deliver batch =>
    if s.hand = batch ∧ batch ≠ [] then some { s with hand := [] } else none
  | .stop =>
    if s.closed = true ∧ s.stopped = false ∧ s.queue = [] ∧ s.hand = [] then
      some { s with stopped := true }
    else none

/-- The buffer as a transition system. -/
def buffer (ι α : Type*) [DecidableEq ι] [DecidableEq α] (capacity maxBatch : ℕ) :
    Lts (State ι α) (Label ι α) where
  init := {}
  step := step capacity maxBatch

/-- The accepted items of a producer, in order. -/
def accepted (t : ι) (h : List (Label ι α)) : List α :=
  h.filterMap fun
    | .accept producer item => if producer = t then some item else none
    | _ => none

/-- The delivered batches, in order. -/
def deliveries (h : List (Label ι α)) : List (List (ι × α)) :=
  h.filterMap fun
    | .deliver batch => some batch
    | _ => none

/-- The delivered items of a producer, in order. -/
def delivered (t : ι) (h : List (Label ι α)) : List α :=
  ProducerQueue.ofProducer t (deliveries h).flatten

omit [DecidableEq α] in
lemma accepted_append (t : ι) (h h' : List (Label ι α)) :
    accepted t (h ++ h') = accepted t h ++ accepted t h' :=
  List.filterMap_append

omit [DecidableEq α] in
lemma delivered_append (t : ι) (h h' : List (Label ι α)) :
    delivered t (h ++ h') = delivered t h ++ delivered t h' := by
  simp [delivered, deliveries]

/-! ### The enabled transitions -/

lemma step_accept_iff {t : ι} {x : α} :
    step capacity maxBatch s (.accept t x) = some s' ↔
      (s.stopped = false ∧ s.queue.length < capacity) ∧
        { s with queue := s.queue ++ [(t, x)] } = s' := by
  rw [step, Option.ite_none_right_eq_some, Option.some_inj]

lemma step_take_iff {batch : List (ι × α)} :
    step capacity maxBatch s (.take batch) = some s' ↔
      (s.hand = [] ∧ batch ≠ [] ∧ batch.length ≤ maxBatch) ∧
        ∃ rest, ProducerQueue.dequeueBulk batch s.queue = some rest ∧
          { s with queue := rest, hand := batch } = s' := by
  rw [step, Option.ite_none_right_eq_some, Option.map_eq_some_iff]

lemma step_deliver_iff {batch : List (ι × α)} :
    step capacity maxBatch s (.deliver batch) = some s' ↔
      (s.hand = batch ∧ batch ≠ []) ∧ { s with hand := [] } = s' := by
  rw [step, Option.ite_none_right_eq_some, Option.some_inj]

lemma step_stop_iff :
    step capacity maxBatch s .stop = some s' ↔
      (s.closed = true ∧ s.stopped = false ∧ s.queue = [] ∧ s.hand = []) ∧
        { s with stopped := true } = s' := by
  rw [step, Option.ite_none_right_eq_some, Option.some_inj]

/-! ### Nothing accepted is lost -/

/-- A transition keeps the account of the accepted items of a producer. -/
lemma accepted_step {a : Label ι α} (hs : step capacity maxBatch s a = some s') (t : ι)
    (haccount : accepted t h = delivered t h ++ ProducerQueue.ofProducer t s.hand ++
      ProducerQueue.ofProducer t s.queue) :
    accepted t (h ++ [a]) = delivered t (h ++ [a]) ++ ProducerQueue.ofProducer t s'.hand ++
      ProducerQueue.ofProducer t s'.queue := by
  rw [accepted_append, delivered_append, haccount]
  cases a with
  | accept producer item =>
    obtain ⟨-, rfl⟩ := step_accept_iff.mp hs
    have hnew : accepted t [.accept producer item] =
        ProducerQueue.ofProducer t [(producer, item)] := by
      by_cases ht : producer = t <;> simp [accepted, ProducerQueue.ofProducer, ht]
    simp [hnew, delivered, deliveries]
  | take batch =>
    obtain ⟨⟨hhand, -⟩, rest, hrest, rfl⟩ := step_take_iff.mp hs
    rw [hhand, ProducerQueue.dequeueBulk_ofProducer hrest t]
    simp [accepted, delivered, deliveries]
  | deliver batch =>
    obtain ⟨⟨rfl, -⟩, rfl⟩ := step_deliver_iff.mp hs
    simp [accepted, delivered, deliveries]
  | drop producer item | close =>
    obtain rfl := Option.some_inj.mp hs
    simp [accepted, delivered, deliveries]
  | refuse producer item =>
    rw [step] at hs
    split_ifs at hs
    obtain rfl := Option.some_inj.mp hs
    simp [accepted, delivered, deliveries]
  | stop =>
    obtain ⟨-, rfl⟩ := step_stop_iff.mp hs
    simp [accepted, delivered, deliveries]

/-- The accepted items of a producer are those delivered, followed by those in the hand of the
consumer, followed by those in the queue. -/
theorem accepted_eq_of_run (hr : (buffer ι α capacity maxBatch).Run h s) (t : ι) :
    accepted t h = delivered t h ++ ProducerQueue.ofProducer t s.hand ++
      ProducerQueue.ofProducer t s.queue := by
  induction hr using Lts.run_induction with
  | nil => rfl
  | concat h a s s' hr hs ih => exact accepted_step hs t ih

/-- A consumer that has stopped has left nothing behind. -/
theorem empty_of_stopped (hr : (buffer ι α capacity maxBatch).Run h s)
    (hstopped : s.stopped = true) : s.queue = [] ∧ s.hand = [] := by
  induction hr using Lts.run_induction with
  | nil => cases hstopped
  | concat h a s s' hr hs ih =>
    replace hs : step capacity maxBatch s a = some s' := hs
    cases a with
    | accept producer item =>
      obtain ⟨⟨hrunning, -⟩, rfl⟩ := step_accept_iff.mp hs
      exact absurd hstopped (by simp [hrunning])
    | take batch =>
      obtain ⟨⟨-, hne, -⟩, rest, hrest, rfl⟩ := step_take_iff.mp hs
      have hlength := ProducerQueue.dequeueBulk_length hrest
      rw [(ih hstopped).1] at hlength
      exact absurd (List.length_eq_zero_iff.mp (by simp at hlength; omega)) hne
    | deliver batch =>
      obtain ⟨-, rfl⟩ := step_deliver_iff.mp hs
      exact ⟨(ih hstopped).1, rfl⟩
    | drop producer item | close =>
      obtain rfl := Option.some_inj.mp hs
      exact ih hstopped
    | refuse producer item =>
      rw [step] at hs
      split_ifs at hs
      obtain rfl := Option.some_inj.mp hs
      exact ih hstopped
    | stop =>
      obtain ⟨⟨-, -, hqueue, hhand⟩, rfl⟩ := step_stop_iff.mp hs
      exact ⟨hqueue, hhand⟩

/-- When the consumer has stopped, every accepted item has been delivered, in the order of its
producer. -/
theorem delivered_of_stopped (hr : (buffer ι α capacity maxBatch).Run h s)
    (hstopped : s.stopped = true) (t : ι) : accepted t h = delivered t h := by
  obtain ⟨hqueue, hhand⟩ := empty_of_stopped hr hstopped
  rw [accepted_eq_of_run hr t, hqueue, hhand]
  simp

end BoundedBuffer
