import Mathlib.Data.List.Basic
import Mathlib.Data.List.Perm.Basic
import Mathlib.Tactic.Common

/-!
# A queue that is first-in first-out for each producer

Entries are pairs of a producer and an item, oldest first.  A consumer may take the oldest entry
of any producer; it need not respect the order between two producers.  A bulk dequeue takes
several entries one after another.
-/

namespace ProducerQueue

variable {ι α : Type*}

section OfProducer

variable [DecidableEq ι]

/-- The items of producer `t`, oldest first. -/
def ofProducer (t : ι) (q : List (ι × α)) : List α :=
  q.filterMap fun e => if e.1 = t then some e.2 else none

@[simp] lemma ofProducer_nil (t : ι) : ofProducer t ([] : List (ι × α)) = [] := rfl

@[simp] lemma ofProducer_append (t : ι) (q r : List (ι × α)) :
    ofProducer t (q ++ r) = ofProducer t q ++ ofProducer t r := by
  simp [ofProducer]

lemma ofProducer_cons (t : ι) (e : ι × α) (q : List (ι × α)) :
    ofProducer t (e :: q) = (if e.1 = t then [e.2] else []) ++ ofProducer t q := by
  by_cases h : e.1 = t <;> simp [ofProducer, h]

end OfProducer

variable [DecidableEq ι] [DecidableEq α]

/-- Take the entry `e` out of the queue; possible when it is the oldest one of its producer. -/
def dequeue (e : ι × α) : List (ι × α) → Option (List (ι × α))
  | [] => none
  | x :: q => if x.1 = e.1 then if x = e then some q else none else (dequeue e q).map (x :: ·)

/-- Take the entries of `batch` out of the queue, one after another. -/
def dequeueBulk (batch q : List (ι × α)) : Option (List (ι × α)) :=
  batch.foldlM (fun q e => dequeue e q) q

/-- A dequeue splits the queue into the entry and the rest. -/
lemma dequeue_perm {e : ι × α} {q r : List (ι × α)} (h : dequeue e q = some r) :
    q.Perm (e :: r) := by
  induction q generalizing r with
  | nil => simp [dequeue] at h
  | cons x q ih =>
    rw [dequeue] at h
    split_ifs at h with h₁ h₂
    · obtain rfl := Option.some_inj.mp h
      rw [h₂]
    · obtain ⟨r', hr', rfl⟩ := Option.map_eq_some_iff.mp h
      exact ((ih hr').cons x).trans (List.Perm.swap e x r')

/-- A dequeue takes the oldest item of its producer and leaves the other producers alone. -/
lemma dequeue_ofProducer {e : ι × α} {q r : List (ι × α)} (h : dequeue e q = some r) (t : ι) :
    ofProducer t q = (if e.1 = t then [e.2] else []) ++ ofProducer t r := by
  induction q generalizing r with
  | nil => simp [dequeue] at h
  | cons x q ih =>
    rw [dequeue] at h
    split_ifs at h with h₁ h₂
    · obtain rfl := Option.some_inj.mp h
      rw [h₂, ofProducer_cons]
    · obtain ⟨r', hr', rfl⟩ := Option.map_eq_some_iff.mp h
      rw [ofProducer_cons, ofProducer_cons, ih hr']
      by_cases hx : x.1 = t
      · have he : e.1 ≠ t := fun he => h₁ (hx.trans he.symm)
        simp [hx, he]
      · simp [hx]

/-- Dequeueing an empty queue is impossible. -/
@[simp] lemma dequeue_nil (e : ι × α) : dequeue e [] = none := rfl

lemma dequeueBulk_cons (e : ι × α) (batch q : List (ι × α)) :
    dequeueBulk (e :: batch) q = (dequeue e q).bind fun q' => dequeueBulk batch q' := by
  simp [dequeueBulk, Option.bind_eq_bind]

/-- A bulk dequeue splits the queue into the batch and the rest. -/
theorem dequeueBulk_perm {batch q r : List (ι × α)} (h : dequeueBulk batch q = some r) :
    q.Perm (batch ++ r) := by
  induction batch generalizing q with
  | nil => simp [dequeueBulk] at h; simp [h]
  | cons e batch ih =>
    rw [dequeueBulk_cons, Option.bind_eq_some_iff] at h
    obtain ⟨q', hq', h⟩ := h
    exact (dequeue_perm hq').trans ((ih h).cons e)

/-- A bulk dequeue takes the oldest items of each producer, in their order. -/
theorem dequeueBulk_ofProducer {batch q r : List (ι × α)} (h : dequeueBulk batch q = some r)
    (t : ι) : ofProducer t q = ofProducer t batch ++ ofProducer t r := by
  induction batch generalizing q with
  | nil => simp [dequeueBulk] at h; simp [h]
  | cons e batch ih =>
    rw [dequeueBulk_cons, Option.bind_eq_some_iff] at h
    obtain ⟨q', hq', h⟩ := h
    rw [dequeue_ofProducer hq' t, ih h, ofProducer_cons, List.append_assoc]

/-- The number of entries a bulk dequeue leaves. -/
lemma dequeueBulk_length {batch q r : List (ι × α)} (h : dequeueBulk batch q = some r) :
    q.length = batch.length + r.length := by
  simpa using (dequeueBulk_perm h).length_eq

end ProducerQueue
