import Mathlib.Data.List.Basic
import Mathlib.Tactic.Common

/-!
# Stores of snapshots

A writer that replaces a value while readers use it without a lock publishes a new snapshot and
keeps the old ones.  A store is the list of the snapshots that are owned, each with its address; it
only grows, so what a reader has found at an address stays there.
-/

/-- The snapshots that are owned, with their addresses, the oldest first. -/
abbrev SnapshotStore (α : Type*) := List (ℕ × α)

namespace SnapshotStore

variable {α : Type*} {store : SnapshotStore α} {address address' : ℕ} {value value' : α}

/-- The snapshot at an address; `none` if nothing is owned there. -/
def read (store : SnapshotStore α) (address : ℕ) : Option α := store.lookup address

/-- No snapshot is owned at the address, so that an allocation may return it. -/
def isFree (store : SnapshotStore α) (address : ℕ) : Bool := (store.read address).isNone

/-- The store with one more snapshot. -/
def push (store : SnapshotStore α) (address : ℕ) (value : α) : SnapshotStore α :=
  store ++ [(address, value)]

/-- A new snapshot is found at its address. -/
lemma read_push (hfree : store.isFree address = true) :
    (store.push address value).read address = some value := by
  have hnone : store.lookup address = none := Option.isNone_iff_eq_none.mp hfree
  rw [read, push, List.lookup_append, hnone, Option.none_or, List.lookup_cons_self]

/-- The old snapshots stay where they are. -/
lemma read_push_of_read (hread : store.read address = some value) :
    (store.push address' value').read address = some value := by
  have hsome : store.lookup address = some value := hread
  rw [read, push, List.lookup_append, hsome, Option.some_or]

/-- What is found at an address is owned. -/
lemma mem_of_read (hread : store.read address = some value) : (address, value) ∈ store := by
  induction store with
  | nil => cases hread
  | cons entry store ih =>
    rw [read, List.lookup_cons] at hread
    split at hread
    case h_1 heq =>
      rw [← Option.some_inj.mp hread, beq_iff_eq.mp heq]
      exact List.mem_cons_self
    case h_2 => exact List.mem_cons_of_mem _ (ih hread)

end SnapshotStore
