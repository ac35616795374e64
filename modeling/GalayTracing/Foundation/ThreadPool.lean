import Mathlib.Algebra.BigOperators.Group.Finset.Piecewise
import Mathlib.Algebra.Order.BigOperators.Group.Finset
import Mathlib.Tactic.Common

/-!
# Pools of threads over a shared memory

Any finite number of threads and one distinguished worker run over a shared memory.  One atomic
operation of a thread is a `Command`: it is taken at one program point, its guard says which
shared memory it can observe, and it updates the memory and moves on to the next program point.

Invariants of such a pool are mostly linear relations between counters of the shared memory and
the number of threads that stand at certain program points.  The latter is a sum of weights,
`poolSum`, and `poolSum_update` says how one step changes it.
-/

/-- One atomic operation of a thread with program points `Pc` on the shared memory `Sh`. -/
structure Command (Sh Pc : Type*) where
  /-- The program point the operation is performed at. -/
  source : Pc
  /-- What the operation requires of the shared memory, including the values it observes. -/
  guard : Sh → Bool
  /-- The effect on the shared memory. -/
  update : Sh → Sh
  /-- The program point after the operation. -/
  target : Pc

/-- The states of a pool: the shared memory, the program point of each thread, and that of the
worker. -/
structure Pool (ι Sh Pc W : Type*) where
  /-- The shared memory. -/
  sh : Sh
  /-- The program point of each thread. -/
  pc : ι → Pc
  /-- The program point of the worker. -/
  worker : W

namespace Pool

variable {ι Sh Pc W : Type*} [DecidableEq ι] [DecidableEq Pc] [DecidableEq W]

/-- Thread `t` performs the command `c`. -/
def threadStep (s : Pool ι Sh Pc W) (t : ι) (c : Command Sh Pc) : Option (Pool ι Sh Pc W) :=
  if s.pc t = c.source ∧ c.guard s.sh = true then
    some { s with sh := c.update s.sh, pc := Function.update s.pc t c.target }
  else none

/-- The worker performs the command `c`. -/
def workerStep (s : Pool ι Sh Pc W) (c : Command Sh W) : Option (Pool ι Sh Pc W) :=
  if s.worker = c.source ∧ c.guard s.sh = true then
    some { s with sh := c.update s.sh, worker := c.target }
  else none

omit [DecidableEq W] in
/-- A thread's step is enabled at the source of its command when the guard holds. -/
lemma threadStep_eq_some {s s' : Pool ι Sh Pc W} {t : ι} {c : Command Sh Pc} :
    s.threadStep t c = some s' ↔ s.pc t = c.source ∧ c.guard s.sh = true ∧
      s' = { s with sh := c.update s.sh, pc := Function.update s.pc t c.target } := by
  rw [threadStep]
  split_ifs with h
  · simp [h, eq_comm]
  · simp [← and_assoc, h]

omit [DecidableEq ι] [DecidableEq Pc] in
/-- The worker's step is enabled at the source of its command when the guard holds. -/
lemma workerStep_eq_some {s s' : Pool ι Sh Pc W} {c : Command Sh W} :
    s.workerStep c = some s' ↔ s.worker = c.source ∧ c.guard s.sh = true ∧
      s' = { s with sh := c.update s.sh, worker := c.target } := by
  rw [workerStep]
  split_ifs with h
  · simp [h, eq_comm]
  · simp [← and_assoc, h]

omit [DecidableEq W] in
/-- A step of a thread leaves the others where they are. -/
lemma threadStep_pc_of_ne {s s' : Pool ι Sh Pc W} {t t' : ι} {c : Command Sh Pc} (ht : t' ≠ t)
    (hs : s.threadStep t' c = some s') : s'.pc t = s.pc t := by
  obtain ⟨-, -, rfl⟩ := threadStep_eq_some.mp hs
  exact Function.update_of_ne (Ne.symm ht) c.target s.pc

omit [DecidableEq W] in
/-- The thread that moves goes on where its command says. -/
lemma threadStep_pc_self {s s' : Pool ι Sh Pc W} {t : ι} {c : Command Sh Pc}
    (hs : s.threadStep t c = some s') : s'.pc t = c.target := by
  obtain ⟨-, -, rfl⟩ := threadStep_eq_some.mp hs
  exact Function.update_self t c.target s.pc

omit [DecidableEq Pc] [DecidableEq W] in
/-- The pool with thread `t` at another program point. -/
def moveTo (s : Pool ι Sh Pc W) (t : ι) (p : Pc) : Pool ι Sh Pc W :=
  { s with pc := Function.update s.pc t p }

omit [DecidableEq W] in
/-- The step of a thread does not depend on where another thread stands. -/
lemma threadStep_moveTo {s s' : Pool ι Sh Pc W} {t t' : ι} {c : Command Sh Pc} (p : Pc)
    (ht : t' ≠ t) (hs : s.threadStep t' c = some s') :
    (s.moveTo t p).threadStep t' c = some (s'.moveTo t p) := by
  obtain ⟨hsource, hg, rfl⟩ := threadStep_eq_some.mp hs
  refine threadStep_eq_some.mpr ⟨?_, hg, ?_⟩
  · exact (Function.update_of_ne ht p s.pc).trans hsource
  · rw [moveTo, moveTo, Function.update_comm ht.symm]

omit [DecidableEq W] in
/-- A thread that stands elsewhere performs another command with the same effect. -/
lemma threadStep_moveTo_self {s s' : Pool ι Sh Pc W} {t : ι} {c : Command Sh Pc}
    (c' : Command Sh Pc) (hs : s.threadStep t c = some s') (hg : c'.guard s.sh = true)
    (hupdate : c'.update s.sh = c.update s.sh) :
    (s.moveTo t c'.source).threadStep t c' = some (s'.moveTo t c'.target) := by
  obtain ⟨-, -, rfl⟩ := threadStep_eq_some.mp hs
  refine threadStep_eq_some.mpr ⟨?_, hg, ?_⟩
  · exact Function.update_self t c'.source s.pc
  · rw [moveTo, moveTo, hupdate, Function.update_idem, Function.update_idem]

omit [DecidableEq Pc] in
/-- The worker's step does not depend on where a thread stands. -/
lemma workerStep_moveTo {s s' : Pool ι Sh Pc W} {t : ι} {c : Command Sh W} (p : Pc)
    (hs : s.workerStep c = some s') : (s.moveTo t p).workerStep c = some (s'.moveTo t p) := by
  obtain ⟨hsource, hg, rfl⟩ := workerStep_eq_some.mp hs
  exact workerStep_eq_some.mpr ⟨hsource, hg, rfl⟩

omit [DecidableEq ι] [DecidableEq Pc] [DecidableEq W] in
/-- The pool over another memory. -/
def mapSh (f : Sh → Sh) (s : Pool ι Sh Pc W) : Pool ι Sh Pc W := { s with sh := f s.sh }

omit [DecidableEq W] in
/-- A step of a thread over another memory, by a command between the same program points. -/
lemma threadStep_mapSh {f : Sh → Sh} {s s' : Pool ι Sh Pc W} {t : ι} {c : Command Sh Pc}
    (hs : s.threadStep t c = some s') (hg : c.guard (f s.sh) = c.guard s.sh)
    (hupdate : c.update (f s.sh) = f (c.update s.sh)) :
    (s.mapSh f).threadStep t c = some (s'.mapSh f) := by
  obtain ⟨hsource, hguard, rfl⟩ := threadStep_eq_some.mp hs
  refine threadStep_eq_some.mpr ⟨hsource, hg.trans hguard, ?_⟩
  rw [mapSh, mapSh, hupdate]

omit [DecidableEq ι] [DecidableEq Pc] in
@[inherit_doc threadStep_mapSh]
lemma workerStep_mapSh {f : Sh → Sh} {s s' : Pool ι Sh Pc W} {c c' : Command Sh W}
    (hs : s.workerStep c = some s') (hsource : c'.source = c.source)
    (htarget : c'.target = c.target) (hg : c'.guard (f s.sh) = true)
    (hupdate : c'.update (f s.sh) = f (c.update s.sh)) :
    (s.mapSh f).workerStep c' = some (s'.mapSh f) := by
  obtain ⟨hworker, -, rfl⟩ := workerStep_eq_some.mp hs
  refine workerStep_eq_some.mpr ⟨hworker.trans hsource.symm, hg, ?_⟩
  rw [mapSh, mapSh, hupdate, htarget]

end Pool

/-- A local invariant of the threads: it is enough to check the thread that moved. -/
lemma forall_update {ι Pc : Type*} [DecidableEq ι] {I : ι → Pc → Prop} {pc : ι → Pc} {t : ι}
    {p : Pc} (hothers : ∀ t', t' ≠ t → I t' (pc t')) (hnew : I t p) :
    ∀ t', I t' (Function.update pc t p t') := by
  intro t'
  by_cases h : t' = t
  · rw [h, Function.update_self]
    exact hnew
  · rw [Function.update_of_ne h]
    exact hothers t' h

section PoolSum

variable {ι Pc : Type*} [Fintype ι] [DecidableEq ι]

/-- The total weight of the program points the threads stand at. -/
def poolSum (w : Pc → ℕ) (pc : ι → Pc) : ℕ := ∑ t, w (pc t)

/-- Moving thread `t` to `p` trades the weight of its old program point for that of `p`. -/
lemma poolSum_update (w : Pc → ℕ) (pc : ι → Pc) (t : ι) (p : Pc) :
    poolSum w (Function.update pc t p) + w (pc t) = poolSum w pc + w p := by
  have hcomp : (fun t' => w (Function.update pc t p t')) =
      Function.update (fun t' => w (pc t')) t (w p) := by
    funext t'
    by_cases h : t' = t
    · subst h; simp
    · simp [h]
  have hsum : ∑ t', w (Function.update pc t p t') =
      w p + ∑ t' ∈ Finset.univ \ {t}, w (pc t') := by
    rw [hcomp, Finset.sum_update_of_mem (Finset.mem_univ t)]
  have hold : ∑ t', w (pc t') = ∑ t' ∈ Finset.univ \ {t}, w (pc t') + w (pc t) := by
    rw [← Finset.sum_sdiff (Finset.subset_univ {t}), Finset.sum_singleton]
  rw [poolSum, poolSum, hsum, hold]
  omega

omit [DecidableEq ι] in
/-- A single thread's weight is part of the total. -/
lemma le_poolSum (w : Pc → ℕ) (pc : ι → Pc) (t : ι) : w (pc t) ≤ poolSum w pc :=
  Finset.single_le_sum (f := fun t' => w (pc t')) (fun _ _ => Nat.zero_le _) (Finset.mem_univ t)

omit [DecidableEq ι] in
/-- The total weight vanishes exactly when every thread stands at a point of weight zero. -/
lemma poolSum_eq_zero_iff (w : Pc → ℕ) (pc : ι → Pc) :
    poolSum w pc = 0 ↔ ∀ t, w (pc t) = 0 := by
  simp [poolSum]

omit [DecidableEq ι] in
/-- A constant pool has a total weight of zero when the common point has weight zero. -/
lemma poolSum_const_zero {w : Pc → ℕ} {p : Pc} (hp : w p = 0) :
    poolSum w (fun _ : ι => p) = 0 := by
  simp [poolSum, hp]

end PoolSum
