import GalayTracing.Common.RandomIds
import GalayTracing.Foundation.Lts
import Mathlib.Logic.Function.Basic

/-!
# The random identifiers of all threads

Every thread has a generator of its own, `thread_local` and seeded when the thread first draws.  All
generators walk by the same constant, so two threads never draw the same word as long as their walks
stay apart: no thread reaches a state that another one has been in.  Under this condition on the
seeds no identifier is returned twice, whatever the order in which the threads call.
-/

namespace GalayTracing

open WordMixing

/-- The generators of all threads, and what their calls have returned so far. -/
structure IdThreads {θ : Type*} (seed : θ → UInt64) where
  generator : ∀ t, Generator (seed t)
  returned : List (θ × RandomId) := []

variable {θ : Type*} [DecidableEq θ] {seed : θ → UInt64}

/-- A call of a thread. -/
def IdThreads.step (order : ByteOrder) (fuel : ℕ) (s : IdThreads seed) (a : θ × RandomCall) :
    Option (IdThreads seed) :=
  (random order fuel (s.generator a.1) a.2).map fun (id, g) =>
    { generator := Function.update s.generator a.1 g, returned := s.returned ++ [(a.1, id)] }

/-- Threads that start from the given seeds. -/
def idThreads (order : ByteOrder) (fuel : ℕ) (seed : θ → UInt64) :
    Lts (IdThreads seed) (θ × RandomCall) where
  init := { generator := fun t => .seeded (seed t) }
  step := IdThreads.step order fuel

omit [DecidableEq θ] in
/-- `Apart seed n`: in their first `n` steps the walks of two threads do not meet. -/
def Apart (seed : θ → UInt64) (n : ℕ) : Prop :=
  ∀ t t', t ≠ t' → ∀ j ≤ n, ∀ k ≤ n,
    walk (seed t).toBitVec kIncrement.toBitVec j ≠ walk (seed t').toBitVec kIncrement.toBitVec k

/-- A call draws at most two words. -/
lemma random_drawn_le {seed : UInt64} {order : ByteOrder} {fuel : ℕ} (hfuel : 2 ≤ fuel)
    {g g' : Generator seed} {call : RandomCall} {id : RandomId}
    (hrandom : random order fuel g call = some (id, g')) : g'.drawn ≤ g.drawn + 2 := by
  cases call with
  | traceId =>
    obtain ⟨trace, g₁, hmake, hdrawn⟩ := makeRandomTraceId_one order g
    have hmake' : makeRandomTraceId order fuel g = some (trace, g₁) :=
      makeRandom_of_le hmake (by omega)
    rw [random, hmake', Option.map_some] at hrandom
    obtain ⟨-, rfl⟩ := Prod.mk.inj (Option.some.inj hrandom)
    exact hdrawn.le
  | spanId =>
    obtain ⟨span, g₁, hmake, hdrawn⟩ := makeRandomSpanId_two order g
    have hmake' : makeRandomSpanId order fuel g = some (span, g₁) := makeRandom_of_le hmake hfuel
    rw [random, hmake', Option.map_some] at hrandom
    obtain ⟨-, rfl⟩ := Prod.mk.inj (Option.some.inj hrandom)
    exact hdrawn

omit [DecidableEq θ] in
/-- Words of walks that stay apart are different. -/
lemma DrawnBetween.ne_of_apart {order : ByteOrder} {n lo lo' hi hi' : ℕ} {t t' : θ}
    {bytes bytes' : ByteString} (hapart : Apart seed n) (ht : t ≠ t') (hhi : hi ≤ n)
    (hhi' : hi' ≤ n) (hdrawn : DrawnBetween order (seed t) lo hi bytes)
    (hdrawn' : DrawnBetween order (seed t') lo' hi' bytes') : bytes ≠ bytes' := by
  rintro rfl
  obtain ⟨j, -, hj, hbytes⟩ := hdrawn
  obtain ⟨k, -, hk, hbytes'⟩ := hdrawn'
  have hword := wordBytes_injective order (hbytes.symm.trans hbytes')
  have hstate := congrArg UInt64.toBitVec (scramble_injective hword)
  exact hapart t t' ht j (hj.trans hhi) k (hk.trans hhi') hstate

/-- What holds of the identifiers returned so far. -/
structure Recorded (order : ByteOrder) (s : IdThreads seed) : Prop where
  valid : ∀ e ∈ s.returned, e.2.isValid = true
  drawn : ∀ e ∈ s.returned, DrawnBetween order (seed e.1) 0 (s.generator e.1).drawn e.2.bytes
  bound : ∀ t, (s.generator t).drawn ≤ 2 * s.returned.length
  /-- A thread does not return the same twice, until its generator comes round. -/
  pairwise : 2 * s.returned.length < 2 ^ 64 →
    s.returned.Pairwise fun e e' => e.1 = e'.1 → e.2.bytes ≠ e'.2.bytes

/-- A call returns an identifier of its kind. -/
lemma exists_step (order : ByteOrder) {fuel : ℕ} (hfuel : 2 ≤ fuel) (s : IdThreads seed)
    (a : θ × RandomCall) : ∃ s', s.step order fuel a = some s' := by
  obtain ⟨id, g, hrandom, -⟩ := exists_random hfuel (s.generator a.1) a.2
  exact ⟨_, by rw [IdThreads.step, hrandom, Option.map_some]⟩

/-- A call of a thread adds an identifier that it drew while it ran. -/
lemma Recorded.step {order : ByteOrder} {fuel : ℕ} (hfuel : 2 ≤ fuel) {s s' : IdThreads seed}
    {a : θ × RandomCall} (hrec : Recorded order s) (hs : s.step order fuel a = some s') :
    Recorded order s' := by
  obtain ⟨⟨id, g⟩, hrandom, rfl⟩ := Option.map_eq_some_iff.mp hs
  obtain ⟨hvalid, hle, hdrawn⟩ := random_spec hrandom
  have htwo := random_drawn_le hfuel hrandom
  have hbound := hrec.bound
  -- The thread of the call only goes on, and the others stand still.
  have hgrows : ∀ t, (s.generator t).drawn ≤ (Function.update s.generator a.1 g t).drawn := by
    intro t
    rcases eq_or_ne t a.1 with rfl | hne
    · simpa using hle
    · rw [Function.update_of_ne hne]
  refine ⟨?_, ?_, ?_, fun hround => ?_⟩
  · refine List.forall_mem_append.mpr ⟨hrec.valid, fun e he => ?_⟩
    rw [List.mem_singleton.mp he]
    exact hvalid
  · refine List.forall_mem_append.mpr ⟨fun e he => ?_, fun e he => ?_⟩
    · exact (hrec.drawn e he).mono (Nat.le_refl _) (hgrows e.1)
    · rw [List.mem_singleton.mp he]
      simpa using hdrawn.mono (Nat.zero_le _) (Nat.le_refl _)
  · intro t
    have ht := hbound t
    simp only [List.length_append, List.length_singleton]
    rcases eq_or_ne t a.1 with rfl | hne
    · rw [Function.update_self]
      omega
    · rw [Function.update_of_ne hne]
      omega
  · simp only [List.length_append, List.length_singleton] at hround
    have hfew : g.drawn < 2 ^ 64 := by
      have ha := hbound a.1
      omega
    refine List.pairwise_append.mpr ⟨hrec.pairwise (by omega), List.pairwise_singleton _ _, ?_⟩
    intro e he e' he' hsame
    obtain rfl := List.mem_singleton.mp he'
    have hold := hrec.drawn e he
    rw [show e.1 = a.1 from hsame] at hold
    exact hold.ne hdrawn hfew

/-- In every run the identifiers of each thread are recorded. -/
lemma recorded_of_run {order : ByteOrder} {fuel : ℕ} (hfuel : 2 ≤ fuel)
    {h : List (θ × RandomCall)} {s : IdThreads seed} (hr : (idThreads order fuel seed).Run h s) :
    Recorded order s ∧ s.returned.length = h.length := by
  induction hr using Lts.run_induction with
  | nil =>
    refine ⟨⟨by simp [idThreads], by simp [idThreads], fun t => Nat.zero_le _, fun _ => ?_⟩, rfl⟩
    exact List.Pairwise.nil
  | concat h a s s' hr hs ih =>
    obtain ⟨hrec, hlength⟩ := ih
    refine ⟨hrec.step hfuel hs, ?_⟩
    obtain ⟨⟨id, g⟩, -, rfl⟩ := Option.map_eq_some_iff.mp hs
    simp [hlength]

/-- In every order in which the threads call, each call returns, the identifiers are valid, and none
is returned twice by the same thread or by two, if the walks of the threads stay apart and no
generator has come round. -/
theorem threads_draw_distinct {order : ByteOrder} {fuel : ℕ} (hfuel : 2 ≤ fuel)
    {h : List (θ × RandomCall)} {s : IdThreads seed} (hr : (idThreads order fuel seed).Run h s)
    (hround : 2 * h.length < 2 ^ 64) (hapart : Apart seed (2 * h.length)) :
    (∀ a, ∃ s', (idThreads order fuel seed).step s a = some s') ∧
      s.returned.length = h.length ∧ (∀ e ∈ s.returned, e.2.isValid = true) ∧
      (s.returned.filterMap fun e => e.2.traceId?).Nodup ∧
      (s.returned.filterMap fun e => e.2.spanId?).Nodup := by
  obtain ⟨hrec, hlength⟩ := recorded_of_run hfuel hr
  have hbound : ∀ t, (s.generator t).drawn ≤ 2 * h.length := fun t => hlength ▸ hrec.bound t
  have hdistinct : s.returned.Pairwise fun e e' => e.2.bytes ≠ e'.2.bytes := by
    refine (hrec.pairwise (hlength ▸ hround)).imp_of_mem fun {e e'} he he' hsame => ?_
    by_cases ht : e.1 = e'.1
    · exact hsame ht
    · exact (hrec.drawn e he).ne_of_apart hapart ht (hbound _) (hbound _) (hrec.drawn e' he')
  refine ⟨exists_step order hfuel s, hlength, hrec.valid, ?_, ?_⟩
  · refine List.Pairwise.filterMap _ (fun e e' hne trace htrace trace' htrace' heq => ?_) hdistinct
    rw [RandomId.bytes_of_traceId? htrace, RandomId.bytes_of_traceId? htrace', heq] at hne
    exact hne rfl
  · refine List.Pairwise.filterMap _ (fun e e' hne span hspan span' hspan' heq => ?_) hdistinct
    rw [RandomId.bytes_of_spanId? hspan, RandomId.bytes_of_spanId? hspan', heq] at hne
    exact hne rfl

/-- Two threads with the seeds zero and one, which call in turn. -/
theorem threads_draw_distinct_twoThreads :
    ∃ s, (idThreads .little 2 (fun t : Fin 2 => if t = 0 then 0 else 1)).Run
        [(0, .traceId), (1, .spanId), (0, .spanId)] s ∧
      (s.returned.filterMap fun e => e.2.spanId?).Nodup := by
  obtain ⟨s, hr, -⟩ := Lts.exists_run_of_any
    (L := idThreads .little 2 (fun t : Fin 2 => if t = 0 then 0 else 1))
    (h := [(0, .traceId), (1, .spanId), (0, .spanId)]) (p := fun s => s.returned.length = 3)
    (by decide +kernel)
  have hapart : Apart (fun t : Fin 2 => if t = 0 then 0 else 1) 6 := by
    unfold Apart
    decide +kernel
  exact ⟨s, hr, (threads_draw_distinct (by decide) hr (by decide) hapart).2.2.2.2⟩

end GalayTracing
