import GalayTracing.BatchSpanProcessor.LongerTimeout

/-!
# Timeouts of `forceFlush` and `shutdown`

A timeout is given in milliseconds, and the deadline is computed in 64-bit signed nanoseconds.  If
the deadline is a time point, everything that is done with it is as it should be; if not, it wraps
around, and for `milliseconds::max()` it is a millisecond before the present.  So a timeout is safe
at a reading of the clock if and only if it fits, `timeoutSafe_iff`.
-/

namespace GalayTracing

variable {ι α : Type} {now timeout : ℤ}

/-! ### The arithmetic of deadlines -/

/-- The deadline is the timeout after the present, as long as this is a time point. -/
lemma deadlineAfter_eq (hnow : 0 ≤ now) (htimeout : 0 ≤ timeout)
    (hfits : now + timeout * 1000000 ≤ timePointMax) :
    deadlineAfter now timeout = now + timeout * 1000000 := by
  unfold deadlineAfter timePointMax at *
  rw [Int.bmod_def]
  omega

/-- A deadline is a time point. -/
lemma deadlineAfter_le (now timeout : ℤ) : deadlineAfter now timeout ≤ timePointMax := by
  unfold deadlineAfter timePointMax
  rw [Int.bmod_def]
  omega

/-- The time left until a deadline is at most the timeout. -/
lemma remainingTimeout_mem {later : ℤ} (hlater : now ≤ later) (htimeout : 0 ≤ timeout) :
    0 ≤ remainingTimeout later (now + timeout * 1000000) ∧
      remainingTimeout later (now + timeout * 1000000) ≤ timeout := by
  unfold remainingTimeout
  split_ifs with hpassed
  · exact ⟨le_rfl, htimeout⟩
  · rw [Int.tdiv_eq_ediv_of_nonneg (by omega)]
    omega

variable [DecidableEq ι] [DecidableEq α] {P : Processor α} {s s' s₁ : State ι α} {a : Act ι α}
  {h rest : List (Act ι α)} {t : ι} {request : ℕ}

/-- In the history, thread `t` constructed the request with the timeout, and the clock read `now`. -/
def CreatedAt (P : Processor α) (t : ι) (now timeout : ℤ) (request : ℕ) (h : List (Act ι α)) :
    Prop :=
  ∃ h₁ h₂ s, h = h₁ ++ .forceFlush t (.create timeout request) :: h₂ ∧ (system ι P).Run h₁ s ∧
    s.sh.now = now

/-- The step is a call of `forceFlush` or of `shutdown` by thread `t`. -/
def IsCall (t : ι) (timeout : ℤ) (a : Act ι α) : Prop :=
  a = .forceFlush t (.call timeout) ∨ ∃ deadline, a = .shutdown t (.call timeout deadline)

/-- From the state `s` on, the history `a :: rest` is a call of thread `t` with the timeout, which
returns `true` with the last step; the clock reads `now` when the deadline is computed. -/
structure SuccessfulCall (P : Processor α) (t : ι) (now timeout : ℤ) (s : State ι α) (a : Act ι α)
    (rest : List (Act ι α)) : Prop where
  /-- The first step is the call. -/
  call : IsCall t timeout a
  /-- `shutdown` computes its deadline in the first step. -/
  clock : (∀ b, a ≠ .forceFlush t b) → s.sh.now = now
  /-- The other steps are the rest of the call. -/
  goesOn : ∃ s₁, step P s a = some s₁ ∧ Succeeding P t s₁ rest ∧ ComputesAt P t now s₁ rest

/-- What a timeout has to guarantee at a reading of the clock. -/
structure TimeoutSafe (ι : Type) [DecidableEq ι] (P : Processor α) (now timeout : ℤ) : Prop where
  /-- The deadline of a request is the timeout after the present. -/
  request : ∀ (t : ι) request h s, (system ι P).Run h s → CreatedAt P t now timeout request h →
    (s.sh.requests request).deadline = now + timeout * 1000000 ∧
      now ≤ (s.sh.requests request).deadline
  /-- The deadline of `shutdown` is the timeout after the present. -/
  shutdown : ∀ (t : ι) deadline h s s', (system ι P).Run h s → s.sh.now = now →
    step P s (.shutdown t (.call timeout deadline)) = some s' →
      deadline = now + timeout * 1000000 ∧ now ≤ deadline
  /-- Until then, `drainUntilIdle` enters its loop for the request. -/
  drain : ∀ (t : ι) request site ok value h s s', (system ι P).Run h s →
    CreatedAt P t now timeout request h → s.sh.now ≤ now + timeout * 1000000 →
    step P s (.worker (.drainClock (.request site request) ok value)) = some s' → value = true
  /-- The exporter is never given a negative time, nor more than the timeout. -/
  remaining : ∀ (t : ι) request site ok remaining h s s', (system ι P).Run h s →
    CreatedAt P t now timeout request h →
    step P s (.worker (.callFlush site request ok remaining)) = some s' →
      0 ≤ remaining ∧ remaining ≤ timeout
  /-- A call that succeeds with a shorter timeout succeeds with this one, in a history that is the
  same up to the timeouts. -/
  longer : ∀ (t : ι) shorter h s a rest, (system ι P).Run h s → 0 ≤ shorter → shorter ≤ timeout →
    SuccessfulCall P t now shorter s a rest → ∃ a' rest' e, IsCall t timeout a' ∧
      (system ι P).exec s (a' :: rest') = some e ∧
        (a' :: rest').map Act.untimed = (a :: rest).map Act.untimed

/-- A request keeps the deadline that was computed when it was constructed. -/
lemma CreatedAt.deadline_eq (hc : CreatedAt P t now timeout request h)
    (hr : (system ι P).Run h s) : request < s.sh.created ∧ now ≤ s.sh.now ∧
      (s.sh.requests request).deadline = deadlineAfter now timeout := by
  obtain ⟨h₁, h₂, s₀, rfl, hr₀, hnow⟩ := hc
  rw [List.append_cons] at hr
  induction hr using Lts.run_induction_from with
  | nil s hr =>
    rw [List.append_nil] at hr
    obtain ⟨s₁, hr₁, hs⟩ := run_step_iff.mp hr
    obtain rfl := hr₀.unique hr₁
    obtain ⟨-, hg, rfl⟩ := step_forceFlush_iff.mp hs
    have hcreated : s₀.sh.created = request := beq_iff_eq.mp hg
    simp only [forceFlushCommand, Function.update_self, hnow]
    exact ⟨by omega, le_rfl, trivial⟩
  | concat h a s s' hr hs ih =>
    obtain ⟨hcreated, hle, hdeadline⟩ := ih
    refine ⟨hcreated.trans_le (created_le_of_step hs), hle.trans (now_le_of_step hs), ?_⟩
    rw [deadline_of_step hs hcreated, hdeadline]

variable [Fintype ι]

/-- A call of `forceFlush` with a longer timeout. -/
lemma forceFlush_longer {shorter : ℤ} (hr : (system ι P).Run h s) (hnonneg : 0 ≤ shorter)
    (hle : shorter ≤ timeout) (hs : step P s (.forceFlush t (.call shorter)) = some s₁)
    (hC : Succeeding P t s₁ rest) (hnow : ComputesAt P t now s₁ rest)
    (hmono : ∀ timeout₀, 0 ≤ timeout₀ → timeout₀ ≤ timeout →
      deadlineAfter now timeout₀ ≤ deadlineAfter now timeout) :
    ∃ s₁' rest' e, step P s (.forceFlush t (.call timeout)) = some s₁' ∧
      (system ι P).exec s₁' rest' = some e ∧ rest'.map Act.untimed = rest.map Act.untimed := by
  have hidle : s.pc t = (forceFlushCommand (ι := ι) (α := α) t (.call timeout)).source :=
    (step_forceFlush_iff.mp hs).1
  have hpc : s₁.pc t = .forceFlush (.announce shorter) := by
    rw [forceFlush_pc_eq hs, Function.update_self]
    exact if_neg (not_lt.mpr hnonneg)
  have hstep := Pool.threadStep_moveTo_self (forceFlushCommand t (.call timeout)) hs rfl rfl
  rw [moveTo_pc hidle] at hstep
  have htarget : (forceFlushCommand (ι := ι) (α := α) t (.call timeout)).target =
      .forceFlush (.announce timeout) := if_neg (not_lt.mpr (hnonneg.trans hle))
  rw [htarget] at hstep
  obtain ⟨rest', e, hexec, hmap⟩ := exists_longer (run_step hr hs) hC hnow
    (.announced s₁ hpc rfl hnonneg hle) hmono
  exact ⟨_, rest', e, hstep, hexec, hmap⟩

/-- A call of `shutdown` with a longer timeout. -/
lemma shutdown_longer {shorter deadline : ℤ} (hr : (system ι P).Run h s) (hnonneg : 0 ≤ shorter)
    (hle : shorter ≤ timeout) (hs : step P s (.shutdown t (.call shorter deadline)) = some s₁)
    (hclock : s.sh.now = now) (hC : Succeeding P t s₁ rest) (hnow : ComputesAt P t now s₁ rest)
    (hmono : ∀ timeout₀, 0 ≤ timeout₀ → timeout₀ ≤ timeout →
      deadlineAfter now timeout₀ ≤ deadlineAfter now timeout) :
    ∃ s₁' rest' e,
      step P s (.shutdown t (.call timeout (deadlineAfter now timeout))) = some s₁' ∧
        (system ι P).exec s₁' rest' = some e ∧ rest'.map Act.untimed = rest.map Act.untimed := by
  have hidle : s.pc t =
      (shutdownCommand (ι := ι) P (.call timeout (deadlineAfter now timeout))).source :=
    (step_shutdown_iff.mp hs).1
  have hdeadline : deadlineAfter now shorter = deadline := by
    rw [← hclock]
    exact beq_iff_eq.mp (step_shutdown_iff.mp hs).2.1
  have hpc : s₁.pc t = .shutdown (.storeRequested deadline) := by
    rw [shutdown_pc_eq hs, Function.update_self]
    rfl
  have hguard : (shutdownCommand (ι := ι) P (.call timeout (deadlineAfter now timeout))).guard
      s.sh = true := by
    rw [← hclock]
    exact beq_self_eq_true (deadlineAfter s.sh.now timeout)
  have hstep := Pool.threadStep_moveTo_self
    (shutdownCommand P (.call timeout (deadlineAfter now timeout))) hs hguard rfl
  rw [moveTo_pc hidle] at hstep
  obtain ⟨rest', e, hexec, hmap⟩ := exists_longer (run_step hr hs) hC hnow
    (.closing s₁ hpc (hdeadline ▸ hmono shorter hnonneg hle)) hmono
  exact ⟨_, rest', e, hstep, hexec, hmap⟩

/-- A timeout is safe at a reading of the clock if and only if the clock can reach the deadline. -/
theorem timeoutSafe_iff [Nonempty ι] (P : Processor α) (hnow : 0 ≤ now) (hmax : now ≤ timePointMax)
    (htimeout : 0 ≤ timeout) :
    TimeoutSafe ι P now timeout ↔ now + timeout * 1000000 ≤ timePointMax := by
  constructor
  · intro hsafe
    obtain ⟨t⟩ := ‹Nonempty ι›
    obtain ⟨s, htick, hclock, hidle⟩ : ∃ s, step P (initial : State ι α) (.tick now) = some s ∧
        s.sh.now = now ∧ s.pc t = .idle := ⟨_, step_tick_iff.mpr ⟨⟨hnow, hmax⟩, rfl⟩, rfl, rfl⟩
    have hg : (shutdownCommand (ι := ι) P (.call timeout (deadlineAfter now timeout))).guard
        s.sh = true := by
      rw [← hclock]
      exact beq_self_eq_true (deadlineAfter s.sh.now timeout)
    obtain ⟨hdeadline, -⟩ := hsafe.shutdown t _ _ s _ (run_step (Lts.run_nil _) htick) hclock
      (step_shutdown_iff.mpr ⟨hidle, hg, rfl⟩)
    rw [← hdeadline]
    exact deadlineAfter_le now timeout
  · intro hfits
    have hdeadline := deadlineAfter_eq hnow htimeout hfits
    have hmono : ∀ timeout₀, 0 ≤ timeout₀ → timeout₀ ≤ timeout →
        deadlineAfter now timeout₀ ≤ deadlineAfter now timeout := by
      intro timeout₀ hnonneg hle
      rw [hdeadline, deadlineAfter_eq hnow hnonneg (by omega)]
      omega
    constructor
    · intro t request h s hr hc
      obtain ⟨-, -, heq⟩ := hc.deadline_eq hr
      rw [heq, hdeadline]
      exact ⟨rfl, by omega⟩
    · rintro t deadline h s s' - hclock hs
      have hg := (step_shutdown_iff.mp hs).2.1
      obtain rfl : deadlineAfter s.sh.now timeout = deadline := beq_iff_eq.mp hg
      rw [hclock, hdeadline]
      exact ⟨rfl, by omega⟩
    · intro t request site ok value h s s' hr hc hbefore hs
      obtain ⟨-, -, heq⟩ := hc.deadline_eq hr
      have hg := (step_worker_iff.mp hs).2.1
      have htest : decide (s.sh.now ≤ (s.sh.requests request).deadline) = value :=
        beq_iff_eq.mp hg
      rw [← htest, heq, hdeadline]
      exact decide_eq_true hbefore
    · intro t request site ok remaining h s s' hr hc hs
      obtain ⟨-, hlater, heq⟩ := hc.deadline_eq hr
      have hg := (step_worker_iff.mp hs).2.1
      obtain rfl : remainingTimeout s.sh.now (s.sh.requests request).deadline = remaining :=
        beq_iff_eq.mp hg
      rw [heq, hdeadline]
      exact remainingTimeout_mem hlater htimeout
    · rintro t shorter h s a rest hr hnonneg hle ⟨hcall, hclock, s₁, hs, hC, hcomputes⟩
      rcases hcall with rfl | ⟨deadline, rfl⟩
      · obtain ⟨s₁', rest', e, hs', hexec, hmap⟩ :=
          forceFlush_longer hr hnonneg hle hs hC hcomputes hmono
        refine ⟨_, rest', e, Or.inl rfl, (Lts.exec_cons_of_step hs' rest').trans hexec, ?_⟩
        rw [List.map_cons, List.map_cons, hmap]
        rfl
      · obtain ⟨s₁', rest', e, hs', hexec, hmap⟩ :=
          shutdown_longer hr hnonneg hle hs (hclock nofun) hC hcomputes hmono
        refine ⟨_, rest', e, Or.inr ⟨_, rfl⟩, (Lts.exec_cons_of_step hs' rest').trans hexec, ?_⟩
        rw [List.map_cons, List.map_cons, hmap]
        rfl

/-- A timeout of a second is safe when the clock starts. -/
theorem timeoutSafe_oneSecond : TimeoutSafe Thread (smallProcessor .kTimed 2 1) 0 1000 :=
  haveI : Nonempty Thread := ⟨.t₁⟩
  (timeoutSafe_iff _ (by decide) (by decide) (by decide)).mpr (by decide)

/-- `forceFlush(milliseconds::max())`, up to the service of its request. -/
def maxTimeoutFlush : List (Act Thread ℕ) :=
  [.forceFlush .t₁ (.call (2 ^ 63 - 1)), .forceFlush .t₁ (.announce (2 ^ 63 - 1)),
    .forceFlush .t₁ (.loadShutdown (2 ^ 63 - 1) false),
    .forceFlush .t₁ (.loadStopped (2 ^ 63 - 1) false),
    .forceFlush .t₁ (.create (2 ^ 63 - 1) 0), .forceFlush .t₁ (.enqueue 0 true),
    .forceFlush .t₁ (.leave (.queued 0) 1), .forceFlush .t₁ (.leaveLoad (.queued 0) false),
    .forceFlush .t₁ (.notifyStore 0), .forceFlush .t₁ (.notifyRelease 0),
    .worker .waitAcquire, .worker .clearPending, .worker (.loadShutdown false false),
    .worker (.dequeueRequest (.head false false) false .t₁ 0)]

/-- The longest timeout is over at once: the worker does not even enter the loop of
`drainUntilIdle`. -/
theorem not_forall_timeoutSafe : ¬∀ now timeout : ℤ, 0 ≤ now → now ≤ timePointMax → 0 ≤ timeout →
    timeout ≤ 2 ^ 63 - 1 → TimeoutSafe Thread (smallProcessor .kTimed 2 1) now timeout := by
  intro hall
  have hsafe := hall 0 (2 ^ 63 - 1) (by decide) (by decide) (by decide) (by decide)
  let skipsLoop : Act Thread ℕ := .worker (.drainClock (.request (.head false false) 0) true false)
  obtain ⟨s₀, hr₀, hclock₀⟩ := Lts.exists_run_of_any
    (L := system Thread (smallProcessor .kTimed 2 1)) (h := maxTimeoutFlush.take 4)
    (p := fun s => s.sh.now == 0) (by decide)
  obtain ⟨s, hr, hlast⟩ := Lts.exists_run_of_any
    (L := system Thread (smallProcessor .kTimed 2 1)) (h := maxTimeoutFlush)
    (p := fun s => s.sh.now == 0 && (step (smallProcessor .kTimed 2 1) s skipsLoop).isSome)
    (by decide)
  obtain ⟨hclock, hskips⟩ := Bool.and_eq_true_iff.mp hlast
  obtain ⟨s', hs⟩ := Option.isSome_iff_exists.mp hskips
  have hcreated : CreatedAt (smallProcessor .kTimed 2 1) .t₁ 0 (2 ^ 63 - 1) 0 maxTimeoutFlush :=
    ⟨maxTimeoutFlush.take 4, maxTimeoutFlush.drop 5, s₀, rfl, hr₀, beq_iff_eq.mp hclock₀⟩
  have hvalue := hsafe.drain .t₁ 0 _ true false _ s s' hr hcreated
    (by rw [beq_iff_eq.mp hclock]; decide) hs
  cases hvalue

end GalayTracing
