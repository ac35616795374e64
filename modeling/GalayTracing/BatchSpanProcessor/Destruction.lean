import GalayTracing.BatchSpanProcessor.Refinement

/-!
# When a processor can be destroyed

The destructor calls `shutdown` and then destroys the members, among them the thread object of the
worker, which must have been joined, and the exporter, which must not be in use.  Who joins the
worker and who closes the exporter is decided by two flags that callers of `shutdown` claim with an
`exchange`.  For each of the flags the uses made so far and the callers about to make one add up to
the value of the flag, `uses_eq_of_run`; so when a call of `shutdown` has returned and nobody is
inside the processor any more, each use has been made exactly once, `destructible_of_quiescent`.
-/

namespace GalayTracing

variable {ι α : Type}

/-- A weight of the callers of `shutdown`. -/
def CallerPc.inShutdown (w : ShutdownPc → ℕ) : CallerPc α → ℕ
  | .shutdown p => w p
  | _ => 0

/-- The step is an operation of `shutdown` of the given kind. -/
def ofShutdown (used : ShutdownAct → Bool) : Act ι α → Bool
  | .shutdown _ a => used a
  | _ => false

/-- `m_worker.join()` returns. -/
def ShutdownAct.joins : ShutdownAct → Bool
  | .join _ => true
  | _ => false

/-- The exporter's `shutdown` is called. -/
def ShutdownAct.closes : ShutdownAct → Bool
  | .callExporter _ _ => true
  | _ => false

/-- The exporter's `shutdown` returns. -/
def ShutdownAct.closed : ShutdownAct → Bool
  | .exporterReturn _ _ _ => true
  | _ => false

/-- The call of `shutdown` returns. -/
def ShutdownAct.returns : ShutdownAct → Bool
  | .ret _ _ _ => true
  | _ => false

/-- The caller is going to join the worker. -/
def ShutdownPc.joining : ShutdownPc → ℕ
  | .join _ => 1
  | _ => 0

/-- The caller is going to call the exporter's `shutdown`. -/
def ShutdownPc.closing : ShutdownPc → ℕ
  | .callExporter _ _ => 1
  | _ => 0

/-- The caller is going to call the exporter's `shutdown`, or waits for it to return. -/
def ShutdownPc.unclosed : ShutdownPc → ℕ
  | .callExporter _ _ | .inExporter _ _ => 1
  | _ => 0

/-- The caller is past the claim of the join. -/
def CallerPc.pastJoin : CallerPc α → Bool
  | .shutdown (.storeRequested _) | .shutdown (.notifyStore _) | .shutdown (.notifyRelease _)
  | .shutdown (.claimJoin _) => false
  | .shutdown _ => true
  | _ => false

/-- The caller is past the claim of the exporter, if there is one. -/
def CallerPc.pastExporter : CallerPc α → Bool
  | .shutdown (.callExporter _ _) | .shutdown (.inExporter _ _) | .shutdown (.readClock _ _) => true
  | _ => false

variable [DecidableEq ι] [DecidableEq α] [Fintype ι] {P : Processor α} {s s' : State ι α}
  {h : List (Act ι α)} {t : ι}

/-- What must hold when the members of the processor are destroyed: the worker was joined once and
its thread function has returned, the exporter was closed once and its `shutdown` has returned, and
neither queue holds anything. -/
structure Destructible (P : Processor α) (h : List (Act ι α)) (s : State ι α) : Prop where
  joined : h.countP (ofShutdown ShutdownAct.joins) = 1
  stopped : s.worker = .stopped
  closed : P.exporter = true → h.countP (ofShutdown ShutdownAct.closes) = 1 ∧
    h.countP (ofShutdown ShutdownAct.closed) = 1
  noSpans : s.sh.spans = []
  noRequests : s.sh.flushRequests = []

/-! ### Uses of a claimed flag -/

omit [Fintype ι] in
/-- Only `shutdown` claims anything. -/
lemma claims_frame {a : Act ι α} (hs : step P s a = some s') (ha : ∀ t b, a ≠ .shutdown t b) :
    s'.sh.joinClaimed = s.sh.joinClaimed ∧ s'.sh.exporterShutdown = s.sh.exporterShutdown := by
  rcases a with ⟨t, a⟩ | ⟨t, a⟩ | ⟨t, a⟩ | a | now
  · obtain ⟨-, -, rfl⟩ := step_onEnd_iff.mp hs
    rcases a with _ | _ | _ | _ | _ | ⟨_, _, _ | _⟩ | _ | _ | _ | _ <;> exact ⟨rfl, rfl⟩
  · obtain ⟨-, -, rfl⟩ := step_forceFlush_iff.mp hs
    rcases a with _ | _ | _ | _ | _ | ⟨_, _ | _⟩ | _ | _ | _ | _ | _ | _ | _ | _ | _ | _ <;>
      exact ⟨rfl, rfl⟩
  · exact absurd rfl (ha t a)
  · obtain ⟨-, -, rfl⟩ := step_worker_iff.mp hs
    cases a <;> exact ⟨rfl, rfl⟩
  · obtain ⟨-, rfl⟩ := step_tick_iff.mp hs
    exact ⟨rfl, rfl⟩

/-- A step outside of `shutdown` does not change a weight of its callers. -/
lemma poolSum_inShutdown {a : Act ι α} (w : ShutdownPc → ℕ) (hs : step P s a = some s')
    (ha : ∀ t b, a ≠ .shutdown t b) :
    poolSum (CallerPc.inShutdown w) s'.pc = poolSum (CallerPc.inShutdown w) s.pc := by
  rcases a with ⟨t, a⟩ | ⟨t, a⟩ | ⟨t, a⟩ | a | now
  · exact poolSum_onEnd hs rfl fun _ => rfl
  · exact poolSum_forceFlush hs rfl fun _ => rfl
  · exact absurd rfl (ha t a)
  · rw [(worker_frame hs).pc]
  · obtain ⟨-, rfl⟩ := step_tick_iff.mp hs
    rfl

/-- The uses of a flag made so far and the callers that are about to make one add up to the value
of the flag, if every operation of `shutdown` keeps this balance and no other step touches the
flag. -/
theorem uses_eq_of_run {used : ShutdownAct → Bool} {w : ShutdownPc → ℕ}
    (flag : Shared ι α → Bool) (hinit : flag {} = false)
    (hother : ∀ (s s' : State ι α) a, step P s a = some s' → (∀ t b, a ≠ .shutdown t b) →
      flag s'.sh = flag s.sh)
    (hshutdown : ∀ (sh : Shared ι α) a, (shutdownCommand (ι := ι) P a).guard sh = true →
      (used a).toNat + (shutdownCommand (ι := ι) P a).target.inShutdown w + (flag sh).toNat =
        (shutdownCommand (ι := ι) P a).source.inShutdown w +
          (flag ((shutdownCommand (ι := ι) P a).update sh)).toNat)
    (hr : (system ι P).Run h s) :
    h.countP (ofShutdown used) + poolSum (CallerPc.inShutdown w) s.pc = (flag s.sh).toNat := by
  induction hr using run_induction_step with
  | nil =>
    have hzero : poolSum (CallerPc.inShutdown w) (initial : State ι α).pc = 0 :=
      poolSum_const_zero rfl
    have hflag : flag (initial : State ι α).sh = false := hinit
    rw [hzero, hflag]
    rfl
  | concat h a s s' hr hs ih =>
    by_cases ha : ∃ t b, a = .shutdown t b
    · obtain ⟨t, b, rfl⟩ := ha
      obtain ⟨hsource, hg, hs'⟩ := step_shutdown_iff.mp hs
      have hsum := poolSum_update (CallerPc.inShutdown w) s.pc t
        (shutdownCommand (ι := ι) P b).target
      rw [hsource, ← shutdown_pc_eq hs] at hsum
      have hbalance := hshutdown s.sh b hg
      have hflag : flag s'.sh = flag ((shutdownCommand (ι := ι) P b).update s.sh) := by rw [hs']
      have hcount : (h ++ [Act.shutdown t b]).countP (ofShutdown used) =
          h.countP (ofShutdown used) + (used b).toNat := by
        rw [List.countP_append, List.countP_singleton]
        cases hused : used b <;> simp [ofShutdown, hused]
      rw [hcount, hflag]
      omega
    · have hnot : ∀ t b, a ≠ .shutdown t b := fun t b hb => ha ⟨t, b, hb⟩
      have hcount : [a].countP (ofShutdown used) = 0 := by
        cases a with
        | shutdown t b => exact absurd rfl (hnot t b)
        | _ => rfl
      rw [List.countP_append, hcount, poolSum_inShutdown w hs hnot, hother s s' a hs hnot]
      exact ih

/-- The worker is joined by the caller that has claimed to do so. -/
lemma joins_eq_of_run (hr : (system ι P).Run h s) :
    h.countP (ofShutdown ShutdownAct.joins) +
        poolSum (CallerPc.inShutdown ShutdownPc.joining) s.pc =
      s.sh.joinClaimed.toNat := by
  refine uses_eq_of_run Shared.joinClaimed rfl
    (fun s s' a hs ha => (claims_frame hs ha).1) (fun sh a hg => ?_) hr
  cases a with
  | claimJoin deadline old =>
    obtain rfl : sh.joinClaimed = old := beq_iff_eq.mp hg
    cases sh.joinClaimed <;> simp [shutdownCommand, ShutdownAct.joins,
      CallerPc.inShutdown, ShutdownPc.joining]
  | _ =>
    simp only [shutdownCommand]
    (try split_ifs) <;> simp [ShutdownAct.joins, CallerPc.inShutdown, ShutdownPc.joining]

/-- The exporter's `shutdown` is called by the caller that has claimed to do so. -/
lemma closes_eq_of_run (hr : (system ι P).Run h s) :
    h.countP (ofShutdown ShutdownAct.closes) +
      poolSum (CallerPc.inShutdown ShutdownPc.closing) s.pc = s.sh.exporterShutdown.toNat := by
  refine uses_eq_of_run Shared.exporterShutdown rfl
    (fun s s' a hs ha => (claims_frame hs ha).2) (fun sh a hg => ?_) hr
  cases a with
  | claimExporter deadline ok old =>
    obtain rfl : sh.exporterShutdown = old := beq_iff_eq.mp hg
    cases sh.exporterShutdown <;> simp [shutdownCommand, ShutdownAct.closes,
      CallerPc.inShutdown, ShutdownPc.closing]
  | _ =>
    simp only [shutdownCommand]
    (try split_ifs) <;> simp [ShutdownAct.closes, CallerPc.inShutdown, ShutdownPc.closing]

/-- The exporter's `shutdown` returns to the caller that has claimed it. -/
lemma closed_eq_of_run (hr : (system ι P).Run h s) :
    h.countP (ofShutdown ShutdownAct.closed) +
      poolSum (CallerPc.inShutdown ShutdownPc.unclosed) s.pc = s.sh.exporterShutdown.toNat := by
  refine uses_eq_of_run Shared.exporterShutdown rfl
    (fun s s' a hs ha => (claims_frame hs ha).2) (fun sh a hg => ?_) hr
  cases a with
  | claimExporter deadline ok old =>
    obtain rfl : sh.exporterShutdown = old := beq_iff_eq.mp hg
    cases sh.exporterShutdown <;> simp [shutdownCommand, ShutdownAct.closed,
      CallerPc.inShutdown, ShutdownPc.unclosed]
  | _ =>
    simp only [shutdownCommand]
    (try split_ifs) <;> simp [ShutdownAct.closed, CallerPc.inShutdown, ShutdownPc.unclosed]

/-! ### Callers that are past a claim -/

/-- Claims are not taken back. -/
lemma claims_mono {a : Act ι α} (hs : step P s a = some s') :
    (s.sh.joinClaimed = true → s'.sh.joinClaimed = true) ∧
      (s.sh.exporterShutdown = true → s'.sh.exporterShutdown = true) := by
  by_cases ha : ∃ t b, a = .shutdown t b
  · obtain ⟨t, b, rfl⟩ := ha
    obtain ⟨-, -, rfl⟩ := step_shutdown_iff.mp hs
    cases b <;> exact ⟨fun hj => by first | rfl | exact hj, fun he => by first | rfl | exact he⟩
  · obtain ⟨hjoin, hexporter⟩ := claims_frame hs fun t b hb => ha ⟨t, b, hb⟩
    rw [hjoin, hexporter]
    exact ⟨id, id⟩

/-- What is known once callers of `shutdown` have got past the claims. -/
structure ClaimsMade (P : Processor α) (h : List (Act ι α)) (s : State ι α) : Prop where
  join : ∀ t, (s.pc t).pastJoin = true → s.sh.joinClaimed = true
  exporter : P.exporter = true → ∀ t, (s.pc t).pastExporter = true → s.sh.exporterShutdown = true
  returned : (∃ a ∈ h, ofShutdown ShutdownAct.returns a = true) →
    s.sh.joinClaimed = true ∧ (P.exporter = true → s.sh.exporterShutdown = true)
  joined : (∃ a ∈ h, ofShutdown ShutdownAct.joins a = true) → s.sh.workerStopped = true

omit [DecidableEq α] in
/-- A thread outside of `shutdown` is not past a claim. -/
lemma not_past {p : CallerPc α} (hp : ∀ q, p ≠ .shutdown q) :
    p.pastJoin = false ∧ p.pastExporter = false := by
  cases p with
  | shutdown q => exact absurd rfl (hp q)
  | _ => exact ⟨rfl, rfl⟩

/-- A caller of `shutdown` gets past the claims by making them. -/
lemma past_shutdown {a : ShutdownAct} (hs : step P s (.shutdown t a) = some s')
    (hC : ClaimsMade P h s) :
    ((s'.pc t).pastJoin = true → s'.sh.joinClaimed = true) ∧
      (P.exporter = true → (s'.pc t).pastExporter = true → s'.sh.exporterShutdown = true) := by
  have hmono := claims_mono hs
  obtain ⟨hsource, -, hs'⟩ := step_shutdown_iff.mp hs
  have hjoin := hC.join t
  have hexporter := fun hexp => hC.exporter hexp t
  rw [hsource] at hjoin hexporter
  rw [shutdown_pc_eq hs, Function.update_self]
  cases a with
  | claimJoin deadline old =>
    refine ⟨fun _ => by rw [hs']; rfl, fun _ hpast => ?_⟩
    simp only [shutdownCommand] at hpast
    split_ifs at hpast <;> cases hpast
  | claimExporter deadline ok old =>
    exact ⟨fun _ => hmono.1 (hjoin rfl), fun _ _ => by rw [hs']; rfl⟩
  | loadDrainOk deadline ok value =>
    refine ⟨fun _ => hmono.1 (hjoin rfl), fun hexp hpast => ?_⟩
    simp only [shutdownCommand, hexp, if_true] at hpast
    cases hpast
  | callExporter deadline ok | exporterReturn deadline ok answer =>
    exact ⟨fun _ => hmono.1 (hjoin rfl), fun hexp _ => hmono.2 (hexporter hexp rfl)⟩
  | call timeout deadline | storeRequested deadline | notifyStore deadline | notifyRelease deadline
  | ret deadline ok inTime =>
    exact ⟨fun hpast => Bool.noConfusion hpast, fun _ hpast => Bool.noConfusion hpast⟩
  | join deadline | waitStopped deadline value | waitClock deadline value
  | loadStopped deadline value =>
    refine ⟨fun _ => hmono.1 (hjoin rfl), fun _ hpast => ?_⟩
    simp only [shutdownCommand] at hpast
    (try split_ifs at hpast) <;> cases hpast

/-- In every reachable state, a caller of `shutdown` that is past a claim, or has returned, finds
the claim made, and a worker that was joined has stopped. -/
theorem claimsMade_of_run (hr : (system ι P).Run h s) : ClaimsMade P h s := by
  induction hr using run_induction_step with
  | nil => exact ⟨nofun, fun _ => nofun, nofun, nofun⟩
  | concat h a s s' hr hs ih =>
    have hmono := claims_mono hs
    have hlocal : ∀ t, ((s'.pc t).pastJoin = true → s'.sh.joinClaimed = true) ∧
        (P.exporter = true → (s'.pc t).pastExporter = true → s'.sh.exporterShutdown = true) := by
      intro t
      by_cases hcaller : a.caller = some t
      · rcases a with ⟨t', b⟩ | ⟨t', b⟩ | ⟨t', b⟩ | b | now <;> cases hcaller
        · obtain ⟨hjoin, hexporter⟩ := not_past (p := s'.pc t) fun q hq => by
            simpa [hq] using (onEnd_pc hs).2
          rw [hjoin, hexporter]
          exact ⟨nofun, fun _ => nofun⟩
        · obtain ⟨hjoin, hexporter⟩ := not_past (p := s'.pc t) fun q hq => by
            simpa [hq] using (forceFlush_pc hs).2
          rw [hjoin, hexporter]
          exact ⟨nofun, fun _ => nofun⟩
        · exact past_shutdown hs ih
      · rw [pc_of_caller_ne hs hcaller]
        exact ⟨fun hpast => hmono.1 (ih.join t hpast),
          fun hexp hpast => hmono.2 (ih.exporter hexp t hpast)⟩
    refine ⟨fun t => (hlocal t).1, fun hexp t => (hlocal t).2 hexp, ?_, ?_⟩
    · rintro ⟨b, hb, hreturns⟩
      rcases List.mem_append.mp hb with hold | hnew
      · obtain ⟨hjoin, hexporter⟩ := ih.returned ⟨b, hold, hreturns⟩
        exact ⟨hmono.1 hjoin, fun hexp => hmono.2 (hexporter hexp)⟩
      · obtain rfl := List.mem_singleton.mp hnew
        rcases b with _ | _ | ⟨t, b⟩ | _ | _
        case shutdown =>
          cases b with
          | ret deadline ok inTime =>
            have hsource := (step_shutdown_iff.mp hs).1
            exact ⟨hmono.1 (ih.join t (by rw [hsource]; rfl)),
              fun hexp => hmono.2 (ih.exporter hexp t (by rw [hsource]; rfl))⟩
          | _ => cases hreturns
        all_goals cases hreturns
    · rintro ⟨b, hb, hjoins⟩
      rcases List.mem_append.mp hb with hold | hnew
      · exact workerStopped_mono hs (ih.joined ⟨b, hold, hjoins⟩)
      · obtain rfl := List.mem_singleton.mp hnew
        rcases b with _ | _ | ⟨t, b⟩ | _ | _
        case shutdown =>
          cases b with
          | join deadline => exact workerStopped_mono hs (step_shutdown_iff.mp hs).2.1
          | _ => cases hjoins
        all_goals cases hjoins

/-! ### The destructor -/

/-- When a call of `shutdown` has returned and nobody is inside the processor, it can be
destroyed. -/
theorem destructible_of_quiescent (hr : (system ι P).Run h s)
    (hreturned : ∃ a ∈ h, ofShutdown ShutdownAct.returns a = true)
    (hidle : ∀ t, s.pc t = .idle) : Destructible P h s := by
  have hclaims := claimsMade_of_run hr
  obtain ⟨hjoin, hexporter⟩ := hclaims.returned hreturned
  have hnobody : ∀ w, poolSum (CallerPc.inShutdown w) s.pc = 0 := fun w =>
    (poolSum_eq_zero_iff _ _).mpr fun t => by rw [hidle t]; rfl
  have hjoined : h.countP (ofShutdown ShutdownAct.joins) = 1 := by
    have hsum := joins_eq_of_run hr
    rw [hnobody, hjoin] at hsum
    exact hsum
  have hstopped : s.sh.workerStopped = true :=
    hclaims.joined (List.countP_pos_iff.mp (by rw [hjoined]; exact Nat.one_pos))
  have hworker := (verdict_of_run hr).stopped hstopped
  refine ⟨hjoined, hworker, fun hexp => ?_, (sealed_of_workerStopped hr hstopped).empty,
    flushRequests_eq_nil_of_leaving hr (by rw [hworker]; rfl)⟩
  have hcloses := closes_eq_of_run hr
  have hclosed := closed_eq_of_run hr
  rw [hnobody, hexporter hexp] at hcloses hclosed
  exact ⟨hcloses, hclosed⟩

/-- After a plain shutdown the processor can be destroyed. -/
theorem destructible_plainShutdown :
    ∃ s, (system Thread (smallProcessor .kTimed 1 1)).Run plainShutdown s ∧
      Destructible (smallProcessor .kTimed 1 1) plainShutdown s := by
  obtain ⟨s, hr, hidle⟩ := Lts.exists_run_of_any
    (L := system Thread (smallProcessor .kTimed 1 1)) (h := plainShutdown)
    (p := fun s => decide (∀ t, s.pc t = .idle)) (by decide)
  exact ⟨s, hr, destructible_of_quiescent hr (by decide) (of_decide_eq_true hidle)⟩

end GalayTracing
