import GalayTracing.BatchSpanProcessor.Frames

/-!
# Who has seen the shutdown request

The flag `shutdownRequested` is set once and never taken back.  Some program points can only be
reached by a caller or a worker that has set it or has read it as set; at such a point the flag is
set.  The same holds of `workerStopped`, which is set exactly when the thread function has
returned.
-/

namespace GalayTracing

variable {ι α : Type}

/-- The caller has set the flag or has read it as set. -/
def CallerPc.sawShutdown : CallerPc α → Bool
  | .onEnd (.closedSub _) => true
  | .shutdown (.storeRequested _) => false
  | .shutdown _ => true
  | _ => false

/-- The iteration of the main loop that this call belongs to has read the flag as set, or has
left the ordinary path. -/
def FlushSite.sawShutdown : FlushSite → Bool
  | .head _ shutdownRequested => shutdownRequested
  | .drained _ | .exitTest _ => true

@[inherit_doc FlushSite.sawShutdown]
def DrainSite.sawShutdown : DrainSite → Bool
  | .request site _ => site.sawShutdown
  | .shutdown => true

@[inherit_doc FlushSite.sawShutdown]
def PopSite.sawShutdown : PopSite → Bool
  | .ready _ => false
  | .drain site _ _ => site.sawShutdown

/-- The worker has read the flag as set in the current iteration of the main loop. -/
def WorkerPc.sawShutdown : WorkerPc ι α → Bool
  | .wait | .clearPending | .loadShutdown _ | .loadCount | .readyCount _ | .readyEmpty => false
  | .dequeueRequest site _ | .callFlush site _ _ | .inFlush site _ _ | .storeOk site _ _
  | .releaseDone site _ => site.sawShutdown
  | .popLoad site | .popDequeue site | .popRelease site _ | .callExport site _
  | .inExport site _ => site.sawShutdown
  | .drainClock site _ | .drainEmpty site _ _ | .drainWait site _ | .drainClear site _
  | .drainResult site _ => site.sawShutdown
  | .loadActive _ | .exitEmpty _ | .callFinalFlush _ | .inFinalFlush _ | .storeDrainOk _
  | .storeStopped | .stopped => true

lemma sawShutdown_afterNone {site : PopSite}
    (hsaw : (site.afterNone : WorkerPc ι α).sawShutdown = true) : site.sawShutdown = true := by
  cases site with
  | ready drainPartial => cases hsaw
  | drain site ok exportedAny => exact hsaw

lemma sawShutdown_afterExport {success : Bool} {site : PopSite}
    (hsaw : (site.afterExport success : WorkerPc ι α).sawShutdown = true) :
    site.sawShutdown = true := by
  cases site with
  | ready drainPartial => cases hsaw
  | drain site ok exportedAny => exact hsaw

lemma sawShutdown_afterRequests {P : Processor α} {any : Bool} {site : FlushSite}
    (hsaw : (site.afterRequests P any : WorkerPc ι α).sawShutdown = true) :
    site.sawShutdown = true := by
  cases site with
  | head elapsed shutdownRequested =>
    simp only [FlushSite.afterRequests, ordinaryDrain] at hsaw
    split_ifs at hsaw with hany hreq
    · exact absurd hsaw Bool.false_ne_true
    · exact hreq
    all_goals exact absurd hsaw Bool.false_ne_true
  | drained shutdownOk => rfl
  | exitTest shutdownOk => rfl

lemma sawShutdown_afterDrain {P : Processor α} {ok : Bool} {site : DrainSite}
    (hsaw : (site.afterDrain P ok : WorkerPc ι α).sawShutdown = true) :
    site.sawShutdown = true := by
  cases site with
  | request site request =>
    simp only [DrainSite.afterDrain] at hsaw
    split_ifs at hsaw <;> exact hsaw
  | shutdown => rfl

variable [DecidableEq ι] [DecidableEq α] {P : Processor α} {s s' : State ι α}
  {h : List (Act ι α)} {t : ι}

/-- A request to shut down is never taken back. -/
lemma shutdownRequested_mono {a : Act ι α} (hs : step P s a = some s')
    (hreq : s.sh.shutdownRequested = true) : s'.sh.shutdownRequested = true := by
  cases a with
  | onEnd t a => rw [(onEnd_frame hs).shutdownRequested, hreq]
  | forceFlush t a => rw [(forceFlush_frame hs).shutdownRequested, hreq]
  | shutdown t a =>
    obtain ⟨-, -, rfl⟩ := step_shutdown_iff.mp hs
    cases a <;> first | rfl | exact hreq
  | worker a => rw [(worker_frame hs).shutdownRequested, hreq]
  | tick now =>
    obtain ⟨-, rfl⟩ := step_tick_iff.mp hs
    exact hreq

/-- The thread function does not start again. -/
lemma workerStopped_mono {a : Act ι α} (hs : step P s a = some s')
    (hstopped : s.sh.workerStopped = true) : s'.sh.workerStopped = true := by
  rcases a with ⟨t, a⟩ | ⟨t, a⟩ | ⟨t, a⟩ | a | now
  · rw [(onEnd_frame hs).workerStopped, hstopped]
  · rw [(forceFlush_frame hs).workerStopped, hstopped]
  · rw [(shutdown_frame hs).workerStopped, hstopped]
  · obtain ⟨-, -, rfl⟩ := step_worker_iff.mp hs
    cases a <;> first | rfl | exact hstopped
  · obtain ⟨-, rfl⟩ := step_tick_iff.mp hs
    exact hstopped

/-- A caller of `onEnd` sees the shutdown request by reading the flag. -/
lemma sawShutdown_onEnd {a : OnEndAct α} (hs : step P s (.onEnd t a) = some s')
    (hsaw : (onEndCommand P t a).target.sawShutdown = true) : s.sh.shutdownRequested = true := by
  obtain ⟨-, hg, -⟩ := step_onEnd_iff.mp hs
  rcases a with _ | _ | _ | ⟨span, previous, value⟩ | _ | ⟨_, _, _ | _⟩ | _ | _ | _ | _
  case loadShutdown =>
    cases value with
    | true => exact beq_iff_eq.mp hg
    | false => cases hsaw
  all_goals
    simp only [onEndCommand] at hsaw
    (try split_ifs at hsaw) <;> cases hsaw

omit [DecidableEq ι] [DecidableEq α] in
/-- `forceFlush` does not lead to a point that has seen the request. -/
lemma sawShutdown_forceFlush {a : ForceFlushAct} :
    (forceFlushCommand (ι := ι) (α := α) t a).target.sawShutdown = false := by
  have hnext : ∀ exit : FlushExit, (exit.next : CallerPc α).sawShutdown = false := by
    rintro (_ | _ | _) <;> rfl
  rcases a with _ | _ | _ | _ | _ | ⟨_, _ | _⟩ | _ | _ | _ | _ | _ | _ | _ | _ | _ | _ <;>
    simp only [forceFlushCommand] <;> (try split_ifs) <;> first | rfl | exact hnext _

/-- A caller of `shutdown` sees the request because it has made it. -/
lemma sawShutdown_shutdown {a : ShutdownAct} (hs : step P s (.shutdown t a) = some s')
    (hpc : (s.pc t).sawShutdown = true → s.sh.shutdownRequested = true)
    (hsaw : (shutdownCommand (ι := ι) P a).target.sawShutdown = true) :
    s'.sh.shutdownRequested = true := by
  obtain ⟨hsource, -, rfl⟩ := step_shutdown_iff.mp hs
  cases a with
  | call timeout deadline => cases hsaw
  | storeRequested deadline => rfl
  | _ => exact shutdownRequested_mono hs (hpc (by rw [hsource]; rfl))

/-- The worker gets to see the shutdown request only by reading the flag, once in each iteration. -/
lemma sawShutdown_source {a : WorkerAct ι α}
    (hsaw : (workerCommand P a).target.sawShutdown = true) :
    (workerCommand P a).source.sawShutdown = true ∨ ∃ elapsed, a = .loadShutdown elapsed true := by
  cases a with
  | loadShutdown elapsed value =>
    cases value with
    | true => exact Or.inr ⟨elapsed, rfl⟩
    | false => cases hsaw
  | noRequest site any => exact Or.inl (sawShutdown_afterRequests hsaw)
  | popNone site => exact Or.inl (sawShutdown_afterNone hsaw)
  | exportReturn site batch result => exact Or.inl (sawShutdown_afterExport hsaw)
  | drainResult site ok value => exact Or.inl (sawShutdown_afterDrain hsaw)
  | popLoad site count =>
    simp only [workerCommand] at hsaw
    split_ifs at hsaw
    · exact Or.inl (sawShutdown_afterNone hsaw)
    · exact Or.inl hsaw
  | popRelease site batch =>
    simp only [workerCommand] at hsaw
    split_ifs at hsaw
    · exact Or.inl hsaw
    · exact Or.inl (sawShutdown_afterExport hsaw)
  | _ =>
    simp only [workerCommand] at hsaw
    (try split_ifs at hsaw) <;> first | exact Or.inl hsaw | exact Or.inl rfl

/-- What the worker sees is set. -/
lemma sawShutdown_worker {a : WorkerAct ι α} (hs : step P s (.worker a) = some s')
    (hpc : s.worker.sawShutdown = true → s.sh.shutdownRequested = true)
    (hsaw : (workerCommand P a).target.sawShutdown = true) : s.sh.shutdownRequested = true := by
  obtain ⟨hsource, hg, -⟩ := step_worker_iff.mp hs
  rcases sawShutdown_source hsaw with hold | ⟨elapsed, rfl⟩
  · exact hpc (by rw [hsource, hold])
  · exact beq_iff_eq.mp hg

/-- Whoever has seen the shutdown request sees it set. -/
structure ShutdownSeen (s : State ι α) : Prop where
  caller : ∀ t, (s.pc t).sawShutdown = true → s.sh.shutdownRequested = true
  worker : s.worker.sawShutdown = true → s.sh.shutdownRequested = true

/-- In every reachable state, whoever has seen the shutdown request sees it set. -/
theorem shutdownSeen_of_run (hr : (system ι P).Run h s) : ShutdownSeen s := by
  induction hr using run_induction_step with
  | nil =>
    constructor
    · rintro t ⟨⟩
    · rintro ⟨⟩
  | concat h a s s' hr hs ih =>
    obtain ⟨hcaller, hworker⟩ := ih
    have hmono := shutdownRequested_mono hs
    let I (_ : ι) (p : CallerPc α) : Prop := p.sawShutdown = true → s'.sh.shutdownRequested = true
    have hold : ∀ t, I t (s.pc t) := fun t hsaw => hmono (hcaller t hsaw)
    rcases a with ⟨t, a⟩ | ⟨t, a⟩ | ⟨t, a⟩ | a | now
    · refine ⟨?_, fun hsaw => hmono (hworker ((onEnd_frame hs).worker ▸ hsaw))⟩
      rw [onEnd_pc_eq hs]
      refine forall_update (I := I) (fun t' _ => hold t') fun hsaw => ?_
      exact hmono (sawShutdown_onEnd hs hsaw)
    · refine ⟨?_, fun hsaw => hmono (hworker ((forceFlush_frame hs).worker ▸ hsaw))⟩
      rw [forceFlush_pc_eq hs]
      refine forall_update (I := I) (fun t' _ => hold t') fun hsaw => ?_
      rw [sawShutdown_forceFlush] at hsaw
      cases hsaw
    · refine ⟨?_, fun hsaw => hmono (hworker ((shutdown_frame hs).worker ▸ hsaw))⟩
      rw [shutdown_pc_eq hs]
      exact forall_update (I := I) (fun t' _ => hold t') fun hsaw =>
        sawShutdown_shutdown hs (hcaller t) hsaw
    · refine ⟨?_, fun hsaw => ?_⟩
      · rw [(worker_frame hs).pc]
        exact hold
      · obtain ⟨-, -, hs'⟩ := step_worker_iff.mp hs
        rw [hs'] at hsaw
        exact hmono (sawShutdown_worker hs hworker hsaw)
    · obtain ⟨-, rfl⟩ := step_tick_iff.mp hs
      exact ⟨hcaller, hworker⟩

end GalayTracing
