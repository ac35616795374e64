import GalayTracing.BatchSpanProcessor.Conservation
import GalayTracing.BatchSpanProcessor.ExporterLifeCycle
import GalayTracing.BatchSpanProcessor.ShutdownRequest

/-!
# The result of the shutdown drain

`shutdown` reports through `shutdownDrainOk` whether the queue was drained successfully.  The
worker collects the result in a local variable of the shutdown branch.  An export that fails for a
flush request does not reach this variable, and neither does a failure of an earlier round of the
branch, which starts over whenever a caller of `forceFlush` is announced, the counter is not zero
or a flush request was completed in the exit test: `shutdown` then returns `true` although spans
were lost on the way (`retriedShutdown_fails`).  In the other runs its answer is right,
`drainSucceeded_iff`.
-/

namespace GalayTracing

variable {ι α : Type}

/-! ### What `shutdown` promises -/

/-- The worker reads the request to shut down. -/
def readsShutdown : Act ι α → Bool
  | .worker (.loadShutdown _ true) => true
  | _ => false

/-- The history from the worker's first reading of the shutdown request on. -/
def sinceShutdown (h : List (Act ι α)) : List (Act ι α) := h.dropWhile fun a => !readsShutdown a

/-- The answers of the exporter's `forceFlush` on the worker's way out, in order. -/
def finalFlushAnswers (h : List (Act ι α)) : List Bool :=
  h.filterMap fun
    | .worker (.finalFlushReturn _ answer) => some answer
    | _ => none

/-- A call of `shutdown` returns `true`. -/
def shutdownSucceeds : Act ι α → Bool
  | .shutdown _ (.ret _ ok inTime) => ok && inTime
  | _ => false

/-- The drain was successful: all `exportSpans` calls since the worker read the shutdown request
have returned `kSuccess`, and so has the one call of the exporter's `forceFlush` on the way out. -/
structure DrainSucceeded (P : Processor α) (h : List (Act ι α)) : Prop where
  returned : (exportCalls (sinceShutdown h)).length = (exportAnswers (sinceShutdown h)).length
  success : ∀ result ∈ exportAnswers (sinceShutdown h), result = .kSuccess
  finalFlush : P.exporter = true → finalFlushAnswers h = [true]

/-- The step does not lose a failure: no export fails for a flush request once the shutdown request
has been read, and the shutdown branch does not start over after a failure. -/
def keepsFailure : Act ι α → Bool
  | .worker (.exportReturn (.drain (.request site _) _ _) _ .kFailure) => !site.sawShutdown
  | .worker (.loadActive false count) => count == 0
  | .worker (.exitEmpty false value) => value
  | .worker (.noRequest (.exitTest false) completedAny) => !completedAny
  | _ => true

/-! ### The local result of the shutdown branch -/

/-- The local `shutdownOk` of the shutdown branch, `true` outside of it. -/
def FlushSite.shutdownOk : FlushSite → Bool
  | .head _ _ => true
  | .drained shutdownOk | .exitTest shutdownOk => shutdownOk

@[inherit_doc FlushSite.shutdownOk]
def DrainSite.shutdownOk (ok : Bool) : DrainSite → Bool
  | .request site _ => site.shutdownOk
  | .shutdown => ok

@[inherit_doc FlushSite.shutdownOk]
def PopSite.shutdownOk : PopSite → Bool
  | .ready _ => true
  | .drain site ok _ => site.shutdownOk ok

/-- The result the worker will report if nothing fails from now on: the local `shutdownOk`, and
`shutdownDrainOk` once it is stored. -/
def WorkerPc.shutdownOk (stored : Bool) : WorkerPc ι α → Bool
  | .dequeueRequest site _ | .callFlush site _ _ | .inFlush site _ _ | .storeOk site _ _
  | .releaseDone site _ => site.shutdownOk
  | .popLoad site | .popDequeue site | .popRelease site _ | .callExport site _
  | .inExport site _ => site.shutdownOk
  | .drainClock site ok | .drainEmpty site ok _ | .drainWait site ok | .drainClear site ok
  | .drainResult site ok => site.shutdownOk ok
  | .loadActive shutdownOk | .exitEmpty shutdownOk | .callFinalFlush shutdownOk
  | .inFinalFlush shutdownOk | .storeDrainOk shutdownOk => shutdownOk
  | .storeStopped | .stopped => stored
  | .wait | .clearPending | .loadShutdown _ | .loadCount | .readyCount _ | .readyEmpty => true

/-- The worker is on the ordinary path of an iteration that has read the flag as unset. -/
def WorkerPc.ordinary : WorkerPc ι α → Bool
  | .wait | .clearPending | .loadShutdown _ => false
  | pc => !pc.sawShutdown

lemma ordinary_afterNone {site : PopSite}
    (hord : (site.afterNone : WorkerPc ι α).ordinary = true) : site.sawShutdown = false := by
  cases site with
  | ready drainPartial => rfl
  | drain site ok exportedAny => exact Bool.eq_false_of_not_eq_true' hord

lemma ordinary_afterExport {success : Bool} {site : PopSite}
    (hord : (site.afterExport success : WorkerPc ι α).ordinary = true) :
    site.sawShutdown = false := by
  cases site with
  | ready drainPartial => rfl
  | drain site ok exportedAny => exact Bool.eq_false_of_not_eq_true' hord

lemma ordinary_afterRequests {P : Processor α} {any : Bool} {site : FlushSite}
    (hord : (site.afterRequests P any : WorkerPc ι α).ordinary = true) :
    site.sawShutdown = false := by
  cases site with
  | head elapsed shutdownRequested =>
    cases shutdownRequested with
    | true => cases any <;> cases hord
    | false => rfl
  | drained shutdownOk => cases hord
  | exitTest shutdownOk =>
    simp only [FlushSite.afterRequests] at hord
    split_ifs at hord <;> cases hord

lemma ordinary_afterDrain {P : Processor α} {ok : Bool} {site : DrainSite}
    (hord : (site.afterDrain P ok : WorkerPc ι α).ordinary = true) : site.sawShutdown = false := by
  cases site with
  | request site request =>
    simp only [DrainSite.afterDrain] at hord
    split_ifs at hord <;> exact Bool.eq_false_of_not_eq_true' hord
  | shutdown => cases hord

variable {P : Processor α} {s s' : State ι α}
  {h h' : List (Act ι α)} {t : ι}

/-! ### The history since the shutdown request -/

/-- Only the worker reads the request. -/
lemma readsShutdown_outside {a : Act ι α} (ha : ∀ b, a ≠ .worker b) : readsShutdown a = false := by
  cases a with
  | worker b => exact absurd rfl (ha b)
  | _ => rfl

lemma sinceShutdown_concat_of_ne {a : Act ι α} (hne : sinceShutdown h ≠ []) :
    sinceShutdown (h ++ [a]) = sinceShutdown h ++ [a] := by
  unfold sinceShutdown at hne ⊢
  rw [List.dropWhile_append, if_neg (by simpa using hne)]

lemma sinceShutdown_concat_of_nil {a : Act ι α} (hnil : sinceShutdown h = []) :
    sinceShutdown (h ++ [a]) = if readsShutdown a = true then [a] else [] := by
  unfold sinceShutdown at hnil ⊢
  rw [List.dropWhile_append, if_pos (by simpa using hnil)]
  cases ha : readsShutdown a <;> simp [ha]

/-- The history since the shutdown request only grows. -/
lemma sinceShutdown_append (h h' : List (Act ι α)) :
    sinceShutdown h <+: sinceShutdown (h ++ h') := by
  unfold sinceShutdown
  rw [List.dropWhile_append]
  split_ifs with hnil
  · rw [List.isEmpty_iff.mp hnil]
    exact List.nil_prefix
  · exact List.prefix_append _ _

/-- Some export has failed since the worker read the shutdown request. -/
def Failed (h : List (Act ι α)) : Prop := .kFailure ∈ exportAnswers (sinceShutdown h)

/-- A failure is not taken back. -/
lemma Failed.append (hF : Failed h) : Failed (h ++ h') := by
  obtain ⟨rest, hrest⟩ := sinceShutdown_append h h'
  unfold Failed at hF ⊢
  rw [← hrest, exportAnswers_append]
  exact List.mem_append_left _ hF

/-- Only an export that fails after the worker has read the shutdown request is a new failure. -/
lemma failed_concat_iff {a : Act ι α} :
    Failed (h ++ [a]) ↔
      Failed h ∨ sinceShutdown h ≠ [] ∧ .kFailure ∈ exportAnswers [a] := by
  by_cases hnil : sinceShutdown h = []
  · have hold : ¬Failed h := by simp [Failed, hnil, exportAnswers]
    have hnew : ¬Failed (h ++ [a]) := by
      rw [Failed, sinceShutdown_concat_of_nil hnil]
      split_ifs with ha
      · rcases a with _ | _ | _ | a | _
        case worker => cases a <;> first | cases ha | rfl | simp [exportAnswers]
        all_goals cases ha
      · simp [exportAnswers]
    simp [hold, hnew, hnil]
  · rw [Failed, Failed, sinceShutdown_concat_of_ne hnil, exportAnswers_append, List.mem_append]
    simp [hnil]

/-! ### What the worker has read -/

variable [DecidableEq ι] [DecidableEq α]

/-- The ordinary path begins with reading the flag as unset. -/
lemma ordinary_source {a : WorkerAct ι α} (hord : (workerCommand P a).target.ordinary = true) :
    (workerCommand P a).source.ordinary = true ∨ ∃ elapsed, a = .loadShutdown elapsed false := by
  cases a with
  | loadShutdown elapsed value =>
    cases value with
    | true => cases hord
    | false => exact Or.inr ⟨elapsed, rfl⟩
  | noRequest site any => exact Or.inl (congrArg not (ordinary_afterRequests hord))
  | popNone site => exact Or.inl (congrArg not (ordinary_afterNone hord))
  | exportReturn site batch result =>
    exact Or.inl (congrArg not (ordinary_afterExport hord))
  | drainResult site ok value => exact Or.inl (congrArg not (ordinary_afterDrain hord))
  | popLoad site count =>
    simp only [workerCommand] at hord
    split_ifs at hord
    · exact Or.inl (congrArg not (ordinary_afterNone hord))
    · exact Or.inl hord
  | popRelease site batch =>
    simp only [workerCommand] at hord
    split_ifs at hord
    · exact Or.inl hord
    · exact Or.inl (congrArg not (ordinary_afterExport hord))
  | _ =>
    simp only [workerCommand] at hord
    (try split_ifs at hord) <;> first | exact Or.inl hord | exact Or.inl rfl

/-- What the histories record of the worker's readings of the flag `shutdownRequested`. -/
structure Reading (h : List (Act ι α)) (s : State ι α) : Prop where
  seen : s.worker.sawShutdown = true → sinceShutdown h ≠ []
  requested : sinceShutdown h ≠ [] → s.sh.shutdownRequested = true
  ordinary : s.worker.ordinary = true → sinceShutdown h = []

/-- A step that does not read the flag keeps what was read. -/
lemma Reading.of_quiet {a : Act ι α} (hR : Reading h s) (hs : step P s a = some s')
    (hquiet : readsShutdown a = false)
    (hsaw : s'.worker.sawShutdown = true → s.worker.sawShutdown = true)
    (hordinary : s'.worker.ordinary = true → s.worker.ordinary = true ∨ sinceShutdown h = []) :
    Reading (h ++ [a]) s' := by
  have hnil : sinceShutdown (h ++ [a]) = [] ↔ sinceShutdown h = [] := by
    by_cases hold : sinceShutdown h = []
    · simp [sinceShutdown_concat_of_nil hold, hold, hquiet]
    · simp [sinceShutdown_concat_of_ne hold, hold]
  refine ⟨fun h' => ?_, fun hne => ?_, fun h' => ?_⟩
  · rw [ne_eq, hnil]
    exact hR.seen (hsaw h')
  · rw [ne_eq, hnil] at hne
    exact shutdownRequested_mono hs (hR.requested hne)
  · rw [hnil]
    exact (hordinary h').elim hR.ordinary id

/-- In every reachable state, the history agrees with what the worker has read. -/
theorem reading_of_run (hr : (system ι P).Run h s) : Reading h s := by
  induction hr using run_induction_worker with
  | nil => exact ⟨nofun, fun hne => absurd rfl hne, fun _ => rfl⟩
  | outside h s s' a hr hs hother hf ih =>
    exact ih.of_quiet hs (readsShutdown_outside hother) (fun hsaw => hf.worker ▸ hsaw)
      fun hord => Or.inl (hf.worker ▸ hord)
  | worker h s s' a hr hs ih =>
    obtain ⟨hsource, hg, hs'⟩ := step_worker_iff.mp hs
    have htarget : s'.worker = (workerCommand P a).target := by rw [hs']
    by_cases hread : readsShutdown (Act.worker (ι := ι) a) = true
    · obtain ⟨elapsed, rfl⟩ : ∃ elapsed, a = .loadShutdown elapsed true := by
        cases a with
        | loadShutdown elapsed value =>
          cases value with
          | true => exact ⟨elapsed, rfl⟩
          | false => cases hread
        | _ => cases hread
      refine ⟨fun _ => ?_, fun _ => ?_, fun hord => ?_⟩
      · by_cases hold : sinceShutdown h = []
        · simp [sinceShutdown_concat_of_nil hold, hread]
        · simp [sinceShutdown_concat_of_ne hold]
      · exact shutdownRequested_mono hs (beq_iff_eq.mp hg)
      · rw [htarget] at hord
        cases hord
    · refine ih.of_quiet hs (Bool.eq_false_iff.mpr hread) (fun hsaw => ?_) fun hord => ?_
      · rw [htarget] at hsaw
        rcases sawShutdown_source hsaw with hold | ⟨elapsed, rfl⟩
        · rw [hsource, hold]
        · exact absurd rfl hread
      · rw [htarget] at hord
        rcases ordinary_source hord with hold | ⟨elapsed, rfl⟩
        · exact Or.inl (by rw [hsource, hold])
        · -- the flag is read as unset, so it has never been read as set
          refine Or.inr (by_contra fun hne => ?_)
          have hset : s.sh.shutdownRequested = false := beq_iff_eq.mp hg
          rw [ih.requested hne] at hset
          cases hset

/-! ### Failures and the local result -/

/-- The step turns the result to `false`. -/
def WorkerAct.spoils : WorkerAct ι α → Bool
  | .exportReturn (.drain .shutdown _ _) _ result => result == .kFailure
  | .finalFlushReturn _ answer => !answer
  | _ => false

/-- The result the worker of a state will report if nothing fails from now on. -/
def reportedOk (s : State ι α) : Bool := s.worker.shutdownOk s.sh.shutdownDrainOk

/-- The result stays `true` unless a step turns it to `false`. -/
lemma reportedOk_worker {a : WorkerAct ι α} (hnow : s.sh.now ≤ timePointMax)
    (hs : step P s (.worker a) = some s') (hok : reportedOk s = true)
    (hspoils : a.spoils = false) : reportedOk s' = true := by
  obtain ⟨hsource, hg, rfl⟩ := step_worker_iff.mp hs
  unfold reportedOk at hok ⊢
  rw [hsource] at hok
  cases a with
  | noRequest site any =>
    cases site with
    | head elapsed requested =>
      simp only [workerCommand, FlushSite.afterRequests, ordinaryDrain]
      split_ifs <;> rfl
    | drained ok => exact hok
    | exitTest ok =>
      simp only [workerCommand, FlushSite.afterRequests]
      split_ifs <;> first | rfl | exact hok
  | popLoad site count =>
    cases site <;> simp only [workerCommand] <;> split_ifs <;> first | rfl | exact hok
  | popNone site => cases site <;> first | rfl | exact hok
  | popRelease site batch =>
    cases site with
    | ready drainPartial => simp only [workerCommand]; split_ifs <;> rfl
    | drain site ok any =>
      cases site <;> simp only [workerCommand] <;> split_ifs <;> exact hok
  | exportReturn site batch result =>
    cases site with
    | ready drainPartial => rfl
    | drain site ok any =>
      cases site with
      | request site id => exact hok
      | shutdown =>
        cases result with
        | kSuccess => exact hok
        | kFailure => cases hspoils
  | drainResult site ok value =>
    cases site with
    | request site id =>
      simp only [workerCommand, DrainSite.afterDrain]
      split_ifs <;> exact hok
    | shutdown =>
      -- the deadline of the shutdown drain cannot pass
      have hvalue : decide (s.sh.now ≤ timePointMax) = value := beq_iff_eq.mp hg
      rw [decide_eq_true hnow] at hvalue
      exact Bool.and_eq_true_iff.mpr ⟨hok, hvalue.symm⟩
  | finalFlushReturn ok answer =>
    exact Bool.and_eq_true_iff.mpr ⟨Bool.eq_true_of_not_eq_false' hspoils, hok⟩
  | _ =>
    simp only [workerCommand]
    (try split_ifs) <;> first | rfl | exact hok

/-- When no failure is lost, the result never turns back to `true`. -/
lemma reportedOk_of_keepsFailure {a : WorkerAct ι α} 
    (hkeeps : keepsFailure (Act.worker (ι := ι) a) = true)
    (hs : step P s (.worker a) = some s') (hok : reportedOk s' = true) :
    reportedOk s = true ∧ a.spoils = false := by
  obtain ⟨hsource, -, rfl⟩ := step_worker_iff.mp hs
  unfold reportedOk at hok ⊢
  rw [hsource]
  cases a with
  | noRequest site any =>
    refine ⟨?_, rfl⟩
    cases site with
    | head elapsed requested => rfl
    | drained ok => exact hok
    | exitTest ok =>
      cases ok with
      | true => rfl
      | false =>
        obtain rfl : any = false := Bool.eq_false_of_not_eq_true' hkeeps
        simp only [workerCommand, FlushSite.afterRequests, Bool.false_eq_true, if_false] at hok
        split_ifs at hok <;> exact hok
  | popLoad site count =>
    refine ⟨?_, rfl⟩
    cases site with
    | ready drainPartial => rfl
    | drain site ok any =>
      simp only [workerCommand] at hok
      split_ifs at hok <;> exact hok
  | popNone site =>
    refine ⟨?_, rfl⟩
    cases site <;> first | rfl | exact hok
  | popRelease site batch =>
    refine ⟨?_, rfl⟩
    cases site with
    | ready drainPartial => rfl
    | drain site ok any =>
      cases site <;> simp only [workerCommand] at hok <;> split_ifs at hok <;> exact hok
  | exportReturn site batch result =>
    cases site with
    | ready drainPartial => exact ⟨rfl, rfl⟩
    | drain site ok any =>
      cases site with
      | request site id => exact ⟨hok, rfl⟩
      | shutdown =>
        obtain ⟨hresult, hok⟩ := Bool.and_eq_true_iff.mp hok
        refine ⟨hok, ?_⟩
        cases result with
        | kSuccess => rfl
        | kFailure => cases hresult
  | drainResult site ok value =>
    refine ⟨?_, rfl⟩
    cases site with
    | request site id =>
      simp only [workerCommand, DrainSite.afterDrain] at hok
      split_ifs at hok <;> exact hok
    | shutdown => exact (Bool.and_eq_true_iff.mp hok).1
  | loadActive ok count =>
    refine ⟨?_, rfl⟩
    cases ok with
    | true => rfl
    | false =>
      obtain rfl : count = 0 := beq_iff_eq.mp hkeeps
      exact hok
  | exitEmpty ok value =>
    refine ⟨?_, rfl⟩
    cases ok with
    | true => rfl
    | false =>
      obtain rfl : value = true := hkeeps
      exact hok
  | finalFlushReturn ok answer =>
    obtain ⟨hanswer, hok⟩ := Bool.and_eq_true_iff.mp hok
    exact ⟨hok, congrArg not hanswer⟩
  | drainClock site ok value =>
    refine ⟨?_, rfl⟩
    cases value <;> exact hok
  | drainEmpty site ok any value =>
    refine ⟨?_, rfl⟩
    cases value <;> cases any <;> exact hok
  | _ => exact ⟨by first | rfl | exact hok, rfl⟩

/-- The result is `false` only if an export has failed, until the final flush is answered. -/
theorem failed_of_not_reportedOk (hr : (system ι P).Run h s)
    (hunfinished : s.worker.finished = false) (hok : reportedOk s = false) : Failed h := by
  induction hr using run_induction_worker with
  | nil => cases hok
  | outside h s s' a hr hs hother hf ih =>
    rw [reportedOk, hf.worker, hf.shutdownDrainOk] at hok
    exact (ih (hf.worker ▸ hunfinished) hok).append
  | worker h s s' a hr hs ih =>
    cases hold : reportedOk s with
    | false =>
      refine (ih ?_ hold).append
      by_contra hfinished
      rw [(finished_worker hs (Bool.eq_true_of_not_eq_false hfinished)).1] at hunfinished
      cases hunfinished
    | true =>
      cases hspoils : a.spoils with
      | false =>
        rw [reportedOk_worker (now_le_of_run hr) hs hold hspoils] at hok
        cases hok
      | true =>
        obtain ⟨hsource, -, hs'⟩ := step_worker_iff.mp hs
        have hsaw := (reading_of_run hr).seen
        rw [hsource] at hsaw
        refine failed_concat_iff.mpr (Or.inr ?_)
        cases a with
        | exportReturn site batch result =>
          rcases site with _ | ⟨_ | _, ok, any⟩
          case drain.shutdown =>
            obtain rfl : result = .kFailure := beq_iff_eq.mp hspoils
            exact ⟨hsaw rfl, List.mem_singleton.mpr rfl⟩
          all_goals cases hspoils
        | finalFlushReturn ok answer =>
          rw [hs'] at hunfinished
          cases hunfinished
        | _ => cases hspoils

/-- When no failure is lost, the result is `true` only if no export has failed. -/
theorem not_failed_of_reportedOk (hr : (system ι P).Run h s)
    (hkeeps : ∀ a ∈ h, keepsFailure a = true) (hok : reportedOk s = true) : ¬Failed h := by
  induction hr using run_induction_worker with
  | nil =>
    intro hF
    cases hF
  | outside h s s' a hr hs hother hf ih =>
    intro hF
    rw [reportedOk, hf.worker, hf.shutdownDrainOk] at hok
    have hclean := ih (fun b hb => hkeeps b (List.mem_append_left _ hb)) hok
    obtain ⟨-, hfailure⟩ := (failed_concat_iff.mp hF).resolve_left hclean
    rw [exportAnswers_outside hother] at hfailure
    exact absurd hfailure List.not_mem_nil
  | worker h s s' a hr hs ih =>
    intro hF
    have hkeep : keepsFailure (Act.worker (ι := ι) a) = true := hkeeps _ (by simp)
    obtain ⟨hold, hspoils⟩ := reportedOk_of_keepsFailure hkeep hs hok
    have hclean := ih (fun b hb => hkeeps b (List.mem_append_left _ hb)) hold
    obtain ⟨hne, hfailure⟩ := (failed_concat_iff.mp hF).resolve_left hclean
    have hordinary := (reading_of_run hr).ordinary
    rw [(step_worker_iff.mp hs).1] at hordinary
    cases a with
    | exportReturn site batch result =>
      obtain rfl : ExportResult.kFailure = result := List.mem_singleton.mp hfailure
      rcases site with _ | ⟨_ | _, ok, any⟩
      case ready => exact hne (hordinary rfl)
      case drain.request => exact hne (hordinary hkeep)
      case drain.shutdown => cases hspoils
    | _ => cases hfailure

/-! ### The calls of the exporter -/

/-- A call of `exportSpans` is in progress. -/
def WorkerPc.exporting : WorkerPc ι α → ℕ
  | .inExport _ _ => 1
  | _ => 0

/-- A call of `exportSpans` is in progress from its start to its answer. -/
lemma exporting_worker {a : WorkerAct ι α} (hs : step P s (.worker a) = some s') :
    (exportCalls [Act.worker (ι := ι) a]).length + s.worker.exporting =
      (exportAnswers [Act.worker (ι := ι) a]).length + s'.worker.exporting := by
  obtain ⟨hsource, -, rfl⟩ := step_worker_iff.mp hs
  rw [hsource]
  clear hs hsource
  cases a with
  | noRequest site any =>
    cases site <;> simp only [workerCommand, FlushSite.afterRequests, ordinaryDrain] <;>
      (try split_ifs) <;> rfl
  | drainResult site ok value =>
    cases site <;> simp only [workerCommand, DrainSite.afterDrain] <;> (try split_ifs) <;> rfl
  | popNone site => cases site <;> rfl
  | popLoad site count => cases site <;> simp only [workerCommand] <;> split_ifs <;> rfl
  | popRelease site batch => cases site <;> simp only [workerCommand] <;> split_ifs <;> rfl
  | exportReturn site batch result => cases site <;> rfl
  | _ =>
    simp only [workerCommand]
    (try split_ifs) <;> rfl

/-- Since the worker has read the shutdown request, every call of `exportSpans` but the one in
progress has returned. -/
theorem exportCalls_length_eq (hr : (system ι P).Run h s) (hne : sinceShutdown h ≠ []) :
    (exportCalls (sinceShutdown h)).length =
      (exportAnswers (sinceShutdown h)).length + s.worker.exporting := by
  induction hr using run_induction_worker with
  | nil => exact absurd rfl hne
  | outside h s s' a hr hs hother hf ih =>
    by_cases hold : sinceShutdown h = []
    · rw [sinceShutdown_concat_of_nil hold, readsShutdown_outside hother] at hne
      exact absurd rfl hne
    · rw [sinceShutdown_concat_of_ne hold, exportCalls_append, exportAnswers_append,
        exportCalls_outside hother, exportAnswers_outside hother, List.append_nil, List.append_nil,
        hf.worker]
      exact ih hold
  | worker h s s' a hr hs ih =>
    have hbalance := exporting_worker hs
    by_cases hold : sinceShutdown h = []
    · rw [sinceShutdown_concat_of_nil hold] at hne ⊢
      obtain ⟨hsource, -, hs'⟩ := step_worker_iff.mp hs
      cases a with
      | loadShutdown elapsed value =>
        rw [hs']
        split_ifs <;> rfl
      | _ => exact absurd rfl hne
    · rw [sinceShutdown_concat_of_ne hold, exportCalls_append, exportAnswers_append,
        List.length_append, List.length_append]
      have hprevious := ih hold
      omega

/-- With an exporter, the worker makes its last call of it with the final flush. -/
lemma finished_source {a : WorkerAct ι α} (hexp : P.exporter = true)
    (hfin : (workerCommand P a).target.finished = true) :
    (workerCommand P a).source.finished = true ∨ ∃ ok answer, a = .finalFlushReturn ok answer := by
  cases a with
  | finalFlushReturn ok answer => exact Or.inr ⟨ok, answer, rfl⟩
  | noRequest site any =>
    cases site <;>
      simp only [workerCommand, FlushSite.afterRequests, ordinaryDrain, hexp, if_true] at hfin <;>
      (try split_ifs at hfin) <;> cases hfin
  | drainResult site ok value =>
    simp only [workerCommand, DrainSite.afterDrain, hexp, if_true] at hfin
    cases site <;> cases hfin
  | popNone site => cases site <;> cases hfin
  | popLoad site count =>
    simp only [workerCommand] at hfin
    cases site <;> split_ifs at hfin <;> cases hfin
  | popRelease site batch =>
    simp only [workerCommand, hexp, if_true] at hfin
    cases hfin
  | exportReturn site batch result => cases site <;> cases hfin
  | _ =>
    simp only [workerCommand] at hfin
    (try split_ifs at hfin) <;> exact Or.inl hfin

omit [DecidableEq ι] [DecidableEq α] in
lemma finalFlushAnswers_append (h h' : List (Act ι α)) :
    finalFlushAnswers (h ++ h') = finalFlushAnswers h ++ finalFlushAnswers h' :=
  List.filterMap_append

/-- The exporter's `forceFlush` is called once on the way out, and the result is `true` only if it
has answered `true`. -/
theorem finalFlushAnswers_of_run (hr : (system ι P).Run h s) :
    (s.worker.finished = false → finalFlushAnswers h = []) ∧
      (s.worker.finished = true → P.exporter = true → reportedOk s = true →
        finalFlushAnswers h = [true]) := by
  induction hr using run_induction_worker with
  | nil => exact ⟨fun _ => rfl, nofun⟩
  | outside h s s' a hr hs hother hf ih =>
    have hnone : finalFlushAnswers [a] = [] := by
      cases a with
      | worker b => exact absurd rfl (hother b)
      | _ => rfl
    rw [finalFlushAnswers_append, hnone, List.append_nil, reportedOk, hf.worker,
      hf.shutdownDrainOk]
    exact ih
  | worker h s s' a hr hs ih =>
    obtain ⟨hbefore, hafter⟩ := ih
    rw [finalFlushAnswers_append]
    cases hfinished : s.worker.finished with
    | true =>
      have hnone : finalFlushAnswers [Act.worker (ι := ι) a] = [] ∧
          (reportedOk s' = true → reportedOk s = true) := by
        obtain ⟨hsource, -, rfl⟩ := step_worker_iff.mp hs
        rw [hsource] at hfinished
        unfold reportedOk
        rw [hsource]
        cases a <;> first | exact ⟨rfl, id⟩ | cases hfinished
      rw [hnone.1, List.append_nil, (finished_worker hs hfinished).1]
      exact ⟨nofun, fun _ hexp hok => hafter hfinished hexp (hnone.2 hok)⟩
    | false =>
      rw [hbefore hfinished, List.nil_append]
      by_cases hflush : ∃ ok answer, a = .finalFlushReturn ok answer
      · obtain ⟨ok, answer, rfl⟩ := hflush
        obtain ⟨-, -, rfl⟩ := step_worker_iff.mp hs
        refine ⟨nofun, fun _ _ hok => ?_⟩
        obtain ⟨rfl, -⟩ := Bool.and_eq_true_iff.mp hok
        rfl
      · refine ⟨fun _ => ?_, fun hfin hexp => ?_⟩
        · cases a with
          | finalFlushReturn ok answer => exact absurd ⟨ok, answer, rfl⟩ hflush
          | _ => rfl
        · obtain ⟨hsource, -, rfl⟩ := step_worker_iff.mp hs
          rcases finished_source hexp hfin with hold | hnew
          · rw [hsource, hold] at hfinished
            cases hfinished
          · exact absurd hnew hflush

/-! ### The answer of `shutdown` -/

/-- The caller has seen the worker stopped. -/
def CallerPc.joined : CallerPc α → Bool
  | .shutdown (.loadDrainOk _ ok) => ok
  | _ => false

/-- The caller is about to report a successful drain. -/
def CallerPc.reporting : CallerPc α → Bool
  | .shutdown (.claimExporter _ ok) | .shutdown (.callExporter _ ok)
  | .shutdown (.inExporter _ ok) | .shutdown (.readClock _ ok) => ok
  | _ => false

/-- What a caller at this point knows about the worker. -/
def CallerPc.Knows (sh : Shared ι α) (p : CallerPc α) : Prop :=
  (p.joined = true → sh.workerStopped = true) ∧
    (p.reporting = true → sh.workerStopped = true ∧ sh.shutdownDrainOk = true)

/-- A successful drain is only reported of a worker that has stopped and stored its result. -/
structure Verdict (h : List (Act ι α)) (s : State ι α) : Prop where
  stopped : s.sh.workerStopped = true → s.worker = .stopped
  knows : ∀ t, (s.pc t).Knows s.sh
  returned : (∃ a ∈ h, shutdownSucceeds a = true) →
    s.sh.workerStopped = true ∧ s.sh.shutdownDrainOk = true

/-- A caller of `shutdown` has seen the worker stopped because it has read the flag. -/
lemma joined_shutdown {a : ShutdownAct} (hs : step P s (.shutdown t a) = some s')
    (hjoined : (shutdownCommand (ι := ι) P a).target.joined = true) :
    s.sh.workerStopped = true := by
  obtain ⟨-, hg, -⟩ := step_shutdown_iff.mp hs
  cases a with
  | join deadline => exact hg
  | loadStopped deadline value =>
    obtain rfl : value = true := hjoined
    exact beq_iff_eq.mp hg
  | _ =>
    simp only [shutdownCommand] at hjoined
    (try split_ifs at hjoined) <;> cases hjoined

/-- A caller of `shutdown` reports a successful drain because it has read `shutdownDrainOk` after
the worker had stopped. -/
lemma reporting_shutdown {a : ShutdownAct} (hs : step P s (.shutdown t a) = some s')
    (hreporting : (shutdownCommand (ι := ι) P a).target.reporting = true) :
    (s.pc t).reporting = true ∨ (s.pc t).joined = true ∧ s.sh.shutdownDrainOk = true := by
  obtain ⟨hsource, hg, -⟩ := step_shutdown_iff.mp hs
  rw [hsource]
  cases a with
  | loadDrainOk deadline ok value =>
    have hboth : (value && ok) = true := by
      simp only [shutdownCommand] at hreporting
      split_ifs at hreporting <;> exact hreporting
    obtain ⟨rfl, rfl⟩ := Bool.and_eq_true_iff.mp hboth
    exact Or.inr ⟨rfl, beq_iff_eq.mp hg⟩
  | exporterReturn deadline ok answer =>
    exact Or.inl (Bool.and_eq_true_iff.mp hreporting).2
  | _ =>
    simp only [shutdownCommand] at hreporting
    (try split_ifs at hreporting) <;> first | exact Or.inl hreporting | cases hreporting

omit [DecidableEq ι] [DecidableEq α] in
/-- A step outside the worker keeps what is known if the caller that moves learns the truth. -/
lemma Verdict.of_outside {a : Act ι α} (hV : Verdict h s) (hf : OutsideFrame s s')
    (hknows : ∀ t, (s'.pc t).Knows s.sh)
    (hreturns : shutdownSucceeds a = true →
      s.sh.workerStopped = true ∧ s.sh.shutdownDrainOk = true) : Verdict (h ++ [a]) s' := by
  have hsame : ∀ p : CallerPc α, p.Knows s'.sh ↔ p.Knows s.sh := by
    intro p
    rw [CallerPc.Knows, CallerPc.Knows, hf.workerStopped, hf.shutdownDrainOk]
  refine ⟨?_, fun t => (hsame _).mpr (hknows t), ?_⟩
  · rw [hf.workerStopped, hf.worker]
    exact hV.stopped
  · rw [hf.workerStopped, hf.shutdownDrainOk]
    rintro ⟨b, hb, hsucceeds⟩
    rcases List.mem_append.mp hb with hold | hnew
    · exact hV.returned ⟨b, hold, hsucceeds⟩
    · exact hreturns (List.mem_singleton.mp hnew ▸ hsucceeds)

/-- In every reachable state, a successful drain is only reported of a worker that has stopped and
stored its result. -/
theorem verdict_of_run (hr : (system ι P).Run h s) : Verdict h s := by
  induction hr using run_induction with
  | nil => exact ⟨nofun, fun _ => ⟨nofun, nofun⟩, nofun⟩
  | onEnd h s s' t a hr hs ih =>
    have hf := onEnd_frame hs
    refine ih.of_outside ⟨hf.worker, hf.workerStopped, hf.shutdownDrainOk⟩ (fun t' => ?_)
      (by rintro ⟨⟩)
    by_cases ht : t' = t
    · obtain ⟨-, hidle | ⟨p, hp⟩⟩ := onEnd_pc hs
      · rw [ht, hidle]; exact ⟨nofun, nofun⟩
      · rw [ht, hp]; exact ⟨nofun, nofun⟩
    · rw [hf.others t' ht]
      exact ih.knows t'
  | forceFlush h s s' t a hr hs ih =>
    have hf := forceFlush_frame hs
    refine ih.of_outside ⟨hf.worker, hf.workerStopped, hf.shutdownDrainOk⟩ (fun t' => ?_)
      (by rintro ⟨⟩)
    by_cases ht : t' = t
    · obtain ⟨-, hidle | ⟨p, hp⟩⟩ := forceFlush_pc hs
      · rw [ht, hidle]; exact ⟨nofun, nofun⟩
      · rw [ht, hp]; exact ⟨nofun, nofun⟩
    · rw [hf.others t' ht]
      exact ih.knows t'
  | shutdown h s s' t a hr hs ih =>
    have hf := shutdown_frame hs
    refine ih.of_outside ⟨hf.worker, hf.workerStopped, hf.shutdownDrainOk⟩ ?_ fun hsucceeds => ?_
    · rw [shutdown_pc_eq hs]
      refine forall_update (I := fun _ (p : CallerPc α) => p.Knows s.sh) (fun t' _ => ih.knows t')
        ⟨joined_shutdown hs, fun hreporting => ?_⟩
      rcases reporting_shutdown hs hreporting with hold | ⟨hjoined, hok⟩
      · exact (ih.knows t).2 hold
      · exact ⟨(ih.knows t).1 hjoined, hok⟩
    · cases a with
      | ret deadline ok inTime =>
        refine (ih.knows t).2 ?_
        rw [(step_shutdown_iff.mp hs).1]
        exact (Bool.and_eq_true_iff.mp hsucceeds).1
      | _ => cases hsucceeds
  | worker h s s' a hr hs ih =>
    -- the worker has not stopped yet, so nothing has been reported
    have hrunning : s.sh.workerStopped = true → False := by
      intro hstopped
      have hsource := (step_worker_iff.mp hs).1
      rw [ih.stopped hstopped] at hsource
      cases a <;> cases hsource
    refine ⟨fun hstopped => ?_, fun t => ?_, ?_⟩
    · obtain ⟨-, -, rfl⟩ := step_worker_iff.mp hs
      cases a <;> first | rfl | exact (hrunning hstopped).elim
    · rw [(worker_frame hs).pc]
      exact ⟨fun hjoined => (hrunning ((ih.knows t).1 hjoined)).elim,
        fun hreporting => (hrunning ((ih.knows t).2 hreporting).1).elim⟩
    · rintro ⟨b, hb, hsucceeds⟩
      rcases List.mem_append.mp hb with hold | hnew
      · exact (hrunning (ih.returned ⟨b, hold, hsucceeds⟩).1).elim
      · obtain rfl := List.mem_singleton.mp hnew
        cases hsucceeds
  | tick h s s' now hr hs ih =>
    obtain ⟨-, rfl⟩ := step_tick_iff.mp hs
    exact ih.of_outside ⟨rfl, rfl, rfl⟩ ih.knows (by rintro ⟨⟩)

/-! ### The result -/

/-- A step loses a failure only when there is one. -/
lemma failed_of_lost {a : Act ι α} (hr : (system ι P).Run h s) (hs : step P s a = some s')
    (hlost : keepsFailure a = false) : Failed (h ++ [a]) := by
  have hspoilt : s.worker.finished = false → reportedOk s = false → Failed (h ++ [a]) :=
    fun hunfinished hok => (failed_of_not_reportedOk hr hunfinished hok).append
  rcases a with _ | _ | _ | a | _
  case worker =>
    have hsource := (step_worker_iff.mp hs).1
    have hsaw := (reading_of_run hr).seen
    unfold reportedOk at hspoilt
    rw [hsource] at hsaw hspoilt
    cases a with
    | exportReturn site batch result =>
      rcases site with _ | ⟨⟨site, id⟩ | _, ok, any⟩
      case drain.request =>
        cases result with
        | kSuccess => cases hlost
        | kFailure =>
          refine failed_concat_iff.mpr (Or.inr ⟨hsaw ?_, List.mem_singleton.mpr rfl⟩)
          exact Bool.eq_true_of_not_eq_false' hlost
      all_goals cases hlost
    | loadActive ok count => cases ok <;> first | exact hspoilt rfl rfl | cases hlost
    | exitEmpty ok value => cases ok <;> first | exact hspoilt rfl rfl | cases hlost
    | noRequest site any =>
      rcases site with _ | _ | ⟨_ | _⟩ <;> first | exact hspoilt rfl rfl | cases hlost
    | _ => cases hlost
  all_goals cases hlost

/-- In a run in which a call of `shutdown` has returned `true`, the drain was successful if and
only if no failure was lost: no export has failed for a flush request since the worker read the
shutdown request, and the shutdown branch has not started over after a failure. -/
theorem drainSucceeded_iff (hr : (system ι P).Run h s)
    (hreturned : ∃ a ∈ h, shutdownSucceeds a = true) :
    DrainSucceeded P h ↔ ∀ a ∈ h, keepsFailure a = true := by
  obtain ⟨hstopped, hok⟩ := (verdict_of_run hr).returned hreturned
  have hworker := (verdict_of_run hr).stopped hstopped
  have hreported : reportedOk s = true := by
    rw [reportedOk, hworker]
    exact hok
  have hread := (reading_of_run hr).seen (by rw [hworker]; rfl)
  constructor
  · rintro ⟨-, hsuccess, -⟩ a ha
    have hclean : ¬Failed h := fun hF => by cases hsuccess _ hF
    obtain ⟨pre, post, rfl⟩ := List.append_of_mem ha
    have hr' : (system ι P).Run ((pre ++ [a]) ++ post) s := by simpa using hr
    obtain ⟨s₁, hr₁⟩ := hr'.of_append
    obtain ⟨s₀, hr₀, hs₀⟩ := (system ι P).run_concat_iff.mp hr₁
    replace hs₀ : step P s₀ a = some s₁ := hs₀
    by_contra hlost
    refine hclean ?_
    have hfailed : Failed ((pre ++ [a]) ++ post) :=
      (failed_of_lost hr₀ hs₀ (Bool.eq_false_iff.mpr hlost)).append
    simpa using hfailed
  · intro hkeeps
    have hclean := not_failed_of_reportedOk hr hkeeps hreported
    refine ⟨?_, fun result hresult => ?_, fun hexp => ?_⟩
    · have hlength := exportCalls_length_eq hr hread
      rw [hworker] at hlength
      exact hlength
    · cases result with
      | kSuccess => rfl
      | kFailure => exact absurd hresult hclean
    · exact (finalFlushAnswers_of_run hr).2 (by rw [hworker]; rfl) hexp hreported

/-- A span is queued and a caller has requested the shutdown; the worker takes up the request and
hands the span to the exporter. -/
def shutdownDrain : List (Act Thread ℕ) :=
  [.onEnd .t₁ (.call 5), .onEnd .t₁ (.fetchAdd 5 0), .onEnd .t₁ (.loadShutdown 5 0 false),
    .onEnd .t₁ (.enqueue 5 0 true), .forceFlush .t₂ (.call 1), .forceFlush .t₂ (.announce 1),
    .shutdown .t₁ (.call 1 1000000), .shutdown .t₁ (.storeRequested 1000000),
    .shutdown .t₁ (.notifyStore 1000000), .shutdown .t₁ (.notifyRelease 1000000),
    .shutdown .t₁ (.claimJoin 1000000 false), .worker .waitAcquire, .worker .clearPending,
    .worker (.loadShutdown false true), .worker (.noRequest (.head false true) false),
    .worker (.drainClock .shutdown true true), .worker (.popLoad (.drain .shutdown true false) 1),
    .worker (.popBatch (.drain .shutdown true false) [(.t₁, 5)]),
    .worker (.popRelease (.drain .shutdown true false) [(.t₁, 5)]),
    .worker (.callExport (.drain .shutdown true false) [(.t₁, 5)])]

/-- The exporter answers `result`, and the caller of `forceFlush` delays the exit of the worker. -/
def delayedExit (result : ExportResult) (ok : Bool) : List (Act Thread ℕ) :=
  [.worker (.exportReturn (.drain .shutdown true false) [(.t₁, 5)] result),
    .worker (.popLoad (.drain .shutdown ok true) 0), .worker (.drainEmpty .shutdown ok true true),
    .worker (.drainResult .shutdown ok true), .worker (.noRequest (.drained ok) false),
    .worker (.loadActive ok 1), .forceFlush .t₂ (.loadShutdown 1 true),
    .forceFlush .t₂ (.leave .refused 1), .forceFlush .t₂ (.leaveLoad .refused true),
    .forceFlush .t₂ (.leaveStore .refused), .forceFlush .t₂ (.leaveRelease .refused),
    .forceFlush .t₂ (.readEmpty true)]

/-- The second round of the shutdown branch finds nothing left to do, and `shutdown` returns. -/
def secondRound : List (Act Thread ℕ) :=
  [.worker .waitAcquire, .worker .clearPending, .worker (.loadShutdown false true),
    .worker (.noRequest (.head false true) false), .worker (.drainClock .shutdown true true),
    .worker (.popLoad (.drain .shutdown true false) 0),
    .worker (.drainEmpty .shutdown true false true), .worker (.drainResult .shutdown true true),
    .worker (.noRequest (.drained true) false), .worker (.loadActive true 0),
    .worker (.exitEmpty true true), .worker (.noRequest (.exitTest true) false),
    .worker (.callFinalFlush true), .worker (.finalFlushReturn true true),
    .worker (.storeDrainOk true), .worker .storeStopped, .shutdown .t₁ (.join 1000000),
    .shutdown .t₁ (.loadDrainOk 1000000 true true),
    .shutdown .t₁ (.claimExporter 1000000 true false), .shutdown .t₁ (.callExporter 1000000 true),
    .shutdown .t₁ (.exporterReturn 1000000 true true), .shutdown .t₁ (.ret 1000000 true true)]

/-- When the export succeeds, so does the drain, in spite of the delay. -/
theorem drainSucceeded_delayedShutdown : DrainSucceeded (smallProcessor .kTimed 1 1)
    (shutdownDrain ++ delayedExit .kSuccess true ++ secondRound) := by
  obtain ⟨s, hr, -⟩ := Lts.exists_run_of_any (L := system Thread (smallProcessor .kTimed 1 1))
    (h := shutdownDrain ++ delayedExit .kSuccess true ++ secondRound) (p := fun _ => true)
    (by decide)
  exact (drainSucceeded_iff hr (by decide)).mpr (by decide)

/-- The export fails in the first round of the shutdown branch, and `shutdown` returns `true` after
the second. -/
theorem retriedShutdown_fails :
    (∃ s, (system Thread (smallProcessor .kTimed 1 1)).Run
      (shutdownDrain ++ delayedExit .kFailure false ++ secondRound) s) ∧
      (∃ a ∈ shutdownDrain ++ delayedExit .kFailure false ++ secondRound,
        shutdownSucceeds a = true) ∧
      ¬DrainSucceeded (smallProcessor .kTimed 1 1)
        (shutdownDrain ++ delayedExit .kFailure false ++ secondRound) := by
  obtain ⟨s, hr, -⟩ := Lts.exists_run_of_any (L := system Thread (smallProcessor .kTimed 1 1))
    (h := shutdownDrain ++ delayedExit .kFailure false ++ secondRound) (p := fun _ => true)
    (by decide)
  refine ⟨⟨s, hr⟩, by decide, fun hdrained => ?_⟩
  have hfailure : ExportResult.kFailure ∈ exportAnswers
      (sinceShutdown (shutdownDrain ++ delayedExit .kFailure false ++ secondRound)) := by decide
  cases hdrained.success _ hfailure

end GalayTracing
