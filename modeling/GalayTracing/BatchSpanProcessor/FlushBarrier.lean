import GalayTracing.BatchSpanProcessor.Conservation
import GalayTracing.BatchSpanProcessor.FlushRequests

/-!
# `forceFlush` is a barrier

The answer to a flush request travels from the drain that serves it through the local `ok` of the
worker and the flag `ok` of the request to the caller.  The account below follows it: whatever
carries the value `true` on this way stands for a service of the request in which every
`exportSpans` call succeeded, the exporter's `forceFlush` was called after them and succeeded, and
the queue was found empty after the request had been created.

A drain can stop because its deadline has passed; its result is then `false`, since the clock is
read once more and never goes back.
-/

namespace GalayTracing

variable {ι α : Type}

/-! ### What the histories record of a request -/

/-- How often the request was created. -/
def createdCount (request : ℕ) (h : List (Act ι α)) : ℕ :=
  h.countP fun
    | .forceFlush _ (.create _ request') => request' == request
    | _ => false

lemma createdCount_append (request : ℕ) (h h' : List (Act ι α)) :
    createdCount request (h ++ h') = createdCount request h + createdCount request h' :=
  List.countP_append

/-- The step neither takes up a request nor calls `exportSpans` nor returns from it. -/
def quietStep : Act ι α → Bool
  | .worker (.dequeueRequest _ _ _ _) | .worker (.callExport _ _)
  | .worker (.exportReturn _ _ _) => false
  | _ => true

/-- The step takes up a flush request. -/
def takesRequest : Act ι α → Bool
  | .worker (.dequeueRequest _ _ _ _) => true
  | _ => false

lemma exportCalls_quiet {a : Act ι α} (ha : quietStep a = true) : exportCalls [a] = [] := by
  rcases a with _ | _ | _ | a | _
  case worker => cases a <;> first | rfl | cases ha
  all_goals rfl

lemma exportAnswers_quiet {a : Act ι α} (ha : quietStep a = true) : exportAnswers [a] = [] := by
  rcases a with _ | _ | _ | a | _
  case worker => cases a <;> first | rfl | cases ha
  all_goals rfl

lemma takesRequest_quiet {a : Act ι α} (ha : quietStep a = true) : takesRequest a = false := by
  rcases a with _ | _ | _ | a | _
  case worker => cases a <;> first | rfl | cases ha
  all_goals rfl

variable {P : Processor α} {s s' : State ι α}
  {h h' h₀ h₁ : List (Act ι α)} {t : ι} {site : FlushSite} {request n : ℕ} {ok : Bool}

/-- The worker took up the request in the history, and no other since then; of the `exportSpans`
calls it made since then `n` are in progress, and if `ok` the others all succeeded. -/
def InService (site : FlushSite) (request : ℕ) (ok : Bool) (n : ℕ) (h : List (Act ι α)) : Prop :=
  ∃ before any caller d, h = before ++ .worker (.dequeueRequest site any caller request) :: d ∧
    (∀ a ∈ d, takesRequest a = false) ∧
    (exportCalls d).length = (exportAnswers d).length + n ∧
    (ok = true → ∀ result ∈ exportAnswers d, result = .kSuccess)

/-- After the exports of its service the request was handed to the exporter's `forceFlush`. -/
def InFlushing (site : FlushSite) (request : ℕ) (ok : Bool) (h : List (Act ι α)) : Prop :=
  ∃ pre remaining d, h = pre ++ .worker (.callFlush site request ok remaining) :: d ∧
    InService site request ok 0 pre ∧ exportCalls d = []

/-- The exporter's `forceFlush` was called after the exports of the service of the request, which
all succeeded, and it succeeded. -/
def Flushed (site : FlushSite) (request : ℕ) (h : List (Act ι α)) : Prop :=
  ∃ pre remaining d, h = pre ++ .worker (.callFlush site request true remaining) :: d ∧
    InService site request true 0 pre ∧ exportCalls d = [] ∧
    .worker (.flushReturn site request true true) ∈ d

/-- The request was served successfully: its service consists of `exportSpans` calls that all
succeeded, then a call of the exporter's `forceFlush` that succeeded, then the answer. -/
def ServedOk (request : ℕ) (h : List (Act ι α)) : Prop :=
  ∃ site pre after, h = pre ++ .worker (.storeOk site request true) :: after ∧
    Flushed site request pre

/-! ### Quiet steps keep the records -/

lemma InService.quiet {a : Act ι α} (hS : InService site request ok n h)
    (ha : quietStep a = true) : InService site request ok n (h ++ [a]) := by
  obtain ⟨before, any, caller, d, rfl, htakes, hlen, hsuccess⟩ := hS
  refine ⟨before, any, caller, d ++ [a], by simp, fun b hb => ?_, ?_, ?_⟩
  · rcases List.mem_append.mp hb with hold | hnew
    · exact htakes b hold
    · rw [List.mem_singleton.mp hnew]
      exact takesRequest_quiet ha
  · rw [exportCalls_append, exportAnswers_append, exportCalls_quiet ha, exportAnswers_quiet ha,
      List.append_nil, List.append_nil]
    exact hlen
  · rw [exportAnswers_append, exportAnswers_quiet ha, List.append_nil]
    exact hsuccess

lemma InService.weaken {ok' : Bool} (hS : InService site request ok n h)
    (hok : ok' = true → ok = true) : InService site request ok' n h := by
  obtain ⟨before, any, caller, d, heq, htakes, hlen, hsuccess⟩ := hS
  exact ⟨before, any, caller, d, heq, htakes, hlen, fun h' => hsuccess (hok h')⟩

lemma InFlushing.quiet {a : Act ι α} (hF : InFlushing site request ok h)
    (ha : quietStep a = true) : InFlushing site request ok (h ++ [a]) := by
  obtain ⟨pre, remaining, d, rfl, hS, hnone⟩ := hF
  refine ⟨pre, remaining, d ++ [a], by simp, hS, ?_⟩
  rw [exportCalls_append, hnone, exportCalls_quiet ha]
  rfl

lemma Flushed.quiet {a : Act ι α} (hF : Flushed site request h) (ha : quietStep a = true) :
    Flushed site request (h ++ [a]) := by
  obtain ⟨pre, remaining, d, rfl, hS, hnone, hmem⟩ := hF
  refine ⟨pre, remaining, d ++ [a], by simp, hS, ?_, List.mem_append_left _ hmem⟩
  rw [exportCalls_append, hnone, exportCalls_quiet ha]
  rfl

lemma ServedOk.concat {a : Act ι α} (hS : ServedOk request h) : ServedOk request (h ++ [a]) := by
  obtain ⟨site, pre, after, rfl, hF⟩ := hS
  exact ⟨site, pre, after ++ [a], by simp, hF⟩

variable [DecidableEq ι]

/-- Everything that was accepted by some moment after the creation of the request has been handed
to the exporter. -/
def Drained (request : ℕ) (h : List (Act ι α)) : Prop :=
  ∃ pre, pre <+: h ∧ 1 ≤ createdCount request pre ∧ ∀ t, accepted t pre <+: exported t h

lemma Drained.concat {a : Act ι α} (hD : Drained request h) : Drained request (h ++ [a]) := by
  obtain ⟨pre, hpre, hcreated, hexported⟩ := hD
  refine ⟨pre, hpre.trans (List.prefix_append h [a]), hcreated, fun t => ?_⟩
  rw [exported_append]
  exact (hexported t).trans (List.prefix_append _ _)

variable [DecidableEq α]

/-! ### Creation -/

/-- The requests are created in the order of their indices. -/
theorem createdCount_eq_of_run (hr : (system ι P).Run h s) (request : ℕ) :
    createdCount request h = if request < s.sh.created then 1 else 0 := by
  induction hr using run_induction with
  | nil => rfl
  | onEnd h s s' t a hr hs ih =>
    rw [createdCount_append, (onEnd_frame hs).created, ih]
    rfl
  | forceFlush h s s' t a hr hs ih =>
    obtain ⟨-, hg, hs'⟩ := step_forceFlush_iff.mp hs
    rw [createdCount_append, ih]
    rcases a with _ | _ | _ | _ | ⟨timeout, r⟩ | ⟨_, _ | _⟩ | _ | _ | _ | _ | _ | _ | _ | _ | _ | _
    case create =>
      have hr : s.sh.created = r := beq_iff_eq.mp hg
      have hcreated : s'.sh.created = s.sh.created + 1 := by rw [hs']; rfl
      have hone : createdCount request [Act.forceFlush (α := α) t (.create timeout r)] =
          if r = request then 1 else 0 := by simp [createdCount, List.countP_singleton]
      rw [hone, hcreated]
      by_cases hlt : request < s.sh.created
      · rw [if_pos hlt, if_neg (by omega), if_pos (by omega)]
      · by_cases heq : r = request
        · rw [if_neg hlt, if_pos heq, if_pos (by omega)]
        · rw [if_neg hlt, if_neg heq, if_neg (by omega)]
    all_goals
      have hcreated : s'.sh.created = s.sh.created := by rw [hs']; rfl
      rw [hcreated]
      rfl
  | shutdown h s s' t a hr hs ih =>
    rw [createdCount_append, (shutdown_frame hs).created, ih]
    rfl
  | worker h s s' a hr hs ih =>
    rw [createdCount_append, (worker_frame hs).created, ih]
    rfl
  | tick h s s' now hr hs ih =>
    obtain ⟨-, rfl⟩ := step_tick_iff.mp hs
    rw [createdCount_append, ih]
    rfl

omit [DecidableEq ι] [DecidableEq α] in
lemma pending_of_serving (hserving : s.worker.serving = some request) :
    1 ≤ pendingCount request s := by
  rw [pendingCount, if_pos hserving]
  exact Nat.le_add_left _ _

/-- The deadline of a request that was created does not change. -/
lemma deadline_of_step {a : Act ι α} (hs : step P s a = some s')
    (hcreated : request < s.sh.created) :
    (s'.sh.requests request).deadline = (s.sh.requests request).deadline := by
  rcases a with ⟨t, a⟩ | ⟨t, a⟩ | ⟨t, a⟩ | a | now
  · rw [(onEnd_frame hs).requests]
  · obtain ⟨-, hg, rfl⟩ := step_forceFlush_iff.mp hs
    rcases a with _ | _ | _ | _ | ⟨timeout, r⟩ | ⟨_, _ | _⟩ | _ | _ | _ | _ | _ | _ | _ | r | _ | _
    case create =>
      have hr : s.sh.created = r := beq_iff_eq.mp hg
      simp only [forceFlushCommand]
      rw [Function.update_of_ne (by omega)]
    case acquireDone =>
      simp only [forceFlushCommand]
      by_cases heq : request = r
      · rw [heq, Function.update_self]
      · rw [Function.update_of_ne heq]
    all_goals rfl
  · rw [(shutdown_frame hs).requests]
  · obtain ⟨-, -, rfl⟩ := step_worker_iff.mp hs
    cases a with
    | storeOk site r ok =>
      simp only [workerCommand]
      by_cases heq : request = r
      · rw [heq, Function.update_self]
      · rw [Function.update_of_ne heq]
    | releaseDone site r =>
      simp only [workerCommand]
      by_cases heq : request = r
      · rw [heq, Function.update_self]
      · rw [Function.update_of_ne heq]
    | _ => rfl
  · obtain ⟨-, rfl⟩ := step_tick_iff.mp hs
    rfl

/-- Requests are only created. -/
lemma created_le_of_step {a : Act ι α} (hs : step P s a = some s') :
    s.sh.created ≤ s'.sh.created := by
  rcases a with ⟨t', a⟩ | ⟨t', a⟩ | ⟨t', a⟩ | a | now
  · exact (onEnd_frame hs).created.ge
  · obtain ⟨-, -, rfl⟩ := step_forceFlush_iff.mp hs
    rcases a with _ | _ | _ | _ | _ | ⟨_, _ | _⟩ | _ | _ | _ | _ | _ | _ | _ | _ | _ | _
    case create => exact Nat.le_succ _
    all_goals exact le_rfl
  · exact (shutdown_frame hs).created.ge
  · exact (worker_frame hs).created.ge
  · obtain ⟨-, rfl⟩ := step_tick_iff.mp hs
    exact le_rfl

/-- The clock does not go back. -/
lemma now_le_of_step {a : Act ι α} (hs : step P s a = some s') : s.sh.now ≤ s'.sh.now := by
  rcases a with ⟨t, a⟩ | ⟨t, a⟩ | ⟨t, a⟩ | a | now
  · exact (onEnd_frame hs).now.ge
  · exact (forceFlush_frame hs).now.ge
  · exact (shutdown_frame hs).now.ge
  · exact (worker_frame hs).now.ge
  · obtain ⟨⟨hle, -⟩, rfl⟩ := step_tick_iff.mp hs
    exact hle

variable [Fintype ι]

/-- A request in the queue or in the hands of the worker has been created. -/
lemma lt_created_of_pending (hr : (system ι P).Run h s) (hpending : 1 ≤ pendingCount request s) :
    request < s.sh.created := by
  by_contra hnot
  have hzero := (enqueuedOnce_of_run hr request).1 (Nat.le_of_not_lt hnot)
  have hbalance := enqueuedCount_eq_of_run hr request
  omega

lemma createdCount_of_pending (hr : (system ι P).Run h s) (hpending : 1 ≤ pendingCount request s) :
    createdCount request h = 1 := by
  rw [createdCount_eq_of_run hr, if_pos (lt_created_of_pending hr hpending)]

/-! ### The account of the service -/

/-- What a drain with the local `ok` stands for. -/
def DrainSite.Account (ok : Bool) (n : ℕ) (h : List (Act ι α)) : DrainSite → Prop
  | .request site id => InService site id ok n h
  | .shutdown => True

/-- What a loop that pops batches stands for. -/
def PopSite.Account (n : ℕ) (h : List (Act ι α)) : PopSite → Prop
  | .ready _ => True
  | .drain site ok _ => site.Account ok n h

/-- What the program point of the worker says about the request it serves. -/
def Account (h : List (Act ι α)) (sh : Shared ι α) : WorkerPc ι α → Prop
  | .popLoad site | .popDequeue site | .popRelease site _ | .callExport site _ => site.Account 0 h
  | .inExport site _ => site.Account 1 h
  | .drainClock site ok | .drainEmpty site ok _ | .drainWait site ok | .drainClear site ok =>
    site.Account ok 0 h
  | .drainResult (.request site id) ok => InService site id ok 0 h ∧
    (Drained id h ∨ (sh.requests id).deadline < sh.now)
  | .callFlush site id ok => InService site id ok 0 h ∧ (ok = true → Drained id h)
  | .inFlush site id ok => InFlushing site id ok h ∧ (ok = true → Drained id h)
  | .storeOk site id ok => ok = true → Flushed site id h ∧ Drained id h
  | _ => True

omit [DecidableEq ι] [DecidableEq α] [Fintype ι] in
lemma DrainSite.Account.quiet {a : Act ι α} {site : DrainSite} (hA : site.Account ok n h)
    (ha : quietStep a = true) : site.Account ok n (h ++ [a]) := by
  cases site with
  | request site id => exact InService.quiet hA ha
  | shutdown => trivial

omit [DecidableEq ι] [DecidableEq α] [Fintype ι] in
lemma PopSite.Account.quiet {a : Act ι α} {site : PopSite} (hA : site.Account n h)
    (ha : quietStep a = true) : site.Account n (h ++ [a]) := by
  cases site with
  | ready drainPartial => trivial
  | drain site ok exportedAny => exact DrainSite.Account.quiet hA ha

/-- A step of a caller or of the clock does not touch the account of the worker. -/
lemma Account.quiet {a : Act ι α} (hr : (system ι P).Run h s) (hs : step P s a = some s')
    (hworker : s'.worker = s.worker) (ha : quietStep a = true)
    (hA : Account h s.sh s.worker) : Account (h ++ [a]) s'.sh s'.worker := by
  rw [hworker]
  cases hpc : s.worker with
  | popLoad site => rw [hpc] at hA; exact PopSite.Account.quiet hA ha
  | popDequeue site => rw [hpc] at hA; exact PopSite.Account.quiet hA ha
  | popRelease site batch => rw [hpc] at hA; exact PopSite.Account.quiet hA ha
  | callExport site batch => rw [hpc] at hA; exact PopSite.Account.quiet hA ha
  | inExport site batch => rw [hpc] at hA; exact PopSite.Account.quiet hA ha
  | drainClock site ok => rw [hpc] at hA; exact DrainSite.Account.quiet hA ha
  | drainEmpty site ok any => rw [hpc] at hA; exact DrainSite.Account.quiet hA ha
  | drainWait site ok => rw [hpc] at hA; exact DrainSite.Account.quiet hA ha
  | drainClear site ok => rw [hpc] at hA; exact DrainSite.Account.quiet hA ha
  | drainResult site ok =>
    rw [hpc] at hA
    cases site with
    | shutdown => trivial
    | request site id =>
      refine ⟨hA.1.quiet ha, hA.2.imp (fun hD => hD.concat) fun hlate => ?_⟩
      have hcreated : id < s.sh.created :=
        lt_created_of_pending hr (pending_of_serving (by rw [hpc]; rfl))
      rw [deadline_of_step hs hcreated]
      exact lt_of_lt_of_le hlate (now_le_of_step hs)
  | callFlush site id ok =>
    rw [hpc] at hA
    exact ⟨hA.1.quiet ha, fun hok => (hA.2 hok).concat⟩
  | inFlush site id ok =>
    rw [hpc] at hA
    exact ⟨hA.1.quiet ha, fun hok => (hA.2 hok).concat⟩
  | storeOk site id ok =>
    rw [hpc] at hA
    exact fun hok => ⟨(hA hok).1.quiet ha, (hA hok).2.concat⟩
  | _ => trivial

omit [DecidableEq ι] [DecidableEq α] [Fintype ι] in
/-- A call of `exportSpans` is in progress until it returns. -/
lemma InService.callExport {popSite : PopSite} {batch : List (ι × α)}
    (hS : InService site request ok 0 h) :
    InService site request ok 1 (h ++ [.worker (.callExport popSite batch)]) := by
  obtain ⟨before, any, caller, d, rfl, htakes, hlen, hsuccess⟩ := hS
  refine ⟨before, any, caller, d ++ [.worker (.callExport popSite batch)], by simp, ?_, ?_, ?_⟩
  · intro b hb
    rcases List.mem_append.mp hb with hold | hnew
    · exact htakes b hold
    · rw [List.mem_singleton.mp hnew]
      rfl
  · rw [exportCalls_append, exportAnswers_append, List.length_append, List.length_append, hlen]
    rfl
  · rw [exportAnswers_append]
    intro hok result hresult
    exact hsuccess hok result (by simpa [exportAnswers] using hresult)

omit [DecidableEq ι] [DecidableEq α] [Fintype ι] in
/-- The local `ok` remembers whether the call of `exportSpans` succeeded. -/
lemma InService.exportReturn {popSite : PopSite} {batch : List (ι × α)} {result : ExportResult}
    (hS : InService site request ok 1 h) :
    InService site request ((result == .kSuccess) && ok) 0
      (h ++ [.worker (.exportReturn popSite batch result)]) := by
  obtain ⟨before, any, caller, d, rfl, htakes, hlen, hsuccess⟩ := hS
  refine ⟨before, any, caller, d ++ [.worker (.exportReturn popSite batch result)], by simp, ?_, ?_,
    ?_⟩
  · intro b hb
    rcases List.mem_append.mp hb with hold | hnew
    · exact htakes b hold
    · rw [List.mem_singleton.mp hnew]
      rfl
  · rw [exportCalls_append, exportAnswers_append, List.length_append, List.length_append, hlen]
    rfl
  · intro hboth answer hanswer
    obtain ⟨hresult, hok⟩ := Bool.and_eq_true_iff.mp hboth
    rw [exportAnswers_append] at hanswer
    rcases List.mem_append.mp hanswer with hold | hnew
    · exact hsuccess hok answer hold
    · have hanswer : answer = result := List.mem_singleton.mp hnew
      rw [hanswer]
      exact beq_iff_eq.mp hresult

/-- When the queue is found empty, everything accepted so far has been handed to the exporter. -/
lemma drained_of_empty (hexp : P.exporter = true) (hr : (system ι P).Run h s)
    (hsize : s.sh.size = 0) (hbatch : s.worker.batch = [])
    (hserving : s.worker.serving = some request) : Drained request h := by
  refine ⟨h, List.prefix_refl h, ?_, fun t => ?_⟩
  · rw [createdCount_of_pending hr (pending_of_serving hserving)]
  · rw [accepted_eq_of_run hexp hr t, hbatch,
      ((ledger_of_run hr).empty_of_size_eq_zero hsize).1]
    simp

/-- The worker keeps its account: the local `ok` stays `true` only while every export succeeds,
the drain reports success only when it has found the queue empty in time, and the answer is `true`
only when the exporter's `forceFlush` has succeeded as well. -/
lemma Account.worker {a : WorkerAct ι α} (hexp : P.exporter = true) (hr : (system ι P).Run h s)
    (hs : step P s (.worker a) = some s') (hA : Account h s.sh s.worker) :
    Account (h ++ [.worker a]) s'.sh s'.worker := by
  obtain ⟨hsource, hg, hs'⟩ := step_worker_iff.mp hs
  have hworker : s'.worker = (workerCommand P a).target := by rw [hs']
  rw [hsource] at hA
  rw [hworker]
  cases a with
  | dequeueRequest site any caller id =>
    exact ⟨h, any, caller, [], rfl, by simp, rfl, by simp [exportAnswers]⟩
  | callExport popSite batch =>
    cases popSite with
    | ready drainPartial => trivial
    | drain site ok any =>
      cases site with
      | shutdown => trivial
      | request site id => exact InService.callExport hA
  | exportReturn popSite batch result =>
    cases popSite with
    | ready drainPartial => trivial
    | drain site ok any =>
      cases site with
      | shutdown => trivial
      | request site id => exact InService.exportReturn hA
  | popLoad popSite count =>
    have hquiet := PopSite.Account.quiet (a := Act.worker (.popLoad popSite count)) hA rfl
    simp only [workerCommand]
    split_ifs
    · cases popSite <;> exact hquiet
    · exact hquiet
  | popBatch popSite batch => exact PopSite.Account.quiet hA rfl
  | popNone popSite =>
    have hquiet := PopSite.Account.quiet (a := Act.worker (.popNone popSite)) hA rfl
    cases popSite <;> exact hquiet
  | popRelease popSite batch =>
    simp only [workerCommand, hexp, if_true]
    exact PopSite.Account.quiet hA rfl
  | drainClock site ok value =>
    cases value with
    | true => exact DrainSite.Account.quiet hA rfl
    | false =>
      cases site with
      | shutdown => trivial
      | request site id =>
        refine ⟨InService.quiet hA rfl, Or.inr ?_⟩
        have hlate : ¬s.sh.now ≤ (s.sh.requests id).deadline :=
          of_decide_eq_false (beq_iff_eq.mp hg)
        rw [hs']
        exact lt_of_not_ge hlate
  | drainEmpty site ok any value =>
    cases value with
    | true =>
      cases site with
      | shutdown => trivial
      | request site id =>
        refine ⟨InService.quiet hA rfl, Or.inl (Drained.concat ?_)⟩
        exact drained_of_empty hexp hr (beq_iff_eq.mp (beq_iff_eq.mp hg)) (by rw [hsource]; rfl)
          (by rw [hsource]; rfl)
    | false =>
      cases any <;> exact DrainSite.Account.quiet hA rfl
  | drainAcquire site ok => exact DrainSite.Account.quiet hA rfl
  | drainTimeout site ok => exact DrainSite.Account.quiet hA rfl
  | drainClear site ok => exact DrainSite.Account.quiet hA rfl
  | drainResult site ok value =>
    cases site with
    | shutdown => trivial
    | request site id =>
      obtain ⟨hS, hdrained⟩ := hA
      simp only [workerCommand, DrainSite.afterDrain, hexp, if_true]
      refine ⟨(hS.weaken fun hboth => (Bool.and_eq_true_iff.mp hboth).1).quiet rfl, fun hboth => ?_⟩
      have hvalue : value = true := (Bool.and_eq_true_iff.mp hboth).2
      have hintime : s.sh.now ≤ (s.sh.requests id).deadline := by
        rw [hvalue] at hg
        exact of_decide_eq_true (beq_iff_eq.mp hg)
      exact (hdrained.resolve_right (not_lt.mpr hintime)).concat
  | callFlush site id ok remaining =>
    exact ⟨⟨h, remaining, [], rfl, hA.1, rfl⟩, fun hok => (hA.2 hok).concat⟩
  | flushReturn site id ok answer =>
    intro hboth
    obtain ⟨hanswer, hok⟩ := Bool.and_eq_true_iff.mp hboth
    subst hanswer hok
    obtain ⟨⟨pre, remaining, d, rfl, hS, hnone⟩, hdrained⟩ := hA
    refine ⟨⟨pre, remaining, d ++ [.worker (.flushReturn site id true true)], by simp, hS, ?_, ?_⟩,
      (hdrained rfl).concat⟩
    · rw [exportCalls_append, hnone]
      rfl
    · exact List.mem_append_right _ (List.mem_singleton.mpr rfl)
  | noRequest site any =>
    cases site with
    | head elapsed requested =>
      simp only [workerCommand, FlushSite.afterRequests, ordinaryDrain]
      split_ifs <;> trivial
    | drained ok => trivial
    | exitTest ok =>
      simp only [workerCommand, FlushSite.afterRequests]
      split_ifs <;> trivial
  | _ =>
    simp only [workerCommand]
    (try split_ifs) <;> trivial

/-! ### The answer -/

omit [Fintype ι] in
/-- The flag `ok` of a request is set by the worker only. -/
lemma ok_of_step {a : Act ι α} (hs : step P s a = some s')
    (hok : (s'.sh.requests request).ok = true) :
    (s.sh.requests request).ok = true ∨ ∃ site, a = .worker (.storeOk site request true) := by
  rcases a with ⟨t, a⟩ | ⟨t, a⟩ | ⟨t, a⟩ | a | now
  · exact Or.inl ((onEnd_frame hs).requests ▸ hok)
  · obtain ⟨-, hg, rfl⟩ := step_forceFlush_iff.mp hs
    rcases a with _ | _ | _ | _ | ⟨timeout, r⟩ | ⟨_, _ | _⟩ | _ | _ | _ | _ | _ | _ | _ | r | _ | _
    case create =>
      simp only [forceFlushCommand] at hok
      by_cases heq : request = r
      · rw [heq, Function.update_self] at hok
        cases hok
      · rw [Function.update_of_ne heq] at hok
        exact Or.inl hok
    case acquireDone =>
      simp only [forceFlushCommand] at hok
      by_cases heq : request = r
      · rw [heq, Function.update_self] at hok
        exact Or.inl (heq ▸ hok)
      · rw [Function.update_of_ne heq] at hok
        exact Or.inl hok
    all_goals exact Or.inl hok
  · exact Or.inl ((shutdown_frame hs).requests ▸ hok)
  · obtain ⟨-, -, rfl⟩ := step_worker_iff.mp hs
    cases a with
    | storeOk site r answer =>
      simp only [workerCommand] at hok
      by_cases heq : request = r
      · subst heq
        rw [Function.update_self] at hok
        obtain rfl : answer = true := hok
        exact Or.inr ⟨site, rfl⟩
      · rw [Function.update_of_ne heq] at hok
        exact Or.inl hok
    | releaseDone site r =>
      simp only [workerCommand] at hok
      by_cases heq : request = r
      · rw [heq, Function.update_self] at hok
        exact Or.inl (heq ▸ hok)
      · rw [Function.update_of_ne heq] at hok
        exact Or.inl hok
    | _ => exact Or.inl hok
  · obtain ⟨-, rfl⟩ := step_tick_iff.mp hs
    exact Or.inl hok

/-- In every reachable state the account of the worker holds. -/
theorem account_of_run (hexp : P.exporter = true) (hr : (system ι P).Run h s) :
    Account h s.sh s.worker := by
  induction hr using run_induction_worker with
  | nil => trivial
  | outside h s s' a hr hs hother hf ih =>
    have hquiet : quietStep a = true := by
      cases a with
      | worker b => exact absurd rfl (hother b)
      | _ => rfl
    exact ih.quiet hr hs hf.worker hquiet
  | worker h s s' a hr hs ih => exact ih.worker hexp hr hs

/-- A request whose flag `ok` is set was served successfully, and what was accepted before its
creation has been handed to the exporter. -/
theorem answered_of_run (hexp : P.exporter = true) (hr : (system ι P).Run h s)
    (hok : (s.sh.requests request).ok = true) : ServedOk request h ∧ Drained request h := by
  induction hr using run_induction_step with
  | nil => cases hok
  | concat h a s s' hr hs ih =>
    rcases ok_of_step hs hok with hold | ⟨site, rfl⟩
    · exact ⟨(ih hold).1.concat, (ih hold).2.concat⟩
    · have haccount := account_of_run hexp hr
      rw [(step_worker_iff.mp hs).1] at haccount
      obtain ⟨hflushed, hdrained⟩ := haccount rfl
      exact ⟨⟨site, h, [], rfl, hflushed⟩, hdrained.concat⟩

/-! ### The barrier -/

/-- The request a caller of `forceFlush` has created in its current call. -/
def CallerPc.ownRequest : CallerPc α → Option ℕ
  | .forceFlush (.enqueue r) | .forceFlush (.leave (.queued r))
  | .forceFlush (.leaveLoad (.queued r)) | .forceFlush (.leaveStore (.queued r))
  | .forceFlush (.leaveRelease (.queued r)) | .forceFlush (.notifyStore r)
  | .forceFlush (.notifyRelease r) | .forceFlush (.awaitDone r) | .forceFlush (.loadOk r) => some r
  | _ => none

omit [DecidableEq α] in
lemma ownRequest_next (exit : FlushExit) : (exit.next : CallerPc α).ownRequest =
    (CallerPc.forceFlush (.leave exit) : CallerPc α).ownRequest := by
  cases exit <;> rfl

omit [DecidableEq α] in
/-- Only a caller of `forceFlush` has a request. -/
lemma forceFlush_of_ownRequest {pc : CallerPc α} (hown : pc.ownRequest = some request) :
    ∃ p, pc = .forceFlush p := by
  cases pc with
  | forceFlush p => exact ⟨p, rfl⟩
  | _ => cases hown

omit [DecidableEq ι] [DecidableEq α] [Fintype ι] in
/-- A caller has a request because it has created it, and keeps it until its call returns. -/
lemma ownRequest_forceFlush {a : ForceFlushAct}
    (hrequest : (forceFlushCommand (ι := ι) (α := α) t a).target.ownRequest = some request) :
    (forceFlushCommand (ι := ι) (α := α) t a).source.ownRequest = some request ∨
      ∃ timeout, a = .create timeout request := by
  rcases a with _ | _ | _ | _ | ⟨timeout, r⟩ | ⟨_, _ | _⟩ | ⟨exit, _⟩ | ⟨exit, _⟩ | exit | exit |
    _ | _ | _ | _ | _ | _
  case create =>
    obtain rfl : r = request := Option.some_inj.mp hrequest
    exact Or.inr ⟨timeout, rfl⟩
  all_goals
    simp only [forceFlushCommand] at hrequest ⊢
    (try split_ifs at hrequest) <;> (try rw [ownRequest_next] at hrequest) <;>
      (try cases exit) <;> first | exact Or.inl hrequest | cases hrequest

omit [Fintype ι] in
/-- A request held in the current call was created since the call began. -/
lemma createdCount_of_held {timeout : ℤ}
    (hr : (system ι P).Run ((h₀ ++ [.forceFlush t (.call timeout)]) ++ h₁) s)
    (hheld : (s.pc t).ownRequest = some request) : 1 ≤ createdCount request h₁ := by
  induction hr using Lts.run_induction_from with
  | nil s hr =>
    rw [List.append_nil] at hr
    obtain ⟨s₀, -, hs₀⟩ := run_step_iff.mp hr
    obtain ⟨-, -, rfl⟩ := step_forceFlush_iff.mp hs₀
    simp only [forceFlushCommand, Function.update_self] at hheld
    split_ifs at hheld <;> cases hheld
  | concat h a s s' hr hs ih =>
    replace hs : step P s a = some s' := hs
    have hold : (s.pc t).ownRequest = some request → 1 ≤ createdCount request (h ++ [a]) := by
      intro hheld
      rw [createdCount_append]
      exact (ih hheld).trans (Nat.le_add_right _ _)
    by_cases ha : a.caller = some t
    · obtain ⟨b, rfl⟩ := forceFlush_of_caller hs ha (Or.inr (forceFlush_of_ownRequest hheld))
      rw [Pool.threadStep_pc_self hs] at hheld
      rcases ownRequest_forceFlush hheld with hsource | ⟨timeout', rfl⟩
      · exact hold (by rw [(step_forceFlush_iff.mp hs).1]; exact hsource)
      · rw [createdCount_append]
        have hone : createdCount request
            [Act.forceFlush (α := α) t (.create timeout' request)] = 1 := by
          simp [createdCount]
        omega
    · exact hold (pc_of_caller_ne hs ha ▸ hheld)

/-- A call of `forceFlush` that found the processor running returns with the answer of its request.
If that is `true`, every span that was accepted before the call began has been handed to
`exportSpans`; and the request was served: every `exportSpans` call made while serving it
succeeded, and after all of them the exporter's `forceFlush` was called and succeeded. -/
theorem flush_barrier (hexp : P.exporter = true) {timeout : ℤ}
    (hr : (system ι P).Run
      (h₀ ++ .forceFlush t (.call timeout) :: (h₁ ++ [.forceFlush t (.loadOk request true)])) s) :
    (∀ t', accepted t' h₀ <+: exported t'
      (h₀ ++ .forceFlush t (.call timeout) :: (h₁ ++ [.forceFlush t (.loadOk request true)]))) ∧
      ServedOk request
        (h₀ ++ .forceFlush t (.call timeout) ::
          (h₁ ++ [.forceFlush t (.loadOk request true)])) := by
  have hsplit : h₀ ++ Act.forceFlush t (.call timeout) ::
      (h₁ ++ [.forceFlush t (.loadOk request true)]) =
      ((h₀ ++ [.forceFlush t (.call timeout)]) ++ h₁) ++
        [.forceFlush t (.loadOk request true)] := by
    simp
  rw [hsplit] at hr ⊢
  obtain ⟨s₀, hr₀, hs₀⟩ := (system ι P).run_concat_iff.mp hr
  replace hs₀ : step P s₀ (.forceFlush t (.loadOk request true)) = some s := hs₀
  obtain ⟨hpc, hok, -⟩ := step_forceFlush_iff.mp hs₀
  obtain ⟨hserved, pre, hpre, hcreated, hexported⟩ :=
    answered_of_run hexp hr₀ (beq_iff_eq.mp hok)
  refine ⟨fun t' => ?_, hserved.concat⟩
  -- the request is created once, and that was after the call began
  have hheld := createdCount_of_held hr₀ (by rw [hpc]; rfl)
  have honce := createdCount_eq_of_run hr₀ request
  rw [createdCount_append, createdCount_append] at honce
  have hle : (if request < s₀.sh.created then 1 else 0) ≤ 1 := by split_ifs <;> omega
  have hbefore : createdCount request h₀ = 0 := by omega
  have hlong : h₀ <+: pre := by
    have hh₀ : h₀ <+: (h₀ ++ [.forceFlush t (.call timeout)]) ++ h₁ := by
      rw [List.append_assoc]
      exact List.prefix_append _ _
    rcases List.prefix_or_prefix_of_prefix hh₀ hpre with hshort | ⟨rest, rfl⟩
    · exact hshort
    · rw [createdCount_append] at hbefore
      omega
  obtain ⟨rest, rfl⟩ := hlong
  rw [exported_append]
  refine List.IsPrefix.trans ?_ (List.prefix_append _ _)
  refine List.IsPrefix.trans ?_ (hexported t')
  rw [accepted_append]
  exact List.prefix_append _ _

/-- A producer has its span `5` accepted before another thread calls `forceFlush`. -/
def flushAfterPush_before : List (Act Thread ℕ) :=
  [.onEnd .t₁ (.call 5), .onEnd .t₁ (.fetchAdd 5 0), .onEnd .t₁ (.loadShutdown 5 0 false),
    .onEnd .t₁ (.enqueue 5 0 true)]

/-- The worker serves the request of the `forceFlush` call, up to the answer. -/
def flushAfterPush_served : List (Act Thread ℕ) :=
  [.forceFlush .t₂ (.announce 1), .forceFlush .t₂ (.loadShutdown 1 false),
    .forceFlush .t₂ (.loadStopped 1 false), .forceFlush .t₂ (.create 1 0),
    .forceFlush .t₂ (.enqueue 0 true), .forceFlush .t₂ (.leave (.queued 0) 1),
    .forceFlush .t₂ (.leaveLoad (.queued 0) false), .forceFlush .t₂ (.notifyStore 0),
    .forceFlush .t₂ (.notifyRelease 0), .worker .waitAcquire, .worker .clearPending,
    .worker (.loadShutdown false false), .worker (.dequeueRequest (.head false false) false .t₂ 0),
    .worker (.drainClock (.request (.head false false) 0) true true),
    .worker (.popLoad (.drain (.request (.head false false) 0) true false) 1),
    .worker (.popBatch (.drain (.request (.head false false) 0) true false) [(.t₁, 5)]),
    .worker (.popRelease (.drain (.request (.head false false) 0) true false) [(.t₁, 5)]),
    .worker (.callExport (.drain (.request (.head false false) 0) true false) [(.t₁, 5)]),
    .worker
      (.exportReturn (.drain (.request (.head false false) 0) true false) [(.t₁, 5)] .kSuccess),
    .worker (.popLoad (.drain (.request (.head false false) 0) true true) 0),
    .worker (.drainEmpty (.request (.head false false) 0) true true true),
    .worker (.drainResult (.request (.head false false) 0) true true),
    .worker (.callFlush (.head false false) 0 true 1),
    .worker (.flushReturn (.head false false) 0 true true),
    .worker (.storeOk (.head false false) 0 true), .worker (.releaseDone (.head false false) 0),
    .forceFlush .t₂ (.acquireDone 0)]

/-- The barrier at work: the span pushed before the call has been exported when it returns. -/
theorem flush_barrier_flushAfterPush :
    accepted .t₁ flushAfterPush_before <+: exported .t₁ (flushAfterPush_before ++
        .forceFlush .t₂ (.call 1) ::
          (flushAfterPush_served ++ [.forceFlush .t₂ (.loadOk 0 true)])) ∧
      ServedOk 0 (flushAfterPush_before ++ .forceFlush .t₂ (.call 1) ::
        (flushAfterPush_served ++ [.forceFlush .t₂ (.loadOk 0 true)])) := by
  obtain ⟨s, hr, -⟩ := Lts.exists_run_of_any (L := system Thread (smallProcessor .kTimed 2 1))
    (h := flushAfterPush_before ++
      .forceFlush .t₂ (.call 1) :: (flushAfterPush_served ++ [.forceFlush .t₂ (.loadOk 0 true)]))
    (p := fun _ => true) (by decide)
  exact ⟨(flush_barrier rfl hr).1 .t₁, (flush_barrier rfl hr).2⟩

end GalayTracing
