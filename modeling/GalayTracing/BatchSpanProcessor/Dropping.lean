import GalayTracing.BatchSpanProcessor.Conservation

/-!
# When a span is dropped

`tryPush` turns a span away when the size counter has reached the capacity.  The counter includes
the reservations of other pushes that are about to be turned away, so it can reach the capacity
while there is room in the queue: a refused push that has not yet withdrawn its reservation can
make the next push be refused as well, although the worker has emptied the queue in between
(`phantomDrop_not_full`).  When every refused push finds the counter at the capacity without
counting such reservations, a span is dropped only if the queue was full at some moment of its
call, `dropsOnlyWhenFull_of_run`.
-/

namespace GalayTracing

variable {ι α : Type} [DecidableEq ι] [DecidableEq α] [Fintype ι] {P : Processor α}
  {s s' : State ι α} {h : List (Act ι α)} {t : ι} {x : α}

/-- The label is the start of a call of `onEnd` by thread `t`. -/
def IsOnEndCall (t : ι) (a : Act ι α) : Prop := ∃ span, a = .onEnd t (.call span)

/-- Thread `t` is inside a call of `onEnd` that was given `x`. -/
def InCall (t : ι) (x : α) (h : List (Act ι α)) : Prop :=
  ∃ pre mid, h = pre ++ .onEnd t (.call x) :: mid ∧ ∀ a ∈ mid, ¬IsOnEndCall t a

/-- Thread `t` is inside a call of `onEnd` that was given `x`, and at some moment since the start
of the call the processor held as many spans as fit. -/
def FullDuringCall (P : Processor α) (t : ι) (x : α) (h : List (Act ι α)) : Prop :=
  ∃ pre mid mid' s, h = pre ++ .onEnd t (.call x) :: (mid ++ mid') ∧
    (∀ a ∈ mid ++ mid', ¬IsOnEndCall t a) ∧
    (system ι P).Run (pre ++ .onEnd t (.call x) :: mid) s ∧ held s = P.config.queueCapacity

/-- Whenever a call of `onEnd` increments `droppedSpans`, there is a moment between the start and
the end of that call at which the processor holds as many spans as fit. -/
def DropsOnlyWhenFull (P : Processor α) (h : List (Act ι α)) : Prop :=
  ∀ before t x after, h = before ++ .onEnd t (.drop x) :: after → FullDuringCall P t x before

/-- A push is turned away only when the counter has reached the capacity without the reservations
of the pushes that were turned away before it. -/
def turnedAwayWhenFull (P : Processor α) (s : State ι α) : Act ι α → Bool
  | .onEnd _ (.fetchAdd _ previous) => decide (previous < P.config.queueCapacity) ||
    decide (P.config.queueCapacity + poolSum CallerPc.phantoms s.pc ≤ previous)
  | _ => true

/-- The label is not a failing `enqueue` of the span queue. -/
def enqueueSucceeds : Act ι α → Bool
  | .onEnd _ (.enqueue _ _ success) => success
  | _ => true

/-! ### The account of one call -/

omit [DecidableEq ι] [DecidableEq α] [Fintype ι] in
/-- A call goes on while its thread starts no other. -/
lemma InCall.concat {a : Act ι α} (hc : InCall t x h) (ha : ¬IsOnEndCall t a) :
    InCall t x (h ++ [a]) := by
  obtain ⟨pre, mid, rfl, hmid⟩ := hc
  refine ⟨pre, mid ++ [a], by simp, ?_⟩
  intro b hb
  rcases List.mem_append.mp hb with hb | hb
  · exact hmid b hb
  · rw [List.mem_singleton.mp hb]
    exact ha

/-- The moment at which the queue was full stays in the past of the call. -/
lemma FullDuringCall.concat {a : Act ι α} (hc : FullDuringCall P t x h)
    (ha : ¬IsOnEndCall t a) : FullDuringCall P t x (h ++ [a]) := by
  obtain ⟨pre, mid, mid', s₀, rfl, hmid, hr, hfull⟩ := hc
  refine ⟨pre, mid, mid' ++ [a], s₀, by simp, ?_, hr, hfull⟩
  intro b hb
  rw [← List.append_assoc] at hb
  rcases List.mem_append.mp hb with hb | hb
  · exact hmid b hb
  · rw [List.mem_singleton.mp hb]
    exact ha

/-- When the queue is full now, it was full during the call. -/
lemma InCall.full (hc : InCall t x h) (hr : (system ι P).Run h s)
    (hfull : held s = P.config.queueCapacity) : FullDuringCall P t x h := by
  obtain ⟨pre, mid, rfl, hmid⟩ := hc
  exact ⟨pre, mid, [], s, by simp, by simpa using hmid, hr, hfull⟩

/-- What is known of a thread inside `onEnd` in a run without failing `enqueue`: its call has
begun, and the queue was full during the call if its span is to be dropped. -/
def CallAccount (P : Processor α) (h : List (Act ι α)) (t : ι) : CallerPc α → Prop
  | .onEnd (.fetchAdd x) => InCall t x h
  | .onEnd (.fullSub x) | .onEnd (.drop x) => FullDuringCall P t x h
  | .onEnd (.failedSub _) => False
  | _ => True

/-- The account of a thread is kept by every step that is not a new call of it. -/
lemma CallAccount.concat {a : Act ι α} {p : CallerPc α} (hc : CallAccount P h t p)
    (ha : ¬IsOnEndCall t a) : CallAccount P (h ++ [a]) t p := by
  rcases p with _ | p | _ | _
  · trivial
  · cases p with
    | fetchAdd x => exact InCall.concat hc ha
    | fullSub x => exact FullDuringCall.concat hc ha
    | drop x => exact FullDuringCall.concat hc ha
    | failedSub x => exact hc
    | _ => trivial
  all_goals trivial

/-- Outside `onEnd` there is nothing to account for. -/
lemma callAccount_of_not_onEnd {p : CallerPc α}
    (hp : p = .idle ∨ (∃ q, p = .forceFlush q) ∨ ∃ q, p = .shutdown q) :
    CallAccount P h t p := by
  obtain rfl | ⟨q, rfl⟩ | ⟨q, rfl⟩ := hp <;> trivial

/-- An operation of `onEnd` keeps the account of its thread: a push that is turned away in a full
queue sees it full during its call. -/
lemma callAccount_onEnd {a : OnEndAct α} (hr : (system ι P).Run h s)
    (hs : step P s (.onEnd t a) = some s') (hturned : turnedAwayWhenFull P s (.onEnd t a) = true)
    (hsucceeds : enqueueSucceeds (Act.onEnd t a) = true) (hc : CallAccount P h t (s.pc t)) :
    CallAccount P (h ++ [.onEnd t a]) t (onEndCommand P t a).target := by
  obtain ⟨hpc, hg, -⟩ := step_onEnd_iff.mp hs
  rw [hpc] at hc
  have hnot : (∀ span, a ≠ .call span) → ¬IsOnEndCall t (.onEnd t a) := by
    rintro hne ⟨span, heq⟩
    cases heq
    exact hne span rfl
  cases a with
  | call span =>
    simp only [onEndCommand]
    split_ifs
    · exact ⟨h, [], rfl, by simp⟩
    · trivial
  | fetchAdd span previous =>
    have hcall : InCall t span h := hc
    have hsize : s.sh.size = previous := beq_iff_eq.mp hg
    simp only [onEndCommand]
    split_ifs with hcap
    · have hledger := ledger_of_run hr
      have hroom : P.config.queueCapacity + poolSum CallerPc.phantoms s.pc ≤ previous := by
        rcases Bool.or_eq_true_iff.mp hturned with hlt | hroom
        · exact absurd (of_decide_eq_true hlt) (Nat.not_lt.mpr hcap)
        · exact of_decide_eq_true hroom
      have hfull : held s = P.config.queueCapacity := by
        have := hledger.size_eq
        have := hledger.held_le
        omega
      exact (hcall.full hr hfull).concat (hnot fun _ hne => by cases hne)
    · trivial
  | fullSub span => exact FullDuringCall.concat hc (hnot fun _ hne => by cases hne)
  | failedSub span => exact absurd hc not_false
  | enqueue span previous success =>
    cases success with
    | true =>
      simp only [onEndCommand]
      split_ifs <;> trivial
    | false => cases hsucceeds
  | _ =>
    simp only [onEndCommand]
    (try split_ifs) <;> trivial

/-- In a run in which no `enqueue` fails and pushes are turned away only when the queue is full,
the account of every thread holds. -/
lemma callAccount_of_run (hr : (system ι P).Run h s) (hsucceeds : ∀ a ∈ h, enqueueSucceeds a = true)
    (hc : (system ι P).StepsMeet (turnedAwayWhenFull P) h) :
    ∀ t, CallAccount P h t (s.pc t) := by
  have hboth := hc.and (Lts.stepsMeet_of_forall_mem hsucceeds)
  clear hc hsucceeds
  induction hr, hboth using run_induction_where with
  | nil hboth => exact fun _ => trivial
  | onEnd h s s' t a hr hs hboth hC ih =>
    obtain ⟨hturned, hsucceeds⟩ := Bool.and_eq_true_iff.mp hC
    rw [onEnd_pc_eq hs]
    refine forall_update (I := CallAccount P (h ++ [.onEnd t a])) (fun t' ht => ?_) ?_
    · refine (ih t').concat ?_
      rintro ⟨span, heq⟩
      cases heq
      exact ht rfl
    · exact callAccount_onEnd hr hs hturned hsucceeds (ih t)
  | forceFlush h s s' t a hr hs hboth hC ih =>
    intro t'
    by_cases ht : t' = t
    · subst ht
      exact callAccount_of_not_onEnd ((forceFlush_pc hs).2.imp_right Or.inl)
    · rw [(forceFlush_frame hs).others t' ht]
      exact (ih t').concat (by rintro ⟨span, ⟨⟩⟩)
  | shutdown h s s' t a hr hs hboth hC ih =>
    intro t'
    by_cases ht : t' = t
    · subst ht
      exact callAccount_of_not_onEnd ((shutdown_pc hs).2.imp_right Or.inr)
    · rw [(shutdown_frame hs).others t' ht]
      exact (ih t').concat (by rintro ⟨span, ⟨⟩⟩)
  | worker h s s' a hr hs hboth hC ih =>
    intro t'
    rw [(worker_frame hs).pc]
    exact (ih t').concat (by rintro ⟨span, ⟨⟩⟩)
  | tick h s s' now hr hs hboth hC ih =>
    intro t'
    obtain ⟨-, rfl⟩ := step_tick_iff.mp hs
    exact (ih t').concat (by rintro ⟨span, ⟨⟩⟩)

/-- In a run in which no `enqueue` fails and pushes are turned away only when the counter has
reached the capacity without the reservations of refused pushes, a span is dropped only when the
queue was full at some moment of its call. -/
theorem dropsOnlyWhenFull_of_run (hr : (system ι P).Run h s)
    (hsucceeds : ∀ a ∈ h, enqueueSucceeds a = true)
    (hc : (system ι P).StepsMeet (turnedAwayWhenFull P) h) : DropsOnlyWhenFull P h := by
  rintro before t x after rfl
  have hsplit : (system ι P).Run ((before ++ [.onEnd t (.drop x)]) ++ after) s := by simpa using hr
  obtain ⟨s₁, hr₁⟩ := hsplit.of_append
  obtain ⟨s₀, hr₀, hs₀⟩ := (system ι P).run_concat_iff.mp hr₁
  have hpc : s₀.pc t = .onEnd (.drop x) := (step_onEnd_iff.mp hs₀).1
  have haccount := callAccount_of_run hr₀
    (fun a ha => hsucceeds a (List.mem_append_left _ ha)) hc.of_append t
  rw [hpc] at haccount
  exact haccount

/-- A push that finds the queue full, in a run that meets the condition. -/
theorem dropsOnlyWhenFull_raceForOnePlace :
    DropsOnlyWhenFull (smallProcessor .kOnEnd 1 1) raceForOnePlace := by
  obtain ⟨s, hr, -⟩ := Lts.exists_run_of_any (L := system Thread (smallProcessor .kOnEnd 1 1))
    (h := raceForOnePlace) (p := fun _ => true) (by decide)
  exact dropsOnlyWhenFull_of_run hr (by decide) (by decide)

/-- The span `5` fills the queue and the push of `6` is refused; before it withdraws its
reservation the worker empties the queue, and then `7` is refused and dropped. -/
def phantomDrop : List (Act Thread ℕ) :=
  [.onEnd .t₁ (.call 5), .onEnd .t₁ (.fetchAdd 5 0), .onEnd .t₁ (.loadShutdown 5 0 false),
    .onEnd .t₁ (.enqueue 5 0 true), .onEnd .t₂ (.call 6), .onEnd .t₂ (.fetchAdd 6 1),
    .worker .waitTimeout, .worker (.loadShutdown true false),
    .worker (.noRequest (.head true false) false), .worker (.readyCount true 2),
    .worker (.popLoad (.ready true) 2), .worker (.popBatch (.ready true) [(.t₁, 5)]),
    .worker (.popRelease (.ready true) [(.t₁, 5)]), .onEnd .t₁ (.call 7),
    .onEnd .t₁ (.fetchAdd 7 1), .onEnd .t₁ (.fullSub 7), .onEnd .t₁ (.drop 7)]

/-- The moment at which the queue was full is reached by a part of the history that contains the
start of the call. -/
lemma FullDuringCall.exists_take (hc : FullDuringCall P t x h) :
    ∃ n ≤ h.length, Act.onEnd t (.call x) ∈ h.take n ∧
      ∃ s, (system ι P).Run (h.take n) s ∧ held s = P.config.queueCapacity := by
  obtain ⟨pre, mid, mid', s, rfl, -, hr, hfull⟩ := hc
  have htake : (pre ++ Act.onEnd t (.call x) :: (mid ++ mid')).take
      (pre ++ Act.onEnd t (.call x) :: mid).length = pre ++ .onEnd t (.call x) :: mid := by
    rw [← List.cons_append, ← List.append_assoc, List.take_left]
  refine ⟨(pre ++ Act.onEnd t (.call x) :: mid).length, by simp, ?_⟩
  rw [htake]
  exact ⟨by simp, s, hr, hfull⟩

/-- Before any shutdown request and without a failing `enqueue`, a span is dropped although the
queue is not full at any moment of its call. -/
theorem phantomDrop_not_full :
    ∃ s, (system Thread (smallProcessor .kTimed 1 1)).Run phantomDrop s ∧
      s.sh.shutdownRequested = false ∧ (∀ a ∈ phantomDrop, enqueueSucceeds a = true) ∧
      ¬DropsOnlyWhenFull (smallProcessor .kTimed 1 1) phantomDrop := by
  obtain ⟨s, hr, hs⟩ := Lts.exists_run_of_any (L := system Thread (smallProcessor .kTimed 1 1))
    (h := phantomDrop) (p := fun s => !s.sh.shutdownRequested) (by decide)
  refine ⟨s, hr, by simpa using hs, by decide, fun hdrops => ?_⟩
  obtain ⟨n, hn, hmem, s', hr', hfull⟩ :=
    (hdrops (phantomDrop.take 16) .t₁ 7 [] rfl).exists_take
  have hnever : ∀ n ≤ 16, Act.onEnd .t₁ (.call 7) ∈ (phantomDrop.take 16).take n →
      ((system Thread (smallProcessor .kTimed 1 1)).exec initial
        ((phantomDrop.take 16).take n)).all (fun s => decide (held s ≠ 1)) = true := by
    decide +kernel
  have hne := (Option.all_eq_true _ _).mp (hnever n hn hmem) s' hr'
  exact of_decide_eq_true hne hfull

end GalayTracing
