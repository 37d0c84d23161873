import BotsterHub.Lib.Machine
import Mathlib.Algebra.Group.Nat.Defs
import Mathlib.Order.MinMax
import Mathlib.Order.Nat

/-!
When the provider of a package family is asked for its entities again: at once, then with a
growing backoff, at most eight times a cycle and twice a second. Times are in nanoseconds; leases
are left out.
-/

namespace BotsterHub.Entity

open List

def second : ℕ := 10 ^ 9

def resyncInitialBackoff : ℕ := 50 * 10 ^ 6

def resyncMaxBackoff : ℕ := 2 * second

def resyncMaxAttempts : ℕ := 8

def resyncMaxPerSecond : ℕ := 2

structure ResyncState where
  needed : Bool := false
  nextEligibleAt : ℕ := 0
  attempts : ℕ := 0
  lastAttemptAt : Option ℕ := none
  attemptTimes : List ℕ := []
  degraded : Bool := false
  deriving DecidableEq

namespace ResyncState

variable (s : ResyncState) (now : ℕ)

def markNeeded : ResyncState :=
  if s.degraded then s
  else if s.needed then s
  else { s with needed := true, nextEligibleAt := now, attempts := 0, attemptTimes := [] }

def pruneAttemptTimes : ResyncState :=
  { s with attemptTimes := s.attemptTimes.dropWhile fun time => second ≤ now - time }

def rearm : ResyncState :=
  { s with degraded := false, needed := true, nextEligibleAt := now, attempts := 0 }
    |>.pruneAttemptTimes now

def clearNeeded : ResyncState :=
  { s with needed := false, attempts := 0, attemptTimes := [], lastAttemptAt := none }

def clearDegradedOnProgress : ResyncState := { s with degraded := false }

def attemptsInLastSecond : ℕ := s.attemptTimes.countP fun time => now - time < second

def canAttempt : Bool :=
  s.needed && s.nextEligibleAt ≤ now && s.attemptsInLastSecond now < resyncMaxPerSecond

def nextAttemptAt : Option ℕ :=
  if !s.needed || s.degraded then none
  else match s.attemptTimes.reverse[resyncMaxPerSecond - 1]? with
    | some time => some (max s.nextEligibleAt (time + second))
    | none => some s.nextEligibleAt

def recordAttempt : ResyncState :=
  let attempts := min (s.attempts + 1) (2 ^ 32 - 1)
  let backoff := min (resyncInitialBackoff * 2 ^ min (attempts - 1) 6) resyncMaxBackoff
  let giveUp := resyncMaxAttempts ≤ attempts
  { s with
    attempts
    lastAttemptAt := some now
    attemptTimes := s.attemptTimes ++ [now]
    nextEligibleAt := now + backoff
    degraded := s.degraded || giveUp
    needed := s.needed && !giveUp }
    |>.pruneAttemptTimes now

end ResyncState

inductive ResyncOp where
  | markNeeded
  | rearm
  | clearNeeded
  | clearDegradedOnProgress
  | attempt

structure ResyncHistory where
  state : ResyncState := {}
  clock : ℕ := 0
  log : List ℕ := []

def ResyncHistory.step (s : ResyncHistory) (input : ℕ × ResyncOp) : Option ResyncHistory :=
  let now := input.1
  if now < s.clock then none
  else match input.2 with
  | .markNeeded => some ⟨s.state.markNeeded now, now, s.log⟩
  | .rearm => some ⟨s.state.rearm now, now, s.log⟩
  | .clearNeeded => some ⟨s.state.clearNeeded, now, s.log⟩
  | .clearDegradedOnProgress => some ⟨s.state.clearDegradedOnProgress, now, s.log⟩
  | .attempt =>
    if s.state.canAttempt now then some ⟨s.state.recordAttempt now, now, s.log ++ [now]⟩ else none

def ResyncHistory.inWindow (s : ResyncHistory) (start : ℕ) : ℕ :=
  s.log.countP fun time => start ≤ time && time < start + second

def Remembers (s : ResyncHistory) : ℕ × ResyncOp → Prop
  | (now, .markNeeded) =>
    s.state.degraded = true ∨ s.state.needed = true ∨ ∀ time ∈ s.log, time + second ≤ now
  | (now, .clearNeeded) => ∀ time ∈ s.log, time + second ≤ now
  | _ => True

instance (s : ResyncHistory) : (input : ℕ × ResyncOp) → Decidable (Remembers s input)
  | (now, .markNeeded) => inferInstanceAs (Decidable (_ ∨ _ ∨ ∀ time ∈ s.log, time + second ≤ now))
  | (now, .clearNeeded) => inferInstanceAs (Decidable (∀ time ∈ s.log, time + second ≤ now))
  | (_, .rearm) | (_, .clearDegradedOnProgress) | (_, .attempt) => .isTrue trivial

structure Limited (s : ResyncHistory) : Prop where
  past : ∀ time ∈ s.log, time ≤ s.clock
  kept : ∀ now ≥ s.clock, (s.state.attemptTimes.countP fun time => now - time < second) =
    s.log.countP fun time => now - time < second
  bound : ∀ start, s.inWindow start ≤ resyncMaxPerSecond

theorem limited_new : Limited {} where
  past := nofun
  kept := fun _ _ => rfl
  bound := fun _ => Nat.zero_le _

theorem countP_pruneAttemptTimes (s : ResyncState) (h : now ≤ l) :
    ((s.pruneAttemptTimes now).attemptTimes.countP fun time => l - time < second) =
      s.attemptTimes.countP fun time => l - time < second := by
  unfold ResyncState.pruneAttemptTimes
  induction s.attemptTimes with
  | nil => rfl
  | cons _ _ ih =>
    rw [dropWhile_cons]
    split
    · next hold =>
      rw [ih, countP_cons_of_neg]
      simp only [decide_eq_true_eq] at hold ⊢
      omega
    · rfl

section

variable {s : ResyncHistory} {now : ℕ} (h : Limited s) (hnow : s.clock ≤ now)
include h hnow

theorem Limited.later
    (hk : ∀ later ≥ now, (state.attemptTimes.countP fun time => later - time < second) =
      s.log.countP fun time => later - time < second) : Limited ⟨state, now, s.log⟩ where
  past := fun time hm => (h.past time hm).trans hnow
  kept := hk
  bound := h.bound

theorem Limited.attempt (hc : s.state.canAttempt now) :
    Limited ⟨s.state.recordAttempt now, now, s.log ++ [now]⟩ where
  past := by
    simp only [mem_append, mem_singleton, or_imp, forall_and, forall_eq]
    exact ⟨fun time hm => (h.past time hm).trans hnow, le_rfl⟩
  kept := by
    intro l hl
    refine (countP_pruneAttemptTimes _ hl).trans ?_
    rw [countP_append, countP_append, h.kept l (hnow.trans hl)]
  bound := by
    intro start
    have hb := h.bound start
    unfold ResyncHistory.inWindow at hb ⊢
    rw [countP_append, countP_singleton]
    split
    · next hin =>
      -- what the window had before counts at `now`, and at most one attempt does
      have hf : s.state.attemptsInLastSecond now < resyncMaxPerSecond := by
        simpa using (Bool.and_eq_true_iff.mp hc).2
      rw [ResyncState.attemptsInLastSecond, h.kept now hnow] at hf
      refine Nat.succ_le_of_lt (Nat.lt_of_le_of_lt (countP_mono_left ?_) hf)
      intro time _ hw
      simp only [Bool.and_eq_true, decide_eq_true_eq] at hin hw ⊢
      omega
    · exact hb

end

theorem countP_log_eq_zero {log : List ℕ} {now l : ℕ} (h : ∀ time ∈ log, time + second ≤ now)
    (hl : now ≤ l) : (log.countP fun time => l - time < second) = 0 := by
  refine countP_eq_zero.mpr fun time hm => ?_
  have hold := h time hm
  simp only [decide_eq_true_eq]
  omega

theorem Limited.step {s s' : ResyncHistory} {i : ℕ × ResyncOp} (h : Limited s)
    (hg : Remembers s i) (hs : s.step i = some s') : Limited s' := by
  obtain ⟨now, op⟩ := i
  obtain ⟨hc, hs⟩ := Option.ite_none_left_eq_some.mp hs
  have hnow : s.clock ≤ now := Nat.le_of_not_lt hc
  have hk (l) (hl : l ≥ now) := h.kept l (hnow.trans hl)
  cases op with
  | markNeeded =>
    cases hs
    refine h.later hnow fun l hl => ?_
    unfold ResyncState.markNeeded
    split
    · exact hk l hl
    next hd =>
    split
    · exact hk l hl
    next hn =>
    have hold := (hg.resolve_left hd).resolve_left hn
    exact (countP_log_eq_zero hold hl).symm
  | rearm =>
    cases hs
    refine h.later hnow fun l hl => ?_
    exact (countP_pruneAttemptTimes _ hl).trans (hk l hl)
  | clearNeeded =>
    cases hs
    exact h.later hnow fun l hl => (countP_log_eq_zero hg hl).symm
  | clearDegradedOnProgress =>
    cases hs
    exact h.later hnow hk
  | attempt =>
    obtain ⟨hcan, hs⟩ := Option.ite_none_right_eq_some.mp hs
    cases hs
    exact h.attempt hnow hcan

/-- As long as no operation forgets an attempt of the last second, no second has more than two. -/
theorem attempts_in_second_le {ops : List (ℕ × ResyncOp)} {s : ResyncHistory}
    (halong : Machine.Along ResyncHistory.step Remembers {} ops)
    (hrun : ops.foldlM ResyncHistory.step {} = some s) (start : ℕ) :
    s.inWindow start ≤ resyncMaxPerSecond :=
  (Machine.run_along (fun _ _ _ h => h.step) halong limited_new hrun).bound start

/-- The need is met and raised again when the attempts before are a second old. -/
theorem two_attempts_in_second :
    ∃ s, [(0, .markNeeded), (0, .attempt), (resyncInitialBackoff, .attempt),
        (2 * second, .clearNeeded), (2 * second, .markNeeded), (2 * second, .attempt)].foldlM
      ResyncHistory.step {} = some s ∧ ∀ start, s.inWindow start ≤ resyncMaxPerSecond :=
  Exists.imp (fun _ hrun => ⟨hrun, attempts_in_second_le (by decide +kernel) hrun⟩) ⟨_, rfl⟩

/-- The need is met and raised again between the second attempt and the third. -/
theorem three_attempts_in_second :
    ∃ s, [(0, .markNeeded), (0, .attempt), (resyncInitialBackoff, .attempt),
        (resyncInitialBackoff, .clearNeeded), (resyncInitialBackoff, .rearm),
        (resyncInitialBackoff, .attempt)].foldlM ResyncHistory.step {} = some s ∧
      resyncMaxPerSecond < s.inWindow 0 :=
  ⟨_, rfl, by decide⟩

namespace ResyncState

def apply (s : ResyncState) (now : ℕ) : ResyncOp → ResyncState
  | .markNeeded => s.markNeeded now
  | .rearm => s.rearm now
  | .clearNeeded => s.clearNeeded
  | .clearDegradedOnProgress => s.clearDegradedOnProgress
  | .attempt => s.recordAttempt now

def applyAll (s : ResyncState) (ops : List (ℕ × ResyncOp)) : ResyncState :=
  ops.foldl (fun s op => s.apply op.1 op.2) s

inductive Reaches : ℕ → ResyncState → Prop
  | new : Reaches 0 {}
  | step {clock now : ℕ} {s : ResyncState} (h : Reaches clock s) (hnow : clock ≤ now)
      (op : ResyncOp) : Reaches now (s.apply now op)

def Cycle : ResyncState → List (ℕ × ResyncOp) → Prop
  | _, [] => True
  | s, (now, op) :: ops =>
    s.needed = true ∧ op ≠ .rearm ∧ op ≠ .clearNeeded ∧ Cycle (s.apply now op) ops

def attemptsIn (ops : List (ℕ × ResyncOp)) : ℕ := ops.countP fun op => op.2 matches .attempt

structure Scheduled (clock : ℕ) (s : ResyncState) : Prop where
  ordered : s.attemptTimes.Pairwise (· ≤ ·)
  past : ∀ time ∈ s.attemptTimes, time ≤ clock
  degraded : s.degraded = true → s.needed = false
  attempts : s.needed = true → s.attempts < resyncMaxAttempts

variable {s : ResyncState} {clock now : ℕ}

theorem Scheduled.prune (h : Scheduled now s) : Scheduled now (s.pruneAttemptTimes now) :=
  { h with
    ordered := h.ordered.sublist (dropWhile_sublist _)
    past := fun time hm => h.past time ((dropWhile_sublist _).subset hm) }

theorem Scheduled.step (h : Scheduled clock s) (hnow : clock ≤ now) (op : ResyncOp) :
    Scheduled now (s.apply now op) := by
  have hpast (time) (hm : time ∈ s.attemptTimes) : time ≤ now := (h.past time hm).trans hnow
  cases op with
  | markNeeded =>
    rw [apply, markNeeded]
    split_ifs with hd
    · exact { h with past := hpast }
    · exact { h with past := hpast }
    · exact ⟨.nil, nofun, fun hd' => absurd hd' hd, fun _ => Nat.succ_pos _⟩
  | rearm => exact Scheduled.prune ⟨h.ordered, hpast, nofun, fun _ => Nat.succ_pos _⟩
  | clearNeeded => exact ⟨.nil, nofun, fun _ => rfl, nofun⟩
  | clearDegradedOnProgress => exact { h with past := hpast, degraded := nofun }
  | attempt =>
    refine Scheduled.prune ⟨?_, ?_, fun hd => ?_, fun hn => ?_⟩
    · refine pairwise_append.mpr ⟨h.ordered, pairwise_singleton .., fun time hm last hl => ?_⟩
      exact (hpast time hm).trans (mem_singleton.mp hl).ge
    · simp only [mem_append, mem_singleton, or_imp, forall_and, forall_eq]
      exact ⟨hpast, le_rfl⟩
    · rcases Bool.or_eq_true_iff.mp hd with hd | hg
      · simp [h.degraded hd]
      · change (s.needed && !decide _) = false
        rw [hg, Bool.not_true, Bool.and_false]
    · simpa using (Bool.and_eq_true_iff.mp hn).2

theorem Reaches.scheduled (h : Reaches clock s) : Scheduled clock s := by
  induction h with
  | new => exact ⟨.nil, nofun, nofun, nofun⟩
  | step _ hnow op ih => exact ih.step hnow op

theorem countP_lt_two {l : List ℕ} {p : ℕ → Bool} (hl : l.Pairwise (· ≥ ·))
    (hp : ∀ a b, b ≤ a → p b → p a) : l.countP p < 2 ↔ ∀ time ∈ l[1]?, ¬p time := by
  match l with
  | [] => simp
  | [a] => simpa using Nat.lt_succ_of_le (countP_le_length (p := p) (l := [a]))
  | a :: b :: l =>
    obtain ⟨ha, hl⟩ := pairwise_cons.mp hl
    have hab := hp a b (ha b mem_cons_self)
    have hrest (hb : ¬p b) : l.countP p = 0 := countP_eq_zero.mpr fun time hm ht =>
      hb (hp b time ((pairwise_cons.mp hl).1 time hm) ht)
    by_cases hb : p b
    · simp [hb, hab hb]
    · rw [countP_cons, countP_cons_of_neg hb, hrest hb]
      split <;> simp [hb]

theorem canAttempt_iff (h : Scheduled clock s) (hnow : clock ≤ now) :
    s.canAttempt now = true ↔ ∃ time ∈ s.nextAttemptAt, time ≤ now := by
  have hcount : s.attemptsInLastSecond now < resyncMaxPerSecond ↔
      ∀ time ∈ s.attemptTimes.reverse[1]?, time + second ≤ now := by
    rw [attemptsInLastSecond, ← countP_reverse]
    refine (countP_lt_two (pairwise_reverse.mpr h.ordered) fun a b hle hb => ?_).trans
      (forall₂_congr fun time hm => ?_)
    · simp only [decide_eq_true_eq] at hb ⊢
      omega
    · have hle := (h.past time (mem_reverse.mp (mem_of_getElem? hm))).trans hnow
      simp only [decide_eq_true_eq]
      omega
  unfold canAttempt nextAttemptAt
  cases hn : s.needed with
  | false => simp
  | true =>
    have hd : s.degraded = false := by
      cases hd : s.degraded with
      | false => rfl
      | true => exact hn.symm.trans (h.degraded hd)
    simp only [hd, Bool.true_and, Bool.and_eq_true, decide_eq_true_eq, hcount]
    cases hlast : s.attemptTimes.reverse[1]? <;> simp [resyncMaxPerSecond, hlast]

theorem needed_applyAll (hn : s.needed = false)
    (hops : ∀ op ∈ ops, op.2 ≠ .markNeeded ∧ op.2 ≠ .rearm) : (s.applyAll ops).needed = false := by
  refine foldlRecOn (motive := fun s : ResyncState => s.needed = false) ops _ hn
    fun s hn ⟨now, op⟩ hm => ?_
  cases op with
  | markNeeded => exact absurd rfl (hops _ hm).1
  | rearm => exact absurd rfl (hops _ hm).2
  | clearNeeded => rfl
  | clearDegradedOnProgress => exact hn
  | attempt => exact congrArg (· && _) hn

theorem Cycle.attempts (h : s.Cycle ops) (hs : s.attempts < resyncMaxAttempts) :
    s.attempts + attemptsIn ops ≤ resyncMaxAttempts ∧
      (s.attempts + attemptsIn ops = resyncMaxAttempts → (s.applyAll ops).degraded = true) := by
  induction ops generalizing s with
  | nil => exact ⟨hs.le, fun heq => absurd heq hs.ne⟩
  | cons head ops ih =>
    obtain ⟨now, op⟩ := head
    obtain ⟨hn, hr, hc, hrest⟩ := h
    cases op with
    | rearm => exact absurd rfl hr
    | clearNeeded => exact absurd rfl hc
    | clearDegradedOnProgress => exact ih hrest hs
    | markNeeded =>
      have hsame : s.apply now .markNeeded = s := by simp [apply, markNeeded, hn]
      rw [hsame] at hrest
      have := ih hrest hs
      rwa [applyAll, foldl_cons, hsame]
    | attempt =>
      have hcount : attemptsIn ((now, .attempt) :: ops) = attemptsIn ops + 1 :=
        countP_cons_of_pos rfl
      have ha : (s.apply now .attempt).attempts = s.attempts + 1 :=
        min_eq_left (hs.trans (by decide))
      rw [hcount, Nat.add_comm _ 1, ← Nat.add_assoc, ← ha]
      by_cases hlast : (s.apply now .attempt).attempts < resyncMaxAttempts
      · exact ih hrest hlast
      -- the family has given up, so the cycle ends here
      have hfull : resyncMaxAttempts ≤ (s.apply now .attempt).attempts := Nat.le_of_not_lt hlast
      match ops with
      | [] =>
        refine ⟨ha.trans_le hs, fun _ => ?_⟩
        exact Bool.or_eq_true_iff.mpr (.inr (decide_eq_true hfull))
      | (_, _) :: _ =>
        have hgone := (Bool.and_eq_true_iff.mp hrest.1).2
        rw [Bool.not_eq_true'] at hgone
        exact absurd hfull (of_decide_eq_false hgone)

/-- An attempt is allowed exactly from the scheduled time on; without one, not before a mark or a
rearm. A cycle of need ends with its eighth attempt. -/
theorem schedule_agrees (h : Reaches clock s) :
    (∀ now ≥ clock, s.canAttempt now = true ↔ ∃ time ∈ s.nextAttemptAt, time ≤ now) ∧
      (s.nextAttemptAt = none → ∀ ops : List (ℕ × ResyncOp),
        (∀ op ∈ ops, op.2 ≠ .markNeeded ∧ op.2 ≠ .rearm) →
        ∀ later, (s.applyAll ops).canAttempt later = false) ∧
      ∀ ops, s.Cycle ops → attemptsIn ops ≤ resyncMaxAttempts ∧
        (attemptsIn ops = resyncMaxAttempts → (s.applyAll ops).degraded = true) := by
  have hs := h.scheduled
  refine ⟨fun now hnow => canAttempt_iff hs hnow, fun hnone ops hops later => ?_, fun ops hc => ?_⟩
  · have hn : s.needed = false := by
      unfold nextAttemptAt at hnone
      split at hnone
      · next hout =>
        rcases Bool.or_eq_true_iff.mp hout with hn | hd
        · simpa using hn
        · exact hs.degraded hd
      · split at hnone <;> cases hnone
    rw [canAttempt, needed_applyAll hn hops]
    rfl
  · match ops with
    | [] => exact ⟨Nat.zero_le _, nofun⟩
    | op :: ops =>
      have := Cycle.attempts hc (hs.attempts hc.1)
      exact ⟨by omega, fun heq => this.2 (by omega)⟩

/-- After two attempts the backoff is over in 150 ms; the second is what holds the third back. -/
theorem schedule_agrees_marked :
    let s := ({} : ResyncState).applyAll
      [(0, .markNeeded), (0, .attempt), (resyncInitialBackoff, .attempt)]
    Reaches resyncInitialBackoff s ∧ s.nextAttemptAt = some second ∧
      s.canAttempt second = true ∧ s.canAttempt (second - 1) = false := by
  intro s
  have h : Reaches resyncInitialBackoff s :=
    .step (.step (.step .new (Nat.zero_le 0) .markNeeded) le_rfl .attempt) (Nat.zero_le _) .attempt
  have hnext : s.nextAttemptAt = some second := by decide +kernel
  have hiff := (schedule_agrees h).1
  simp only [hnext, Option.mem_some_iff, exists_eq_left'] at hiff
  refine ⟨h, hnext, (hiff second (by decide)).mpr le_rfl, Bool.eq_false_iff.mpr fun hcan => ?_⟩
  exact absurd ((hiff (second - 1) (by decide)).mp hcan) (by decide)

end ResyncState

end BotsterHub.Entity
