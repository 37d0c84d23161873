import BotsterHub.Lib.Machine
import BotsterHub.Owner.Schedule
import Mathlib.Data.Finset.Sort
import Mathlib.Data.Prod.Lex

/-!
The deadline index with its ordered set of armed deadlines. A run of it refines the waiters' own
histories: a deadline fires if its waiter is armed with it, and never twice. What `arm` says about
a deadline already due is left out.
-/

namespace BotsterHub.Owner

open List

structure OrderedDeadlines extends DeadlineIndex where
  deadlines : Finset (ℕ ×ₗ ℕ)

namespace OrderedDeadlines

variable (d : OrderedDeadlines) (waiterId : ℕ)

def new : OrderedDeadlines := ⟨.new, ∅⟩

def stateOf : DeadlineState := (d.states.lookup waiterId).getD ⟨none, none⟩

def unset : Finset (ℕ ×ₗ ℕ) :=
  (d.stateOf waiterId).armed.elim d.deadlines fun instant =>
    d.deadlines.erase (toLex (instant, waiterId))

/-- `none`: `NonprogressRearm`. -/
def arm (deadline : ℕ) : Option OrderedDeadlines :=
  (d.toDeadlineIndex.arm waiterId deadline).map fun index =>
    ⟨index, insert (toLex (deadline, waiterId)) (d.unset waiterId)⟩

def disarm (instant : ℕ) : OrderedDeadlines × Bool :=
  match d.states.lookup waiterId with
  | none => (d, false)
  | some state =>
    if state.armed = some instant ∧ toLex (instant, waiterId) ∈ d.deadlines then
      (⟨⟨if state.lastFired.isSome then d.states.insert waiterId ⟨none, state.lastFired⟩
          else d.states.erase waiterId⟩, d.deadlines.erase (toLex (instant, waiterId))⟩, true)
    else (d, false)

def retire : OrderedDeadlines := ⟨d.toDeadlineIndex.retire waiterId, d.unset waiterId⟩

def fire (instant : ℕ) : OrderedDeadlines :=
  ⟨⟨d.states.insert waiterId ⟨none, some instant⟩⟩, d.deadlines.erase (toLex (instant, waiterId))⟩

/-- Remove at most `limit` due keys in deadline order. `none`: a deadline has no waiter state. -/
def popDue (now : ℕ) : ℕ → OrderedDeadlines → Option (List (ℕ × ℕ) × OrderedDeadlines)
  | 0, index => some ([], index)
  | limit + 1, index =>
    match (index.deadlines.sort.map ofLex).head? with
    | none => some ([], index)
    | some key =>
      if now < key.1 then some ([], index)
      else if (index.states.lookup key.2).isNone then none
      else (popDue now limit (index.fire key.2 key.1)).map fun (due, index) => (key :: due, index)

end OrderedDeadlines

inductive DeadlineEvent where
  | armed (instant : ℕ)
  | disarmed
  | retired
  | fired (instant : ℕ)

def DeadlineEvent.apply (s : DeadlineState) : DeadlineEvent → DeadlineState
  | .armed instant => ⟨some instant, s.lastFired⟩
  | .disarmed => ⟨none, s.lastFired⟩
  | .retired => ⟨none, none⟩
  | .fired instant => ⟨none, some instant⟩

def replay (waiterId : ℕ) (log : List (ℕ × DeadlineEvent)) : DeadlineState :=
  log.foldr (fun e s => if waiterId = e.1 then e.2.apply s else s) ⟨none, none⟩

inductive DeadlineOp where
  | arm (waiterId deadline : ℕ)
  | disarm (waiterId instant : ℕ)
  | retire (waiterId : ℕ)
  | popDue (now limit : ℕ)

structure DeadlineRun where
  index : OrderedDeadlines := .new
  log : List (ℕ × DeadlineEvent) := []

namespace DeadlineRun

def fired (s : DeadlineRun) (due : List (ℕ × ℕ)) (index : OrderedDeadlines) : DeadlineRun :=
  ⟨index, due.foldl (fun log key => (key.2, .fired key.1) :: log) s.log⟩

/-- `none`: the operation panics. -/
def step (s : DeadlineRun) : DeadlineOp → Option DeadlineRun
  | .arm waiterId deadline => some <| (s.index.arm waiterId deadline).elim s fun index =>
      ⟨index, (waiterId, .armed deadline) :: s.log⟩
  | .disarm waiterId instant =>
    let (index, disarmed) := s.index.disarm waiterId instant
    some ⟨index, if disarmed then (waiterId, .disarmed) :: s.log else s.log⟩
  | .retire waiterId => some ⟨s.index.retire waiterId, (waiterId, .retired) :: s.log⟩
  | .popDue now limit => (s.index.popDue now limit).map fun (due, index) => s.fired due index

open OrderedDeadlines AList Option

structure Kept (s : DeadlineRun) : Prop where
  armed : ∀ t w, toLex (t, w) ∈ s.index.deadlines ↔ (s.index.stateOf w).armed = some t
  replays : ∀ w, s.index.stateOf w = replay w s.log
  later : ∀ w, ∀ f ∈ (s.index.stateOf w).lastFired, ∀ t ∈ (s.index.stateOf w).armed, f < t
  fires : ∀ newer w t older, s.log = newer ++ (w, .fired t) :: older →
    (replay w older).armed = some t ∧ ∀ f ∈ (replay w older).lastFired, f < t

variable {s : DeadlineRun} {w t : ℕ}

theorem Kept.event (h : Kept s) {index : OrderedDeadlines} {e : DeadlineEvent}
    (hstate : ∀ v, index.stateOf v =
      if v = w then e.apply (s.index.stateOf w) else s.index.stateOf v)
    (hset : ∀ t v, toLex (t, v) ∈ index.deadlines ↔
      if v = w then (e.apply (s.index.stateOf w)).armed = some t
      else toLex (t, v) ∈ s.index.deadlines)
    (harm : ∀ t, e = .armed t → ∀ f ∈ (s.index.stateOf w).lastFired, f < t)
    (hfire : ∀ t, e = .fired t → (s.index.stateOf w).armed = some t) :
    Kept ⟨index, (w, e) :: s.log⟩ where
  armed t v := by
    rw [hset, hstate]
    split
    · rfl
    · exact h.armed t v
  replays v := by
    rw [hstate, h.replays w, h.replays v]
    by_cases hv : v = w
    · simp [replay, hv]
    · simp [replay, hv]
  later v := by
    rw [hstate]
    split
    · intro f hf t ht
      cases e with
      | armed => exact some.inj ht ▸ harm _ rfl f hf
      | _ => cases ht
    · exact h.later v
  fires newer v t older heq := by
    match newer with
    | [] =>
      cases heq
      rw [← h.replays]
      exact ⟨hfire t rfl, fun f hf => h.later _ f hf t (hfire t rfl)⟩
    | first :: newer => exact h.fires newer v t older (cons.inj heq).2

theorem Kept.mem_unset (h : Kept s) (t v : ℕ) :
    toLex (t, v) ∈ s.index.unset w ↔ v ≠ w ∧ toLex (t, v) ∈ s.index.deadlines := by
  unfold unset
  have hw := h.armed t w
  cases harmed : (s.index.stateOf w).armed with
  | none =>
    rw [harmed] at hw
    refine ⟨fun hm => ⟨fun heq => ?_, hm⟩, And.right⟩
    cases heq
    cases hw.mp hm
  | some old =>
    rw [harmed] at hw
    simp only [Option.elim, Finset.mem_erase, ne_eq, EmbeddingLike.apply_eq_iff_eq, Prod.mk.injEq]
    refine ⟨fun ⟨hne, hm⟩ => ⟨fun heq => ?_, hm⟩, fun ⟨hne, hm⟩ => ⟨fun heq => hne heq.2, hm⟩⟩
    cases heq
    exact hne ⟨(some.inj (hw.mp hm)).symm, rfl⟩

theorem unset_eq (harmed : (s.index.stateOf w).armed = some t) :
    s.index.deadlines.erase (toLex (t, w)) = s.index.unset w := by
  rw [unset, harmed]
  rfl

theorem Kept.silent (h : Kept s) {index : OrderedDeadlines} {e : DeadlineEvent}
    (hstate : ∀ v, index.stateOf v =
      if v = w then e.apply (s.index.stateOf w) else s.index.stateOf v)
    (hset : index.deadlines = s.index.unset w) (hnone : (e.apply (s.index.stateOf w)).armed = none)
    (hfire : ∀ t, e = .fired t → (s.index.stateOf w).armed = some t) :
    Kept ⟨index, (w, e) :: s.log⟩ := by
  refine h.event hstate (fun t v => ?_) (fun t heq => ?_) hfire
  · rw [hset, h.mem_unset, hnone]
    split <;> simp_all
  · subst heq
    cases hnone

theorem Kept.fire (h : Kept s) (harmed : (s.index.stateOf w).armed = some t) :
    Kept (s.fired [(t, w)] (s.index.fire w t)) := by
  refine h.silent (fun v => ?_) (unset_eq harmed) rfl fun t' heq => ?_
  · simp only [stateOf, OrderedDeadlines.fire, lookup_insert_eq]
    split <;> rfl
  · cases heq
    exact harmed

theorem sort_erase {α : Type*} [LinearOrder α] {set : Finset α} {a : α} {l : List α}
    (h : set.sort = a :: l) : (set.erase a).sort = l := by
  have hm : a ∈ set := (Finset.mem_sort (· ≤ ·)).mp (h ▸ mem_cons_self)
  have hle : ∀ b ∈ set.erase a, a ≤ b := fun b hb =>
    rel_of_pairwise_cons (h ▸ set.pairwise_sort (· ≤ ·)) <| by
      have := (Finset.mem_sort (· ≤ ·)).mpr (Finset.mem_of_mem_erase hb)
      rw [h] at this
      exact (mem_cons.mp this).resolve_left (Finset.ne_of_mem_erase hb)
  have := Finset.sort_insert (· ≤ ·) hle (Finset.notMem_erase a set)
  rw [Finset.insert_erase hm, h] at this
  exact (cons.inj this).2.symm

theorem Kept.popDue (now limit : ℕ) (h : Kept s) : ∃ due index,
    s.index.popDue now limit = some (due, index) ∧ Kept (s.fired due index) ∧
      due = ((s.index.deadlines.sort.map ofLex).filter (·.1 ≤ now)).take limit := by
  induction limit generalizing s with
  | zero => exact ⟨[], s.index, rfl, h, rfl⟩
  | succ limit ih =>
    unfold OrderedDeadlines.popDue
    cases hsort : s.index.deadlines.sort with
    | nil => exact ⟨[], s.index, rfl, h, rfl⟩
    | cons key rest =>
      obtain ⟨⟨t, w⟩, rfl⟩ : ∃ p, key = toLex p := ⟨ofLex key, rfl⟩
      have hm : toLex (t, w) ∈ s.index.deadlines :=
        (Finset.mem_sort (· ≤ ·)).mp (hsort ▸ mem_cons_self)
      have harmed := (h.armed t w).mp hm
      simp only [map_cons, ofLex_toLex, head?_cons]
      split_ifs with hlate hgone
      · -- the first deadline is the earliest, so none is due
        refine ⟨[], s.index, rfl, h, (take_eq_nil_iff.mpr (.inr (filter_eq_nil_iff.mpr ?_))).symm⟩
        rintro _ (_ | ⟨_, hrest⟩)
        · simpa using hlate
        · obtain ⟨other, hother, rfl⟩ := mem_map.mp hrest
          have hle := Prod.Lex.monotone_fst _ _
            (rel_of_pairwise_cons (hsort ▸ s.index.deadlines.pairwise_sort (· ≤ ·)) hother)
          simpa using hlate.trans_le hle
      · rw [stateOf, isNone_iff_eq_none.mp hgone] at harmed
        cases harmed
      · obtain ⟨due, index, hpop, hkept, hdue⟩ := ih (h.fire harmed)
        refine ⟨(t, w) :: due, index, ?_, hkept, ?_⟩
        · rw [show (s.index.fire w t).popDue now limit = some (due, index) from hpop]
          rfl
        · rw [filter_cons_of_pos (by simpa using hlate), take_succ_cons, hdue, ← sort_erase hsort]
          rfl

theorem arm_eq_none (w t : ℕ) : s.index.arm w t = none ↔
    ∃ f ∈ (s.index.stateOf w).lastFired, t ≤ f := by
  simp [OrderedDeadlines.arm, DeadlineIndex.arm, stateOf, Option.any_eq_true]

theorem Kept.disarm_iff (h : Kept s) (w t : ℕ) : (s.index.disarm w t).2 = true ↔
    (s.index.stateOf w).armed = some t := by
  have hset := h.armed t w
  rw [stateOf] at hset ⊢
  cases hl : s.index.states.lookup w with
  | none => simp [disarm, hl]
  | some state =>
    rw [hl, getD_some] at hset
    by_cases hkey : state.armed = some t <;> simp [disarm, hl, hset, hkey]

theorem Kept.step (h : Kept s) (op : DeadlineOp) : ∃ s', s.step op = some s' ∧ Kept s' := by
  cases op with
  | arm w t =>
    refine ⟨_, rfl, ?_⟩
    simp only [OrderedDeadlines.arm, DeadlineIndex.arm]
    split_ifs with hfired
    · exact h
    refine h.event (fun v => ?_) (fun t' v => ?_) (fun t' heq f hf => ?_) nofun
    · simp only [stateOf, lookup_insert_eq]
      split <;> rfl
    · rw [Finset.mem_insert, h.mem_unset, EmbeddingLike.apply_eq_iff_eq, Prod.mk.injEq]
      by_cases hv : v = w
      · simp [hv, DeadlineEvent.apply, eq_comm]
      · simp [hv]
    · cases heq
      refine Nat.lt_of_not_le fun hle => hfired ?_
      exact (Option.any_eq_true ..).mpr ⟨f, hf, decide_eq_true hle⟩
  | disarm w t =>
    refine ⟨_, rfl, ?_⟩
    split
    · exact h
    next state hlookup =>
    by_cases hkey : state.armed = some t ∧ toLex (t, w) ∈ s.index.deadlines
    · simp only [if_pos hkey]
      have hstate : s.index.stateOf w = state := by rw [stateOf, hlookup]; rfl
      refine h.silent (fun v => ?_) (unset_eq (hstate ▸ hkey.1)) rfl nofun
      rw [hstate, stateOf]
      split_ifs with hfired hv hv
      · rw [hv, lookup_insert]
        rfl
      · rw [lookup_insert_ne hv]
        rfl
      · rw [hv, lookup_erase, DeadlineEvent.apply, not_isSome_iff_eq_none.mp hfired]
        rfl
      · rw [lookup_erase_ne hv]
        rfl
    · simp only [if_neg hkey]
      exact h
  | retire w =>
    refine ⟨_, rfl, h.silent (fun v => ?_) rfl rfl nofun⟩
    simp only [stateOf, OrderedDeadlines.retire, DeadlineIndex.lookup_retire]
    split <;> rfl
  | popDue now limit =>
    obtain ⟨due, index, hpop, hkept, -⟩ := h.popDue now limit
    exact ⟨_, by rw [DeadlineRun.step, hpop]; rfl, hkept⟩

theorem kept_new : Kept {} where
  armed _ _ := ⟨nofun, nofun⟩
  replays _ := rfl
  later := nofun
  fires newer _ _ _ heq := absurd heq.symm (append_ne_nil_of_right_ne_nil newer (cons_ne_nil _ _))

/-- No run panics. The set and the waiters' states agree, `arm` is refused exactly at or before what
fired, `disarm` disarms exactly the armed deadline, `pop_due` gives the due deadlines in order, and
one that fires is armed and comes after all that fired since its waiter was last retired. -/
theorem run_deadlines (ops : List DeadlineOp) : ∃ s, ops.foldlM step {} = some s ∧
    (∀ t w, toLex (t, w) ∈ s.index.deadlines ↔ (s.index.stateOf w).armed = some t) ∧
    (∀ w, s.index.stateOf w = replay w s.log) ∧
    (∀ w t, (s.index.arm w t = none ↔ ∃ f ∈ (s.index.stateOf w).lastFired, t ≤ f) ∧
      ((s.index.disarm w t).2 = true ↔ (s.index.stateOf w).armed = some t)) ∧
    (∀ now limit, ((s.index.popDue now limit).map Prod.fst) =
      some (((s.index.deadlines.sort.map ofLex).filter (·.1 ≤ now)).take limit)) ∧
    ∀ newer w t older, s.log = newer ++ (w, .fired t) :: older →
      (replay w older).armed = some t ∧ ∀ f ∈ (replay w older).lastFired, f < t := by
  obtain ⟨s, hrun, h⟩ := Machine.run_rest (I := fun _ => Kept) (fun op _ _ h => h.step op) ops {}
    kept_new
  refine ⟨s, hrun, h.armed, h.replays, fun w t => ⟨arm_eq_none w t, h.disarm_iff w t⟩,
    fun now limit => ?_, h.fires⟩
  obtain ⟨due, index, hpop, -, hdue⟩ := h.popDue now limit
  rw [hpop, ← hdue]
  rfl

end DeadlineRun

end BotsterHub.Owner
