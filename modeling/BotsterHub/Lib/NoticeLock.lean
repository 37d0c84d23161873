import BotsterHub.Lib.Machine
import Mathlib.Data.Multiset.AddSub

/-!
A lock whose releases notify one waiting owner.

The notice of a thread runs after its unlock, in atomic steps: it clears `blocked`, swaps
`interest`, and publishes if the interest was set or the thread changed what the owner looks at.
An owner that fails to get the lock sets both and tries once more; while `blocked` is set it waits
without an attempt. A notice that cleared `blocked` before can still take that interest; the run
theorem excludes this.
-/

namespace NoticeLock

open NoticeLock

structure Notice where
  owner : Bool
  changed : Bool := false
  deriving DecidableEq

inductive Pc where
  | idle
  | counted
  | unblocked
  | contended
  | blocking
  | armed
  | relocked
  /-- It has the lock, or is in its notice. -/
  | away
  /-- It could not look: the lock was held. -/
  | waiting
  /-- It saw that there is nothing to look at. -/
  | resting
  deriving DecidableEq

def Pc.finish (pc : Pc) (n : Notice) : Pc := if n.owner ∧ pc = .away then .idle else pc

structure State where
  held : Option Notice := none
  blocked : Bool := false
  interest : Bool := false
  progress : Bool := false
  count : ℕ := 0
  /-- Notices after their unlock, after their clear and before their publication. -/
  clearing : Multiset Notice := 0
  swapping : Multiset Notice := 0
  publishing : Multiset Notice := 0
  pc : Pc := .idle

def State.active (s : State) : Option Notice := s.held.filter fun n => !n.owner || s.pc = .away

/-- Whether the owner reads a count before it looks, and clears `blocked` when its second attempt
succeeds. -/
structure Config where
  counts : Bool
  clearsOnRetry : Bool

inductive Step where
  | lock
  /-- The holder leaves `count` things for the owner. -/
  | change (count : ℕ)
  | unlock
  | clearBlocked (n : Notice)
  | swapInterest (n : Notice)
  | publish (n : Notice)
  /-- A notification that no lock goes with. -/
  | notify
  | loadCount
  | loadBlocked
  | tryLock
  | storeBlocked
  | storeInterest
  | retry
  | storeUnblocked
  | takeProgress
  deriving DecidableEq

def step (config : Config) (s : State) : Step → Option State
  | .lock => if s.held = none then some { s with held := some { owner := false } } else none
  | .change count =>
    match s.active with
    | some n =>
      if config.counts then
        some { s with held := some { n with changed := n.changed || !n.owner }, count }
      else none
    | none => none
  | .unlock =>
    match s.active with
    | some n => some { s with held := none, clearing := n ::ₘ s.clearing }
    | none => none
  | .clearBlocked n =>
    if n ∈ s.clearing then
      some
        { s with blocked := false, clearing := s.clearing.erase n, swapping := n ::ₘ s.swapping }
    else none
  | .swapInterest n =>
    if n ∈ s.swapping then
      if s.interest || n.changed then
        some
          { s with
            interest := false
            swapping := s.swapping.erase n
            publishing := n ::ₘ s.publishing }
      else some { s with swapping := s.swapping.erase n, pc := s.pc.finish n }
    else none
  | .publish n =>
    if n ∈ s.publishing then
      some
        { s with progress := true, publishing := s.publishing.erase n, pc := s.pc.finish n }
    else none
  | .notify => some { s with progress := true }
  | .loadCount =>
    if s.pc = .idle then
      some { s with pc := if config.counts ∧ s.count = 0 then .resting else .counted }
    else none
  | .loadBlocked =>
    if s.pc = .counted then some { s with pc := if s.blocked then .waiting else .unblocked }
    else none
  | .tryLock =>
    if s.pc = .unblocked then
      if s.held = none then some { s with held := some { owner := true }, pc := .away }
      else some { s with pc := .contended }
    else none
  | .storeBlocked =>
    if s.pc = .contended then some { s with blocked := true, pc := .blocking } else none
  | .storeInterest =>
    if s.pc = .blocking then some { s with interest := true, pc := .armed } else none
  | .retry =>
    if s.pc = .armed then
      if s.held = none then
        some
          { s with
            held := some { owner := true }
            pc := if config.clearsOnRetry then .relocked else .away }
      else some { s with pc := .waiting }
    else none
  | .storeUnblocked =>
    if s.pc = .relocked then some { s with blocked := false, pc := .away } else none
  | .takeProgress =>
    if (s.pc = .waiting ∨ s.pc = .resting) ∧ s.progress then
      some { s with progress := false, pc := .idle }
    else none

/-- The owner registers its interest while no notice that cleared `blocked` has yet to swap, or
after one has cleared its own mark. -/
def Timely (s : State) (a : Step) : Prop := a = .storeInterest → s.blocked = false ∨ s.swapping = 0

instance (s : State) (a : Step) : Decidable (Timely s a) := inferInstanceAs (Decidable (_ → _))

def State.Quiet (s : State) : Prop :=
  s.held = none ∧ s.clearing = 0 ∧ s.swapping = 0 ∧ s.publishing = 0

instance (s : State) : Decidable s.Quiet := inferInstanceAs (Decidable (_ ∧ _ ∧ _ ∧ _))

def State.Changed (s : State) : Prop :=
  (∃ n, s.held = some n ∧ n.changed = true) ∨
    ∃ n, (n ∈ s.clearing ∨ n ∈ s.swapping) ∧ n.changed = true

structure Told (s : State) : Prop where
  interest : s.blocked = true → s.pc = .blocking ∨ s.interest = true ∧ s.swapping = 0
  busy : s.blocked = true → s.pc = .blocking ∨ s.pc = .armed ∨ s.held ≠ none ∨ s.clearing ≠ 0
  armed : s.pc = .armed → s.progress = true ∨ s.publishing ≠ 0 ∨ s.interest = true
  waiting : s.pc = .waiting → s.progress = true ∨ s.publishing ≠ 0 ∨
    s.interest = true ∧ (s.held ≠ none ∨ s.clearing ≠ 0 ∨ s.swapping ≠ 0)
  resting : s.pc = .resting → s.count = 0 ∨ s.progress = true ∨ s.publishing ≠ 0 ∨ s.Changed

theorem Told.new : Told {} := by constructor <;> simp

variable {config : Config} {s s' : State} {a : Step}

theorem active_eq {n : Notice} (h : s.active = some n) :
    s.held = some n ∧ (n.owner = true → s.pc = .away) := by
  obtain ⟨hh, hpc⟩ := Option.filter_eq_some_iff.mp h
  exact ⟨hh, by grind -linarith⟩

theorem Told.hold (h : Told s) (ha : a = .lock ∨ a = .unlock ∨ ∃ count, a = .change count)
    (hs : step config s a = some s') : Told s' := by
  obtain ⟨hi, hb, harmed, hw, hr⟩ := h
  obtain rfl | rfl | ⟨count, rfl⟩ := ha
  · simp only [step, Option.ite_none_right_eq_some, Option.some.injEq] at hs
    obtain ⟨hf, rfl⟩ := hs
    constructor <;> grind -linarith [State.Changed]
  · simp only [step] at hs
    split at hs <;> [obtain rfl := Option.some.inj hs; simp at hs]
    next hactive =>
      obtain ⟨hh, hpc⟩ := active_eq hactive
      constructor <;> grind -linarith [State.Changed, Multiset.cons_ne_zero]
  · simp only [step] at hs
    split at hs <;> [skip; simp at hs]
    next hactive =>
      obtain ⟨hh, hpc⟩ := active_eq hactive
      simp only [Option.ite_none_right_eq_some, Option.some.injEq] at hs
      obtain ⟨-, rfl⟩ := hs
      constructor <;> grind -linarith [State.Changed]

theorem Told.notice {n : Notice} (h : Told s)
    (ha : a = .clearBlocked n ∨ a = .swapInterest n ∨ a = .publish n)
    (hs : step config s a = some s') : Told s' := by
  obtain ⟨hi, hb, harmed, hw, hr⟩ := h
  obtain rfl | rfl | rfl := ha
  · simp only [step, Option.ite_none_right_eq_some, Option.some.injEq] at hs
    obtain ⟨hm, rfl⟩ := hs
    refine ⟨by simp, by simp, harmed, fun hpc => ?_, fun hpc => ?_⟩ <;>
      grind -linarith [State.Changed, Multiset.cons_ne_zero, Multiset.mem_erase_of_ne]
  · simp only [step, Option.ite_none_right_eq_some] at hs
    obtain ⟨hm, hs⟩ := hs
    have hsome : s.swapping ≠ 0 := by
      rintro hn
      simp [hn] at hm
    split at hs <;> cases hs
    all_goals constructor <;> grind -linarith [State.Changed, Pc.finish, Multiset.cons_ne_zero,
        Multiset.mem_erase_of_ne]
  · simp only [step, Option.ite_none_right_eq_some, Option.some.injEq] at hs
    obtain ⟨hm, rfl⟩ := hs
    constructor <;> grind -linarith [State.Changed, Pc.finish, Multiset.cons_ne_zero,
      Multiset.mem_erase_of_ne]

theorem Told.step (h : Told s) (ht : Timely s a) (hs : step config s a = some s') : Told s' := by
  have ⟨hi, hb, ha, hw, hr⟩ := h
  cases a with
  | lock => exact h.hold (.inl rfl) hs
  | unlock => exact h.hold (.inr (.inl rfl)) hs
  | change c => exact h.hold (.inr (.inr ⟨c, rfl⟩)) hs
  | clearBlocked => exact h.notice (.inl rfl) hs
  | swapInterest => exact h.notice (.inr (.inl rfl)) hs
  | publish => exact h.notice (.inr (.inr rfl)) hs
  | notify =>
    cases hs
    exact ⟨hi, hb, by simp, by simp, by simp⟩
  | storeInterest =>
    have ht := ht rfl
    simp only [step, Option.ite_none_right_eq_some, Option.some.injEq] at hs
    obtain ⟨hpc, rfl⟩ := hs
    constructor <;> grind -linarith
  | tryLock | retry =>
    simp only [step, Option.ite_none_right_eq_some] at hs
    obtain ⟨hpc, hs⟩ := hs
    split at hs <;> obtain rfl := Option.some.inj hs <;> constructor <;> grind -linarith
  | _ =>
    simp only [step, Option.ite_none_right_eq_some, Option.some.injEq] at hs
    obtain ⟨hpc, rfl⟩ := hs
    constructor <;> grind -linarith

def run (config : Config) (as : List Step) : Option State := as.foldlM (step config) {}

variable {as : List Step}

theorem Told.run (h : run config as = some s)
    (ht : Machine.Along (NoticeLock.step config) Timely {} as) : Told s :=
  Machine.run_along (fun _ _ _ h => h.step) ht Told.new h

theorem Told.progress_of_waiting (h : Told s) (hq : s.Quiet) (hpc : s.pc = .waiting) :
    s.progress = true := by
  obtain ⟨hf, hc, hs, hp⟩ := hq
  simpa [hf, hc, hs, hp] using h.waiting hpc

theorem Told.progress_of_resting (h : Told s) (hq : s.Quiet) (hpc : s.pc = .resting)
    (hcount : s.count ≠ 0) : s.progress = true := by
  obtain ⟨hf, hc, hs, hp⟩ := hq
  simpa [State.Changed, hcount, hf, hc, hs, hp] using h.resting hpc

end NoticeLock
