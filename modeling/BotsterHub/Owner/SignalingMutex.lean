import BotsterHub.Lib.Machine
import Mathlib.Data.Nat.Basic

/-!
The mutex that wakes the owner loop. A holder drops its guard in three atomic steps: it unlocks,
swaps the armed flag, and if that was set raises the key. The owner tries, reads the epoch of the
key, arms, tries once more and parks on that epoch. Other threads are counted at the point where
they stand.
-/

namespace BotsterHub.Owner

open Option

/-- Who has the mutex: a guard, or a `lock` that found it poisoned and has yet to let it go. -/
inductive LockHolder where
  | guard
  | refused
  deriving DecidableEq

inductive ArmPoint where
  | idle
  | contended
  | seen (epoch : ℕ)
  | armed (epoch : ℕ)
  | parked (epoch : ℕ)
  deriving DecidableEq

structure SignalingMutex where
  holder : Option LockHolder := none
  poisoned : Bool := false
  armed : Bool := false
  epoch : ℕ := 0
  /-- Releasers between their unlock and their swap. -/
  unlocked : ℕ := 0
  /-- Releasers that swapped a set flag and have yet to raise. -/
  raising : ℕ := 0
  owner : ArmPoint := .idle
  deriving DecidableEq

namespace SignalingMutex

inductive Step where
  /-- `lock`, or a `try_lock` that finds the mutex free. -/
  | lock
  | lockOrRecover
  /-- The guard unlocks, on a thread that panics or not. -/
  | unlock (panicking : Bool)
  | releaseRefused
  | swapArmed
  | raise
  | tryLock
  | seen
  | arm
  | retry
  /-- The owner finds that its wait has moved. -/
  | wake
  deriving DecidableEq

/-- A free mutex is taken. A poisoned one is handed to a guard that is dropped without a raise. -/
def acquire (s : SignalingMutex) : SignalingMutex :=
  { s with holder := some (if s.poisoned then .refused else .guard) }

/-- One atomic step; `none` if no thread can take it. -/
def step (s : SignalingMutex) : Step → Option SignalingMutex
  | .lock => if s.holder = none then some s.acquire else none
  | .lockOrRecover => if s.holder = none then some { s with holder := some .guard } else none
  | .unlock panicking =>
    if s.holder = some .guard then
      some
        { s with holder := none, poisoned := s.poisoned || panicking, unlocked := s.unlocked + 1 }
    else none
  | .releaseRefused => if s.holder = some .refused then some { s with holder := none } else none
  | .swapArmed =>
    if 0 < s.unlocked then
      some
        { s with
          armed := false
          unlocked := s.unlocked - 1
          raising := if s.armed then s.raising + 1 else s.raising }
    else none
  | .raise =>
    if 0 < s.raising then some { s with raising := s.raising - 1, epoch := s.epoch + 1 } else none
  | .tryLock =>
    if s.owner = .idle then
      if s.holder = none then some s.acquire else some { s with owner := .contended }
    else none
  | .seen => if s.owner = .contended then some { s with owner := .seen s.epoch } else none
  | .arm =>
    match s.owner with
    | .seen epoch => some { s with armed := true, owner := .armed epoch }
    | _ => none
  | .retry =>
    match s.owner with
    | .armed epoch =>
      if s.holder = none then some { s.acquire with owner := .idle }
      else some { s with owner := .parked epoch }
    | _ => none
  | .wake =>
    match s.owner with
    | .parked epoch => if s.epoch ≠ epoch then some { s with owner := .idle } else none
    | _ => none

structure Wakes (s : SignalingMutex) : Prop where
  refused : s.holder = some .refused → s.poisoned = true
  seen : ∀ epoch, s.owner = .seen epoch → epoch ≤ s.epoch
  armed : ∀ epoch, s.owner = .armed epoch →
    epoch ≤ s.epoch ∧ (epoch < s.epoch ∨ 0 < s.raising ∨ s.armed = true)
  parked : ∀ epoch, s.owner = .parked epoch → epoch ≤ s.epoch ∧ (s.poisoned = false →
    epoch < s.epoch ∨ 0 < s.raising ∨ s.armed = true ∧ (s.holder = some .guard ∨ 0 < s.unlocked))

theorem Wakes.new : Wakes {} := by constructor <;> simp

variable {s s' : SignalingMutex} {a : Step}

theorem Wakes.acquire (h : Wakes s) (hf : s.holder = none) : Wakes s.acquire := by
  refine ⟨?_, h.seen, h.armed, fun e hp => ?_⟩
  · simp only [SignalingMutex.acquire]
    split <;> simp_all
  obtain ⟨hle, hw⟩ := h.parked e hp
  refine ⟨hle, fun hc => ?_⟩
  have hw := hw hc
  simp only [hf, reduceCtorEq, false_or] at hw
  exact hw.imp_right (Or.imp_right fun ⟨ha, hu⟩ => ⟨ha, .inr hu⟩)

theorem Wakes.swapArmed (h : Wakes s) (hs : s.step .swapArmed = some s') : Wakes s' := by
  simp only [step, ite_none_right_eq_some, some.injEq] at hs
  obtain ⟨-, rfl⟩ := hs
  refine ⟨h.refused, h.seen, fun e hat => ?_, fun e hat => ?_⟩
  · obtain ⟨hle, hw⟩ := h.armed e hat
    refine ⟨hle, ?_⟩
    cases ha : s.armed <;> simp_all
  obtain ⟨hle, hw⟩ := h.parked e hat
  refine ⟨hle, fun hc => ?_⟩
  have hw := hw hc
  cases ha : s.armed <;> simp_all

theorem Wakes.retry (h : Wakes s) (hs : s.step .retry = some s') : Wakes s' := by
  simp only [step] at hs
  split at hs
  next epoch hat =>
    obtain ⟨hle, hw⟩ := h.armed epoch hat
    split at hs
    next hf =>
      cases hs
      exact ⟨(h.acquire hf).refused, by simp, by simp, by simp⟩
    next hheld =>
      cases hs
      refine ⟨h.refused, by simp, by simp, fun epoch' hat' => ?_⟩
      obtain rfl := ArmPoint.parked.inj hat'
      refine ⟨hle, fun hc => hw.imp_right (Or.imp_right fun ha => ⟨ha, .inl ?_⟩)⟩
      have hr := h.refused
      cases hh : s.holder with
      | none => exact absurd hh hheld
      | some holder => cases holder <;> simp_all
  next => exact absurd hs (by simp)

theorem Wakes.step (h : Wakes s) (hs : s.step a = some s') : Wakes s' := by
  have hr := h.refused
  have hseen := h.seen
  have ha := h.armed
  have hp := h.parked
  cases a with
  | swapArmed => exact h.swapArmed hs
  | retry => exact h.retry hs
  | lock =>
    simp only [SignalingMutex.step, ite_none_right_eq_some, some.injEq] at hs
    obtain ⟨hf, rfl⟩ := hs
    exact h.acquire hf
  | tryLock =>
    simp only [SignalingMutex.step, ite_none_right_eq_some] at hs
    obtain ⟨-, hs⟩ := hs
    split at hs
    next hf =>
      cases hs
      exact h.acquire hf
    next =>
      cases hs
      exact ⟨hr, by simp, by simp, by simp⟩
  | lockOrRecover | unlock | releaseRefused | raise | seen =>
    simp only [SignalingMutex.step, ite_none_right_eq_some, some.injEq] at hs
    obtain ⟨he, rfl⟩ := hs
    constructor <;> grind
  | arm =>
    simp only [SignalingMutex.step] at hs
    split at hs
    next epoch hat =>
      cases hs
      refine ⟨hr, by simp, fun epoch' hat' => ?_, by simp⟩
      obtain rfl := ArmPoint.armed.inj hat'
      exact ⟨hseen epoch hat, .inr (.inr rfl)⟩
    next => exact absurd hs (by simp)
  | wake =>
    simp only [SignalingMutex.step] at hs
    split at hs
    next =>
      simp only [ite_none_right_eq_some, some.injEq] at hs
      obtain ⟨-, rfl⟩ := hs
      exact ⟨hr, by simp, by simp, by simp⟩
    next => exact absurd hs (by simp)

def run (as : List Step) : Option SignalingMutex := as.foldlM step {}

theorem Wakes.run (h : run as = some s) : Wakes s := by
  have hk := Machine.run_rel (R := fun s s' => Wakes s → Wakes s') (fun _ h => h)
    (fun _ _ _ h h' hs => h' (h hs)) (fun _ _ _ hstep h => h.step hstep) h
  exact hk Wakes.new

def Stranded (s : SignalingMutex) : Prop :=
  s.owner = .parked s.epoch ∧ s.holder = none ∧ s.unlocked = 0

instance (s : SignalingMutex) : Decidable s.Stranded := inferInstanceAs (Decidable (_ ∧ _ ∧ _))

/-- Once no release stands between its swap and its raise, the owner is not parked on a free lock,
unless the mutex is poisoned. -/
theorem not_stranded (as : List Step) (h : run as = some s) (hraising : s.raising = 0)
    (hclean : s.poisoned = false) : ¬s.Stranded := by
  rintro ⟨hparked, hfree, hunlocked⟩
  obtain ⟨-, hwake⟩ := (Wakes.run h).parked s.epoch hparked
  have hwake := hwake hclean
  simp [hfree, hunlocked, hraising] at hwake

def parkSteps : List Step := [.tryLock, .seen, .arm, .retry]

theorem not_stranded_released :
    ∃ s, run (.lock :: parkSteps ++ [.unlock false, .swapArmed, .raise]) = some s ∧
      s.raising = 0 ∧ s.poisoned = false ∧ ¬s.Stranded :=
  ⟨_, rfl, rfl, rfl, not_stranded (.lock :: parkSteps ++ [.unlock false, .swapArmed, .raise])
    rfl rfl rfl⟩

/-- Between swap and raise the owner is parked on a free lock. On a poisoned mutex it stays there:
the `lock` it waited for raises nothing. -/
theorem stranded_before_raise :
    (∃ s, run (.lock :: parkSteps ++ [.unlock false, .swapArmed]) = some s ∧
      s.Stranded ∧ s.poisoned = false) ∧
    ∃ s, run ([.lock, .unlock true, .swapArmed, .lock] ++ parkSteps ++ [.releaseRefused]) = some s ∧
      s.Stranded ∧ s.raising = 0 :=
  ⟨⟨_, rfl, by decide, rfl⟩, ⟨_, rfl, by decide, rfl⟩⟩

end SignalingMutex

end BotsterHub.Owner
