import BotsterHub.Lib.Machine
import Mathlib.Algebra.Group.Nat.Defs
import Mathlib.Data.Finset.Card

/-!
The queue of the causal transitions that the runtime thread applies in order.

A holder reserves a place and commits later, or drops the reservation. The thread takes the head,
applies it and puts it back if the table refuses. A receipt compares the number of its commit with
the number of applications.
-/

namespace BotsterHub.Causal

open List Finset

def causalOwnerCapacity : ℕ := 256

def u64Max : ℕ := 2 ^ 64 - 1

inductive TransitionStatus where
  | waiting
  | fault
  deriving DecidableEq

structure OwnerQueue (Op : Type) where
  pending : List Op := []
  reserved : ℕ := 0
  committed : ℕ := 0
  applied : ℕ := 0
  capacityChanged : Bool := false

structure Receipt (Op : Type) where
  sequence : ℕ
  op : Op

variable {Op : Type}

namespace OwnerQueue

variable (q : OwnerQueue Op)

def refusal : Option TransitionStatus :=
  let remaining := u64Max - q.committed
  if remaining = 0 then some .fault
  else if causalOwnerCapacity ≤ q.pending.length + q.reserved ∨ remaining ≤ q.reserved then
    some .waiting
  else none

theorem refusal_eq_waiting {q : OwnerQueue Op} : q.refusal = some .waiting ↔ q.committed < u64Max ∧
      (causalOwnerCapacity ≤ q.pending.length + q.reserved ∨
        u64Max ≤ q.committed + q.reserved) := by
  simp only [refusal]
  split_ifs <;> simp <;> omega

def reserve : Except TransitionStatus (OwnerQueue Op) :=
  match q.refusal with
  | some status => .error status
  | none => .ok { q with reserved := q.reserved + 1 }

/-- A number that overflows or underflows panics. -/
def commit (op : Op) : Option (OwnerQueue Op × Receipt Op) :=
  if q.committed = u64Max ∨ q.reserved = 0 then none
  else
    let sequence := q.committed + 1
    some
      ({ q with
          pending := q.pending ++ [op]
          committed := sequence
          reserved := q.reserved - 1
          capacityChanged := q.capacityChanged || sequence == u64Max }, ⟨sequence, op⟩)

def dropReservation : Option (OwnerQueue Op) :=
  if q.reserved = 0 then none
  else
    let wasFull := q.pending.length + q.reserved == causalOwnerCapacity
    let positionsReserved := u64Max - q.committed == q.reserved
    some
      { q with
        reserved := q.reserved - 1
        capacityChanged := q.capacityChanged || wasFull || positionsReserved }

def noteApplied : Option (OwnerQueue Op) :=
  if q.applied = u64Max ∨ q.committed < q.applied + 1 then none
  else some { q with applied := q.applied + 1, capacityChanged := true }

def isApplied (receipt : Receipt Op) : Bool := receipt.sequence ≤ q.applied

end OwnerQueue

/-- The queue with the held reservations, the receipts by commit, and what was applied. -/
structure OwnerWorld (Op : Type) where
  queue : OwnerQueue Op := {}
  held : Finset ℕ := ∅
  receipts : List (Receipt Op) := []
  done : List Op := []

inductive OwnerStep (Op : Type) where
  | reserve (holder : ℕ)
  | commit (holder : ℕ) (op : Op)
  | drop (holder : ℕ)
  | applyHead (applies : Bool)
  | takeCapacityNotification

namespace OwnerWorld

def step (s : OwnerWorld Op) : OwnerStep Op → Option (OwnerWorld Op)
  | .reserve holder =>
    match s.queue.reserve with
    | .error _ => some s
    | .ok queue =>
      if holder ∈ s.held then some s else some { s with queue, held := insert holder s.held }
  | .commit holder op =>
    if holder ∈ s.held then
      (s.queue.commit op).map fun (queue, receipt) =>
        { s with queue, held := s.held.erase holder, receipts := s.receipts ++ [receipt] }
    else some s
  | .drop holder =>
    if holder ∈ s.held then
      s.queue.dropReservation.map fun queue => { s with queue, held := s.held.erase holder }
    else some s
  | .applyHead applies =>
    match s.queue.pending with
    | [] => some s
    | op :: rest =>
      let taken := { s.queue with pending := rest }
      if applies then taken.noteApplied.map fun queue => { s with queue, done := s.done ++ [op] }
      else some { s with queue := { taken with pending := op :: taken.pending } }
  | .takeCapacityNotification =>
    some { s with queue := { s.queue with capacityChanged := false } }

structure Sound (s : OwnerWorld Op) : Prop where
  reserved : s.queue.reserved = s.held.card
  capacity : s.queue.pending.length + s.queue.reserved ≤ causalOwnerCapacity
  positions : s.queue.committed + s.queue.reserved ≤ u64Max
  committed : s.queue.committed = s.receipts.length
  applied : s.queue.applied = s.done.length
  order : s.receipts.map Receipt.op = s.done ++ s.queue.pending
  numbered : s.receipts.map Receipt.sequence = List.range' 1 s.receipts.length

def Notifies (s s' : OwnerWorld Op) : Prop :=
  s.queue.refusal = some .waiting → s'.queue.refusal ≠ some .waiting →
    s'.queue.capacityChanged = true

variable {s : OwnerWorld Op} {holder : ℕ}

theorem Sound.reserve (h : Sound s) (hn : holder ∉ s.held) (hf : s.queue.refusal = none) :
    Sound { s with
      queue := { s.queue with reserved := s.queue.reserved + 1 }
      held := insert holder s.held } := by
  have hr : ¬s.queue.refusal = some .waiting := by rw [hf]; nofun
  have hl : u64Max - s.queue.committed ≠ 0 := by
    intro hz
    rw [OwnerQueue.refusal, if_pos hz] at hf
    cases hf
  rw [OwnerQueue.refusal_eq_waiting] at hr
  refine { h with reserved := ?_, capacity := ?_, positions := ?_ }
  · rw [card_insert_of_notMem hn, h.reserved]
  · dsimp only
    omega
  · dsimp only
    omega

theorem Sound.commit (h : Sound s) (hh : holder ∈ s.held)
    (op : Op) : ∃ queue receipt, s.queue.commit op = some (queue, receipt) ∧
      Sound { s with
        queue, held := s.held.erase holder, receipts := s.receipts ++ [receipt] } ∧
      Notifies s { s with queue } := by
  have hpos : 0 < s.queue.reserved := h.reserved ▸ card_pos.mpr ⟨holder, hh⟩
  have hp := h.positions
  refine ⟨_, _, if_neg (by omega), ⟨?_, ?_, ?_, ?_, h.applied, ?_, ?_⟩, ?_⟩
  · rw [card_erase_of_mem hh, ← h.reserved]
  · have hc := h.capacity
    rw [length_append, length_singleton]
    dsimp only
    omega
  · dsimp only
    omega
  · rw [length_append, ← h.committed]
    rfl
  · rw [map_append, h.order, append_assoc]
    rfl
  · rw [map_append, h.numbered, length_append, length_singleton, range'_concat, h.committed]
    simp [Nat.add_comm]
  · intro hr hf
    rw [ne_eq, OwnerQueue.refusal_eq_waiting] at hf
    rw [OwnerQueue.refusal_eq_waiting] at hr
    simp only [length_append, length_singleton] at hf
    have hl : s.queue.committed + 1 = u64Max := by omega
    simp [hl]

theorem Sound.drop (h : Sound s) (hh : holder ∈ s.held) :
    ∃ queue, s.queue.dropReservation = some queue ∧
      Sound { s with queue, held := s.held.erase holder } ∧ Notifies s { s with queue } := by
  have hpos : 0 < s.queue.reserved := h.reserved ▸ card_pos.mpr ⟨holder, hh⟩
  have hc := h.capacity
  have hp := h.positions
  refine ⟨_, if_neg (by omega), { h with reserved := ?_, capacity := ?_, positions := ?_ }, ?_⟩
  · rw [card_erase_of_mem hh, ← h.reserved]
  · dsimp only
    omega
  · dsimp only
    omega
  intro hr _
  obtain ⟨-, hf | hu⟩ := OwnerQueue.refusal_eq_waiting.mp hr
  · simp [le_antisymm hc hf]
  · have heq : u64Max - s.queue.committed = s.queue.reserved := by omega
    simp [heq]

theorem Sound.step (h : Sound s) (i : OwnerStep Op) :
    ∃ s', s.step i = some s' ∧ Sound s' ∧ Notifies s s' := by
  have hs : ∃ s', some s = some s' ∧ Sound s' ∧ Notifies s s' := ⟨s, rfl, h, absurd⟩
  cases i with
  | reserve holder =>
    simp only [OwnerWorld.step, OwnerQueue.reserve]
    cases hr : s.queue.refusal with
    | some => exact hs
    | none =>
      by_cases hh : holder ∈ s.held
      · simpa only [if_pos hh] using hs
      simp only [if_neg hh]
      refine ⟨_, rfl, h.reserve hh hr, fun hrefused => ?_⟩
      rw [hr] at hrefused
      cases hrefused
  | commit holder op =>
    by_cases hh : holder ∈ s.held
    · obtain ⟨queue, receipt, hcommit, hsound, hn⟩ := h.commit hh op
      simp only [OwnerWorld.step, if_pos hh, hcommit]
      exact ⟨_, rfl, hsound, hn⟩
    · simpa only [OwnerWorld.step, if_neg hh] using hs
  | drop holder =>
    by_cases hh : holder ∈ s.held
    · obtain ⟨queue, hd, hsound, hn⟩ := h.drop hh
      simp only [OwnerWorld.step, if_pos hh, hd]
      exact ⟨_, rfl, hsound, hn⟩
    · simpa only [OwnerWorld.step, if_neg hh] using hs
  | applyHead a =>
    cases hp : s.queue.pending with
    | nil => simpa only [OwnerWorld.step, hp] using hs
    | cons =>
      simp only [OwnerWorld.step, hp]
      cases a with
      | false =>
        simp only [Bool.false_eq_true, if_false, ← hp]
        exact hs
      | true =>
        have hl := congrArg length h.order
        rw [hp, length_map, length_append, length_cons] at hl
        have hcommitted := h.committed
        have ha := h.applied
        have hpositions := h.positions
        have hc := h.capacity
        rw [hp, length_cons] at hc
        rw [if_pos rfl, OwnerQueue.noteApplied, if_neg (by dsimp only; omega)]
        refine ⟨_, rfl, { h with capacity := ?_, applied := ?_, order := ?_ }, fun _ _ => rfl⟩
        · dsimp only
          omega
        · rw [length_append, ← ha]
          rfl
        · rw [h.order, hp, append_assoc]
          rfl
  | takeCapacityNotification =>
    exact ⟨_, rfl, { h with }, absurd⟩

/-- No run panics. Operations are applied in the order of their commits, each once, and a receipt
reads applied exactly when its operation is. -/
theorem run_ownerQueue (inputs : List (OwnerStep Op)) : ∃ s, inputs.foldlM step {} = some s ∧
      s.queue.pending.length + s.queue.reserved ≤ causalOwnerCapacity ∧
      s.queue.applied ≤ s.queue.committed ∧ s.queue.committed ≤ u64Max ∧
      s.receipts.map Receipt.op = s.done ++ s.queue.pending ∧
      (∀ i receipt, s.receipts[i]? = some receipt →
        (s.queue.isApplied receipt ↔ i < s.done.length)) ∧
      ∀ input s', s.step input = some s' → Notifies s s' := by
  obtain ⟨s, hrun, h⟩ := Machine.run_rest (I := fun _ => Sound)
    (fun input _ s h => (h.step input).imp fun _ hs => ⟨hs.1, hs.2.1⟩) inputs {}
    ⟨rfl, Nat.zero_le _, Nat.zero_le _, rfl, rfl, rfl, rfl⟩
  have hlength := congrArg length h.order
  rw [length_map, length_append, ← h.committed, ← h.applied] at hlength
  refine ⟨s, hrun, h.capacity, by omega, (Nat.le_add_right _ _).trans h.positions, h.order, ?_, ?_⟩
  · intro i receipt hget
    have hsequence := congrArg (·[i]?) h.numbered
    rw [List.getElem?_map, hget, List.getElem?_range' (List.getElem?_eq_some_iff.mp hget).1]
      at hsequence
    rw [OwnerQueue.isApplied, Option.some.inj hsequence, decide_eq_true_eq, ← h.applied]
    omega
  · intro input s' hstep
    obtain ⟨_, hstep', -, hnotifies⟩ := h.step input
    rw [hstep] at hstep'
    cases hstep'
    exact hnotifies

end OwnerWorld

end BotsterHub.Causal
