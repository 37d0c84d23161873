import BotsterHub.Lib.Dict

/-!
The ready queue and the deadline index of the owner thread.

A waiter has at most one ready row, to which a second mark adds its reason, and at most one armed
deadline; the last one that fired is kept until the waiter is retired. The order of service is
left open.
-/

namespace BotsterHub.Owner

open AList

inductive ReadyClass where
  | controlIngress
  | cleanup
  | coreCompletion
  | hostCompletion
  | pluginCompletion
  | deadline
  | observe
  | inventoryReconcile
  | journalPull
  | projectionApply
  | baseline
  | hostBridge
  | subscriberDelivery
  | providerResync
  | packageEventDelivery
deriving DecidableEq

inductive ReadyReason where
  | initial
  | signal
  | coreCompletion
  | pluginCompletion
  | hostCompletion
  | deadline
deriving DecidableEq

structure ReadyKey where
  readyClass : ReadyClass
  enqueueSerial : ℕ
  waiterId : ℕ
deriving DecidableEq

/-- The reasons are a bit set in the code. -/
structure QueuedReady (ρ : Type) where
  key : ReadyKey
  reasons : Finset ρ
deriving DecidableEq

/-- The rows of the queued waiters. -/
structure ReadyQueues (ρ : Type) where
  queued : Dict ℕ (QueuedReady ρ) := ∅
  nextEnqueueSerial : ℕ := 0

namespace ReadyQueues

variable {ρ : Type} {q : ReadyQueues ρ} {waiterId o : ℕ}

def pop (q : ReadyQueues ρ) (waiterId : ℕ) : ReadyQueues ρ :=
  { q with queued := q.queued.erase waiterId }

def remove (q : ReadyQueues ρ) (key : ReadyKey) : ReadyQueues ρ :=
  if (q.queued.lookup key.waiterId).map QueuedReady.key = some key then q.pop key.waiterId
  else q

theorem lookup_pop (q : ReadyQueues ρ) (waiterId o : ℕ) : (q.pop waiterId).queued.lookup o =
      if o = waiterId then none else q.queued.lookup o :=
  lookup_erase_eq ..

theorem lookup_remove_of_ne (hne : o ≠ key.waiterId) :
    (q.remove key).queued.lookup o = q.queued.lookup o := by
  unfold remove
  split
  · rw [lookup_pop, if_neg hne]
  · rfl

theorem lookup_remove_self (hk : ∀ row, q.queued.lookup key.waiterId = some row → row.key = key) :
    (q.remove key).queued.lookup key.waiterId = none := by
  unfold remove
  split
  · rw [lookup_pop, if_pos rfl]
  next hne =>
  cases hr : q.queued.lookup key.waiterId with
  | none => rfl
  | some row =>
    rw [hr] at hne
    exact absurd (congrArg some (hk row hr)) hne

variable [DecidableEq ρ]

def mark (q : ReadyQueues ρ) (waiterId : ℕ) (readyClass : ReadyClass) (reasons : Finset ρ) :
    ReadyKey × ReadyQueues ρ :=
  match q.queued.lookup waiterId with
  | some row =>
    (row.key, { q with queued := q.queued.insert waiterId ⟨row.key, row.reasons ∪ reasons⟩ })
  | none =>
    let key : ReadyKey := ⟨readyClass, q.nextEnqueueSerial + 1, waiterId⟩
    (key, ⟨q.queued.insert waiterId ⟨key, reasons⟩, q.nextEnqueueSerial + 1⟩)

def marked (row : Option (QueuedReady ρ)) (key : ReadyKey) (reasons : Finset ρ) : QueuedReady ρ :=
  ⟨key, row.elim ∅ QueuedReady.reasons ∪ reasons⟩

theorem lookup_mark (q : ReadyQueues ρ) (waiterId : ℕ) (r : ReadyClass) (reasons : Finset ρ)
    (o : ℕ) : (q.mark waiterId r reasons).2.queued.lookup o =
      if o = waiterId then
        some (marked (q.queued.lookup waiterId) (q.mark waiterId r reasons).1 reasons)
      else q.queued.lookup o := by
  unfold mark marked
  cases hr : q.queued.lookup waiterId with
  | some => exact lookup_insert_eq _ _ _ _
  | none =>
    rw [Option.elim_none, Finset.empty_union]
    exact lookup_insert_eq _ _ _ _

theorem key_mark_of_queued (hr : q.queued.lookup waiterId = some row)
    (r : ReadyClass) (reasons : Finset ρ) :
    (q.mark waiterId r reasons).1 = row.key := by
  unfold mark
  rw [hr]

theorem waiterId_mark (hr : ∀ row, q.queued.lookup waiterId = some row →
    row.key.waiterId = waiterId) (r : ReadyClass) (reasons : Finset ρ) :
    (q.mark waiterId r reasons).1.waiterId = waiterId := by
  cases hl : q.queued.lookup waiterId with
  | some row =>
    rw [key_mark_of_queued hl]
    exact hr row hl
  | none =>
    unfold mark
    rw [hl]

end ReadyQueues

structure DeadlineState where
  armed : Option ℕ
  lastFired : Option ℕ
deriving DecidableEq

structure DeadlineIndex where
  states : Dict ℕ DeadlineState

namespace DeadlineIndex

def new : DeadlineIndex := ⟨∅⟩

/-- Arm or re-arm one waiter. `none`: the deadline is not after the one that fired. -/
def arm (d : DeadlineIndex) (waiterId deadline : ℕ) : Option DeadlineIndex :=
  let state := (d.states.lookup waiterId).getD ⟨none, none⟩
  if state.lastFired.any (fun fired => deadline ≤ fired) then none
  else some ⟨d.states.insert waiterId ⟨some deadline, state.lastFired⟩⟩

def retire (d : DeadlineIndex) (waiterId : ℕ) : DeadlineIndex := ⟨d.states.erase waiterId⟩

/-- `pop_due`, when the deadline of `waiterId` is the next one and is due. -/
def popDue (d : DeadlineIndex) (waiterId now : ℕ) : Option DeadlineIndex :=
  match (d.states.lookup waiterId).bind DeadlineState.armed with
  | some deadline =>
    if deadline ≤ now then some ⟨d.states.insert waiterId ⟨none, some deadline⟩⟩ else none
  | none => none

variable {d d' : DeadlineIndex} {w o : ℕ}

theorem arm_of_none (h : d.states.lookup w = none) (deadline : ℕ) :
    d.arm w deadline = some ⟨d.states.insert w ⟨some deadline, none⟩⟩ := by
  unfold arm
  rw [h]
  rfl

theorem lookup_retire (d : DeadlineIndex) (w o : ℕ) : (d.retire w).states.lookup o =
      if o = w then none else d.states.lookup o :=
  lookup_erase_eq ..

theorem lookup_popDue (h : d.popDue w now = some d') : (d.states.lookup w).isSome ∧
      ∀ o, o ≠ w → d'.states.lookup o = d.states.lookup o := by
  unfold popDue at h
  split at h
  · next ha =>
    split at h
    · cases h
      obtain ⟨state, hs, -⟩ := Option.bind_eq_some_iff.mp ha
      refine ⟨hs ▸ rfl, fun o hne => ?_⟩
      rw [lookup_insert_eq, if_neg hne]
    · cases h
  · cases h

end DeadlineIndex

end BotsterHub.Owner
