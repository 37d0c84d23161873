import BotsterHub.Lib.Machine
import BotsterHub.Lua.Memory
import Mathlib.Data.PNat.Basic

/-!
Collections whose storage is charged to the account (`lua_memory/charged_collection.rs`). The
charge is for the capacity: growth pays for the new one while the old one is still charged, and a
reserved slot is capacity that ordinary pushes leave alone.
-/

namespace BotsterHub.Lua

/-- `ChargedVec`; a `ChargedVecDeque` is one without reserved slots. -/
structure ChargedVec (α : Type) where
  buf : List α
  capacity : ℕ
  capacityCharge : Option LuaCallbackCharge
  reserved : ℕ

def nextCapacity (current : ℕ) : ℕ := if current = 0 then 1 else min (current * 2) (2 ^ 64 - 1)

def chargeBytes (charge : Option LuaCallbackCharge) : ℕ := charge.elim 0 (·.bytes)

variable {α : Type} (limits : LuaMemoryLimits) (size : ℕ+)

def chargedBytes (capacity : ℕ) : Except LuaMemoryCapacityError ℕ :=
  if capacity * size < 2 ^ 64 then .ok (capacity * size) else .error ⟨.callback, 2 ^ 64 - 1, 0⟩

def reserveFailed (newCap : ℕ) : LuaMemoryCapacityError :=
  ⟨.callback, min (size * newCap) (2 ^ 64 - 1), 0⟩

namespace ChargedVec

/-- `grow_exact_std`. The allocator fails or gives the capacity asked for; a charge not needed is
dropped. -/
def grow (allocates : Bool) (used : ℕ) (v : ChargedVec α) :
    Except LuaMemoryCapacityError Unit × ℕ × ChargedVec α :=
  let newCap := nextCapacity v.capacity
  match chargedBytes size newCap with
  | .error e => (.error e, used, v)
  | .ok newBytes =>
    match reserveSharedCallbackStorage limits newBytes used with
    | (.error e, used) => (.error e, used, v)
    | (.ok newCharge, used) =>
      if allocates then
        (.ok (), fetchSub used (chargeBytes v.capacityCharge),
          { v with capacity := newCap, capacityCharge := some newCharge })
      else (.error (reserveFailed size newCap), fetchSub used newCharge.bytes, v)

def preparePush (allocates : Bool) (used : ℕ) (v : ChargedVec α) :
    Except LuaMemoryCapacityError Unit × ℕ × ChargedVec α :=
  if v.buf.length + v.reserved < v.capacity then (.ok (), used, v)
  else v.grow limits size allocates used

/-- `Vec::push`; `none` is a push that would reallocate, past the charge. -/
def push (item : α) (v : ChargedVec α) : Option (ChargedVec α) :=
  if v.buf.length < v.capacity then some { v with buf := v.buf ++ [item] } else none

/-- `push_reserved`; `none` also stands for its failed assertion. -/
def pushReserved (item : α) (v : ChargedVec α) : Option (ChargedVec α) :=
  if v.reserved > 0 then { v with reserved := v.reserved - 1 }.push item else none

def cancelSlot (v : ChargedVec α) : ChargedVec α := { v with reserved := v.reserved - 1 }

end ChargedVec

structure CollectionState (α : Type) where
  used : ℕ
  vec : ChargedVec α
  armed : ℕ

inductive CollectionOp (α : Type) where
  | push (item : α) (allocates : Bool)
  | pop
  | popFront
  | reserveSlot (allocates : Bool)
  | insertReserved (item : α)
  | cancelSlot
  | others (used : ℕ)

namespace CollectionState

def step (s : CollectionState α) : CollectionOp α → Option (Bool × CollectionState α)
  | .push item allocates =>
    match s.vec.preparePush limits size allocates s.used with
    | (.error _, used, vec) => some (false, ⟨used, vec, s.armed⟩)
    | (.ok _, used, vec) => (vec.push item).map fun vec => (true, ⟨used, vec, s.armed⟩)
  | .pop => some (true, { s with vec.buf := s.vec.buf.dropLast })
  | .popFront => some (true, { s with vec.buf := s.vec.buf.tail })
  | .reserveSlot allocates =>
    match s.vec.preparePush limits size allocates s.used with
    | (.error _, used, vec) => some (false, ⟨used, vec, s.armed⟩)
    | (.ok _, used, vec) =>
      some (true, ⟨used, { vec with reserved := vec.reserved + 1 }, s.armed + 1⟩)
  | .insertReserved item =>
    if s.armed = 0 then some (false, s)
    else (s.vec.pushReserved item).map fun vec => (true, ⟨s.used, vec, s.armed - 1⟩)
  | .cancelSlot =>
    if s.armed = 0 then some (false, s) else some (true, ⟨s.used, s.vec.cancelSlot, s.armed - 1⟩)
  | .others used =>
    if used < chargeBytes s.vec.capacityCharge then some (false, s)
    else some (true, { s with used })

def run (ops : List (CollectionOp α)) : Option (CollectionState α) :=
  ops.foldlM (fun s op => (s.step limits size op).map Prod.snd) ⟨0, ⟨[], 0, none, 0⟩, 0⟩

structure Kept (size : ℕ+) (s : CollectionState α) : Prop where
  charge : chargeBytes s.vec.capacityCharge = s.vec.capacity * size
  slots : s.vec.buf.length + s.vec.reserved ≤ s.vec.capacity
  armed : s.vec.reserved = s.armed
  used : chargeBytes s.vec.capacityCharge ≤ s.used

variable {limits} {size} {s : CollectionState α}

theorem le_nextCapacity (n : ℕ) : min (n + 1) (2 ^ 64 - 1) ≤ nextCapacity n := by
  unfold nextCapacity
  split <;> omega

theorem Kept.preparePush (limits : LuaMemoryLimits) (h : Kept size s) (allocates : Bool) :
    (∃ e, s.vec.preparePush limits size allocates s.used = (.error e, s.used, s.vec)) ∨
      ∃ used vec, s.vec.preparePush limits size allocates s.used = (.ok (), used, vec) ∧
        Kept size ⟨used, vec, s.armed⟩ ∧ vec.buf.length + vec.reserved < vec.capacity := by
  unfold ChargedVec.preparePush
  split
  case isTrue hlt => exact .inr ⟨_, _, rfl, h, hlt⟩
  case isFalse hfull =>
  simp only [ChargedVec.grow, chargedBytes, reserveSharedCallbackStorage, reserveCharge]
  by_cases hb : nextCapacity s.vec.capacity * size < 2 ^ 64
  case neg =>
    rw [if_neg hb]
    exact .inl ⟨_, rfl⟩
  rw [if_pos hb]
  dsimp only
  rcases reserve_cases s.used (nextCapacity s.vec.capacity * size) limits.totalCallbackBytes
    .callback with ⟨hr, -, hlt⟩ | ⟨e, hr⟩ <;> rw [hr]
  case inr => exact .inl ⟨e, rfl⟩
  cases allocates with
  | false =>
    refine .inl ⟨reserveFailed size (nextCapacity s.vec.capacity), ?_⟩
    simp [Except.map, fetchSub]
  | true =>
    have hu := h.used
    have hslots := h.slots
    -- the old capacity is still charged, so the doubling has not saturated
    have hcap : s.vec.capacity < nextCapacity s.vec.capacity := by
      have := h.charge
      have := Nat.le_mul_of_pos_right s.vec.capacity size.pos
      have := Nat.le_mul_of_pos_right (nextCapacity s.vec.capacity) size.pos
      have := le_nextCapacity s.vec.capacity
      omega
    refine .inr ⟨_, _, rfl, ⟨rfl, hslots.trans hcap.le, h.armed, ?_⟩, hslots.trans_lt hcap⟩
    have hsub : fetchSub (s.used + nextCapacity s.vec.capacity * size)
        (chargeBytes s.vec.capacityCharge) = _ := if_pos (by omega)
    change nextCapacity s.vec.capacity * size ≤ fetchSub _ _
    rw [hsub]
    omega

theorem Kept.step (limits : LuaMemoryLimits) (h : Kept size s) (op : CollectionOp α) :
    ∃ b s', s.step limits size op = some (b, s') ∧ Kept size s' ∧ (b = false → s' = s) := by
  have hslots := h.slots
  have harmed := h.armed
  cases op with
  | push item allocates =>
    rcases h.preparePush limits allocates with ⟨e, hp⟩ | ⟨used, vec, hp, hk, hlt⟩
    · exact ⟨false, s, by simp only [CollectionState.step, hp], h, fun _ => rfl⟩
    · have hpush : vec.push item = some { vec with buf := vec.buf ++ [item] } := if_pos (by omega)
      refine ⟨true, ⟨used, { vec with buf := vec.buf ++ [item] }, s.armed⟩, ?_,
        ⟨hk.charge, by simp; omega, hk.armed, hk.used⟩, nofun⟩
      simp only [CollectionState.step, hp, hpush, Option.map_some]
  | pop => exact ⟨true, _, rfl, ⟨h.charge, by simp; omega, h.armed, h.used⟩, nofun⟩
  | popFront => exact ⟨true, _, rfl, ⟨h.charge, by simp; omega, h.armed, h.used⟩, nofun⟩
  | reserveSlot allocates =>
    rcases h.preparePush limits allocates with ⟨e, hp⟩ | ⟨used, vec, hp, hk, hlt⟩
    · exact ⟨false, s, by simp only [CollectionState.step, hp], h, fun _ => rfl⟩
    · refine ⟨true, ⟨used, { vec with reserved := vec.reserved + 1 }, s.armed + 1⟩, ?_,
        ⟨hk.charge, hlt, congrArg (· + 1) hk.armed, hk.used⟩, nofun⟩
      simp only [CollectionState.step, hp]
  | insertReserved item =>
    by_cases ha : s.armed = 0
    · exact ⟨false, s, if_pos ha, h, fun _ => rfl⟩
    · have hpush : s.vec.pushReserved item =
          some { s.vec with buf := s.vec.buf ++ [item], reserved := s.vec.reserved - 1 } :=
        (if_pos (by omega)).trans (if_pos (by dsimp only; omega))
      refine ⟨true, _, (if_neg ha).trans (congrArg _ hpush),
        ⟨h.charge, ?_, congrArg (· - 1) h.armed, h.used⟩, nofun⟩
      simp
      omega
  | cancelSlot =>
    by_cases ha : s.armed = 0
    · exact ⟨false, s, if_pos ha, h, fun _ => rfl⟩
    · exact ⟨true, _, if_neg ha, ⟨h.charge, by dsimp only [ChargedVec.cancelSlot]; omega,
        congrArg (· - 1) h.armed, h.used⟩, nofun⟩
  | others used =>
    by_cases hu : used < chargeBytes s.vec.capacityCharge
    · exact ⟨false, s, if_pos hu, h, fun _ => rfl⟩
    · exact ⟨true, _, if_neg hu, ⟨h.charge, h.slots, h.armed, not_lt.mp hu⟩, nofun⟩

/-- No run pushes past its charge or fails; elements and reserved slots fit the charged capacity,
and a refusal changes nothing. -/
theorem run_charged (limits : LuaMemoryLimits) (size : ℕ+) (ops : List (CollectionOp α)) :
    ∃ s, run limits size ops = some s ∧ chargeBytes s.vec.capacityCharge = s.vec.capacity * size ∧
      s.vec.buf.length + s.vec.reserved ≤ s.vec.capacity ∧ s.vec.reserved = s.armed ∧
      ∀ op s', s.step limits size op = some (false, s') → s' = s := by
  obtain ⟨s, hs, h⟩ : ∃ s, run limits size ops = some s ∧ Kept size s := by
    refine Machine.run_rest (I := fun _ => Kept size) (fun op _ s h => ?_) ops _ ?_
    · obtain ⟨b, s', hstep, hk, -⟩ := h.step limits op
      exact ⟨s', by rw [hstep]; rfl, hk⟩
    · exact ⟨(zero_mul _).symm, le_rfl, rfl, le_rfl⟩
  refine ⟨s, hs, h.charge, h.slots, h.armed, fun op s' hop => ?_⟩
  obtain ⟨b, s'', hstep, -, hb⟩ := h.step limits op
  obtain ⟨rfl, rfl⟩ := Prod.mk.inj (Option.some.inj (hop.symm.trans hstep))
  exact hb rfl

end CollectionState

end BotsterHub.Lua
