import Mathlib.Algebra.BigOperators.Group.Multiset.Basic
import Mathlib.Algebra.GroupWithZero.Nat
import Mathlib.Algebra.Order.BigOperators.Group.Multiset
import Mathlib.Algebra.Order.Group.Nat

/-!
The memory account of Lua callbacks (`lua_memory.rs`), shared by all callbacks of a Hub. An
operation grows, shrinks and divides the charge it is admitted with, below the ceiling of that
first charge.
-/

namespace BotsterHub.Lua

open Multiset

structure LuaMemoryLimits where
  perCallbackBytes : ℕ
  totalCallbackBytes : ℕ

inductive LuaMemoryClass where
  | vm
  | callback

structure LuaMemoryCapacityError where
  memoryClass : LuaMemoryClass
  requested : ℕ
  available : ℕ

inductive LuaCallbackAdmissionError where
  | quota
  | capacity (error : LuaMemoryCapacityError)

inductive LuaCallbackGrowthError where
  | isSealed
  | quota
  | capacity (error : LuaMemoryCapacityError)

inductive ChargeGrowth where
  | opened (ceiling : ℕ)
  | isSealed
deriving DecidableEq

/-- `LuaCallbackCharge`; its account is the one of the state that holds it. -/
structure LuaCallbackCharge where
  bytes : ℕ
  growth : ChargeGrowth
deriving DecidableEq

def checkedAdd (a b : ℕ) : Option ℕ := if a + b < 2 ^ 64 then some (a + b) else none

/-- `fetch_sub` of an atomic `usize`, which wraps. -/
def fetchSub (used released : ℕ) : ℕ :=
  if released ≤ used then used - released else used + 2 ^ 64 - released

/-- `reserve`: the result, and the usage that its last exchange or load leaves. -/
def reserve (used requested capacity : ℕ) (memoryClass : LuaMemoryClass) :
    Except LuaMemoryCapacityError Unit × ℕ :=
  match (checkedAdd used requested).filter (· ≤ capacity) with
  | some next => (.ok (), next)
  | none => (.error ⟨memoryClass, requested, capacity - used⟩, used)

variable (limits : LuaMemoryLimits)

def reserveCharge (growth : ChargeGrowth) (bytes used : ℕ) :
    Except LuaMemoryCapacityError LuaCallbackCharge × ℕ :=
  let r := reserve used bytes limits.totalCallbackBytes .callback
  (r.1.map fun _ => ⟨bytes, growth⟩, r.2)

def reserveCallbackTotal (bytes used : ℕ) :
    Except LuaCallbackAdmissionError LuaCallbackCharge × ℕ :=
  if bytes > limits.perCallbackBytes then (.error .quota, used)
  else
    let r := reserveCharge limits (.opened limits.perCallbackBytes) bytes used
    (r.1.mapError .capacity, r.2)

def reserveSharedCallbackStorage (bytes used : ℕ) :
    Except LuaMemoryCapacityError LuaCallbackCharge × ℕ :=
  reserveCharge limits .isSealed bytes used

def reserveCallbackBytes (bytes used : ℕ) : Except LuaMemoryCapacityError LuaCallbackCharge × ℕ :=
  if bytes > limits.perCallbackBytes then
    (.error ⟨.callback, bytes, limits.perCallbackBytes⟩, used)
  else reserveCharge limits .isSealed bytes used

namespace LuaCallbackCharge

def grow (additional used : ℕ) (c : LuaCallbackCharge) :
    Except LuaCallbackGrowthError Unit × ℕ × LuaCallbackCharge :=
  match c.growth with
  | .isSealed => (.error .isSealed, used, c)
  | .opened ceiling =>
    match (checkedAdd c.bytes additional).filter (· ≤ ceiling) with
    | none => (.error .quota, used, c)
    | some next =>
      match reserve used additional limits.totalCallbackBytes .callback with
      | (.ok _, used) => (.ok (), used, { c with bytes := next })
      | (.error e, used) => (.error (.capacity e), used, c)

def shrinkTo (nextBytes used : ℕ) (c : LuaCallbackCharge) : Bool × ℕ × LuaCallbackCharge :=
  if nextBytes ≤ c.bytes then
    (true, fetchSub used (c.bytes - nextBytes), { c with bytes := nextBytes })
  else (false, used, c)

def splitFixed (bytes : ℕ) (c : LuaCallbackCharge) : LuaCallbackCharge × Option LuaCallbackCharge :=
  match c.growth with
  | .isSealed => (c, none)
  | .opened ceiling =>
    if bytes ≤ c.bytes ∧ bytes ≤ ceiling then
      (⟨c.bytes - bytes, .opened (ceiling - bytes)⟩, some ⟨bytes, .isSealed⟩)
    else (c, none)

def split (bytes : ℕ) (c : LuaCallbackCharge) : LuaCallbackCharge × Option LuaCallbackCharge :=
  if bytes > c.bytes then (c, none)
  else (⟨c.bytes - bytes, .isSealed⟩, some ⟨bytes, .isSealed⟩)

end LuaCallbackCharge

inductive ChargeOp where
  | grow (additional : ℕ)
  | shrinkTo (nextBytes : ℕ)
  | splitFixed (bytes : ℕ)
  | split (bytes : ℕ)
  | drop

def LuaCallbackCharge.apply (used : ℕ) (c : LuaCallbackCharge) :
    ChargeOp → Bool × ℕ × List LuaCallbackCharge
  | .grow additional =>
    let r := c.grow limits additional used
    (r.1.isOk, r.2.1, [r.2.2])
  | .shrinkTo nextBytes =>
    let r := c.shrinkTo nextBytes used
    (r.1, r.2.1, [r.2.2])
  | .splitFixed bytes =>
    let r := c.splitFixed bytes
    (r.2.isSome, used, r.1 :: r.2.toList)
  | .split bytes =>
    let r := c.split bytes
    (r.2.isSome, used, r.1 :: r.2.toList)
  | .drop => (true, fetchSub used c.bytes, [])

structure Held where
  operation : Option ℕ
  charge : LuaCallbackCharge
deriving DecidableEq

structure MemoryState where
  callbackBytes : ℕ
  charges : Multiset Held
  nextOperation : ℕ

inductive MemoryOp where
  | reserveCallbackTotal (bytes : ℕ)
  | reserveCallbackBytes (bytes : ℕ)
  | reserveSharedCallbackStorage (bytes : ℕ)
  | onCharge (held : Held) (op : ChargeOp)

namespace MemoryState

def reserved {ε : Type} (s : MemoryState) (operation : Option ℕ)
    (r : Except ε LuaCallbackCharge × ℕ) : Bool × MemoryState :=
  match r.1 with
  | .error _ => (false, { s with callbackBytes := r.2 })
  | .ok charge => (true, ⟨r.2, s.charges + {⟨operation, charge⟩}, s.nextOperation + 1⟩)

theorem reserved_mapError {ε δ : Type} (f : ε → δ) (s : MemoryState) (operation : Option ℕ)
    (r : Except ε LuaCallbackCharge × ℕ) :
    s.reserved operation (r.1.mapError f, r.2) = s.reserved operation r := by
  obtain ⟨_ | _, _⟩ := r <;> rfl

def step (s : MemoryState) : MemoryOp → Bool × MemoryState
  | .reserveCallbackTotal bytes =>
    s.reserved (some s.nextOperation) (Lua.reserveCallbackTotal limits bytes s.callbackBytes)
  | .reserveCallbackBytes bytes =>
    s.reserved (some s.nextOperation) (Lua.reserveCallbackBytes limits bytes s.callbackBytes)
  | .reserveSharedCallbackStorage bytes =>
    s.reserved none (Lua.reserveSharedCallbackStorage limits bytes s.callbackBytes)
  | .onCharge held op =>
    if held ∈ s.charges then
      let r := held.charge.apply limits s.callbackBytes op
      (r.1, { s with
        callbackBytes := r.2.1
        charges := s.charges.erase held + (r.2.2.map (Held.mk held.operation) : List Held) })
    else (false, s)

def run (ops : List MemoryOp) : MemoryState :=
  ops.foldl (fun s op => (s.step limits op).2) ⟨0, 0, 0⟩

end MemoryState

def LuaCallbackCharge.room (c : LuaCallbackCharge) : ℕ :=
  match c.growth with
  | .opened ceiling => ceiling
  | .isSealed => c.bytes

theorem reserve_cases (used requested capacity : ℕ) (k : LuaMemoryClass) :
    (reserve used requested capacity k = (.ok (), used + requested) ∧
      used + requested ≤ capacity ∧ used + requested < 2 ^ 64) ∨
    ∃ e, reserve used requested capacity k = (.error e, used) := by
  unfold reserve
  split
  · next h =>
    obtain ⟨ha, hle⟩ := Option.filter_eq_some_iff.mp h
    unfold checkedAdd at ha
    split at ha <;> cases ha
    exact .inl ⟨rfl, of_decide_eq_true hle, ‹_›⟩
  · exact .inr ⟨_, rfl⟩

/-- The charges of `r` take the place of `c`, and the room of `c` is only divided. -/
structure Replaces (used : ℕ) (c : LuaCallbackCharge) (r : Bool × ℕ × List LuaCallbackCharge) :
    Prop where
  usage : r.2.1 + c.bytes = used + (r.2.2.map (·.bytes)).sum
  le_total : r.2.1 ≤ limits.totalCallbackBytes
  room : (r.2.2.map (·.room)).sum ≤ c.room
  fits : ∀ c' ∈ r.2.2, c'.bytes ≤ c'.room
  refused : r.1 = false → r.2 = (used, [c])

variable {limits}

theorem LuaCallbackCharge.apply_replaces (c : LuaCallbackCharge) (op : ChargeOp)
    (hu : c.bytes ≤ used) (h : c.bytes ≤ c.room) (ht : used ≤ limits.totalCallbackBytes) :
    Replaces limits used c (c.apply limits used op) := by
  have hrefuse (b : Bool) : Replaces limits used c (b, used, [c]) := by
    constructor <;> simp [h, ht]
  have hsub {n : ℕ} (hn : n ≤ used) : fetchSub used n = used - n := if_pos hn
  cases op with
  | grow n =>
    simp only [apply, grow]
    split
    · exact hrefuse _
    split
    · exact hrefuse _
    next ceiling hg next hn =>
    obtain ⟨ha, hle⟩ := Option.filter_eq_some_iff.mp hn
    unfold checkedAdd at ha
    split at ha <;> cases ha
    rcases reserve_cases used n limits.totalCallbackBytes .callback with ⟨hr, htotal, -⟩ | ⟨e, hr⟩
    · rw [hr]
      constructor <;> simp_all [room, Except.isOk, Except.toBool]
      omega
    · rw [hr]
      exact hrefuse _
  | shrinkTo n =>
    simp only [apply, shrinkTo]
    split
    · rw [hsub (by omega)]
      constructor <;> cases hg : c.growth <;> simp_all [room] <;> omega
    · exact hrefuse _
  | splitFixed n =>
    simp only [apply, splitFixed]
    split
    · exact hrefuse _
    split
    · constructor <;> simp_all [room]
    · exact hrefuse _
  | split n =>
    simp only [apply, LuaCallbackCharge.split]
    split
    · exact hrefuse _
    · constructor <;> simp_all [room]
  | drop =>
    constructor <;> simp [apply, hsub hu] <;> omega

namespace MemoryState

def share (n : ℕ) (held : Held) : ℕ := if held.operation = some n then held.charge.room else 0

structure Kept (limits : LuaMemoryLimits) (s : MemoryState) : Prop where
  usage : s.callbackBytes = (s.charges.map (·.charge.bytes)).sum
  le_total : s.callbackBytes ≤ limits.totalCallbackBytes
  fits : ∀ held ∈ s.charges, held.charge.bytes ≤ held.charge.room
  room : ∀ n, (s.charges.map (share n)).sum ≤ limits.perCallbackBytes
  fresh : ∀ held ∈ s.charges, ∀ n ∈ held.operation, n < s.nextOperation

variable {s : MemoryState}

theorem Kept.onCharge (h : Kept limits s) (held : Held) (op : ChargeOp) :
    let r := s.step limits (.onCharge held op)
    Kept limits r.2 ∧ (r.1 = false → r.2 = s) := by
  simp only [step]
  split
  case isFalse => exact ⟨h, fun _ => rfl⟩
  case isTrue hm =>
  obtain ⟨rest, hrest⟩ := exists_cons_of_mem hm
  have hu := h.usage
  rw [hrest, map_cons, sum_cons] at hu
  have hr := held.charge.apply_replaces op (by omega) (h.fits held hm) h.le_total
  generalize held.charge.apply limits s.callbackBytes op = r at hr
  have hfits := h.fits
  have hfresh := h.fresh
  simp only [hrest, mem_cons, forall_eq_or_imp] at hfits hfresh
  rw [hrest, erase_cons_head]
  refine ⟨⟨?_, hr.le_total, ?_, fun n => ?_, ?_⟩, fun ha => ?_⟩
  · have := hr.usage
    simp only [map_add, sum_add, map_coe, sum_coe, List.map_map, Function.comp_def]
    omega
  · simpa [or_imp, forall_and] using ⟨hfits.2, hr.fits⟩
  · have hroom := h.room n
    have := hr.room
    simp only [hrest, map_add, sum_add, map_cons, sum_cons, map_coe, sum_coe, List.map_map,
      Function.comp_def, share] at hroom ⊢
    split at hroom <;> simp_all
    omega
  · simpa [or_imp, forall_and] using ⟨hfresh.2, fun _ _ => hfresh.1⟩
  · have hback : rest + {held} = s.charges := by rw [hrest, add_comm, singleton_add]
    rw [hr.refused ha]
    exact congrArg (MemoryState.mk s.callbackBytes · s.nextOperation) hback

theorem Kept.reserved {growth : ChargeGrowth} (h : Kept limits s)
    (ho : ∀ n ∈ operation, n = s.nextOperation)
    (hfits : bytes ≤ LuaCallbackCharge.room ⟨bytes, growth⟩) (hroom : operation.isSome →
      LuaCallbackCharge.room ⟨bytes, growth⟩ ≤ limits.perCallbackBytes) :
    let r := s.reserved operation (reserveCharge limits growth bytes s.callbackBytes)
    Kept limits r.2 ∧ (r.1 = false → r.2 = s) := by
  unfold reserveCharge
  rcases reserve_cases s.callbackBytes bytes limits.totalCallbackBytes .callback
    with ⟨hr, ht, -⟩ | ⟨e, hr⟩ <;> rw [hr]
  case inr => exact ⟨h, fun _ => rfl⟩
  refine ⟨⟨?_, ht, ?_, fun n => ?_, ?_⟩, nofun⟩
  · simp [MemoryState.reserved, Except.map, ← h.usage]
  · simpa [MemoryState.reserved, Except.map, or_imp, forall_and] using ⟨h.fits, hfits⟩
  · have := h.room n
    by_cases hn : operation = some n
    · -- no other charge is of the new operation
      have hnone : (s.charges.map (share n)).sum = 0 := by
        refine sum_eq_zero fun m hm => ?_
        obtain ⟨held, hheld, rfl⟩ := mem_map.mp hm
        exact if_neg fun he => (h.fresh held hheld n he).ne (ho n hn)
      simp_all [MemoryState.reserved, Except.map, share]
    · simpa [MemoryState.reserved, Except.map, share, hn] using this
  · intro held hm n hn
    rcases mem_add.mp hm with hm | hm
    · exact (h.fresh held hm n hn).trans (Nat.lt_succ_self _)
    · rw [mem_singleton.mp hm] at hn
      exact (ho n hn).trans_lt (Nat.lt_succ_self _)

theorem Kept.step (h : Kept limits s) (op : MemoryOp) : let r := s.step limits op
    Kept limits r.2 ∧ (r.1 = false → r.2 = s) := by
  cases op with
  | onCharge held op => exact h.onCharge held op
  | reserveCallbackTotal bytes =>
    simp only [MemoryState.step, Lua.reserveCallbackTotal]
    split
    · exact ⟨h, fun _ => rfl⟩
    next hle =>
    rw [reserved_mapError]
    exact h.reserved (by simp) (not_lt.mp hle) fun _ => le_rfl
  | reserveCallbackBytes bytes =>
    simp only [MemoryState.step, Lua.reserveCallbackBytes]
    split
    · exact ⟨h, fun _ => rfl⟩
    next hle => exact h.reserved (by simp) le_rfl fun _ => not_lt.mp hle
  | reserveSharedCallbackStorage bytes => exact h.reserved nofun le_rfl nofun

/-- The usage is what the live charges hold, within the total; an operation and its parts stay
within the ceiling of a callback. A refusal changes nothing, and without charges nothing is used. -/
theorem run_charges (limits : LuaMemoryLimits) (ops : List MemoryOp) : let s := run limits ops
    s.callbackBytes = (s.charges.map (·.charge.bytes)).sum ∧
      s.callbackBytes ≤ limits.totalCallbackBytes ∧ (∀ n, (s.charges.map fun held =>
        if held.operation = some n then held.charge.bytes else 0).sum ≤ limits.perCallbackBytes) ∧
      (∀ op, (s.step limits op).1 = false → (s.step limits op).2 = s) ∧
      (s.charges = 0 → s.callbackBytes = 0) := by
  have h : Kept limits (run limits ops) := by
    refine List.foldlRecOn (motive := Kept limits) ops _ ?_ fun _ h op _ => (h.step op).1
    constructor <;> simp
  refine ⟨h.usage, h.le_total, fun n => ?_, fun op => (h.step op).2, fun hc => ?_⟩
  · refine (sum_map_le_sum_map _ _ fun held hm => ?_).trans (h.room n)
    unfold share
    split
    · exact h.fits held hm
    · rfl
  · rw [h.usage, hc]
    rfl

end MemoryState

end BotsterHub.Lua
