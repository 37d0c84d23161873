import BotsterHub.Lib.Dict
import BotsterHub.Lib.Machine
import Mathlib.Data.Fintype.BigOperators

/-!
The channels of one WebRTC connection. A subscription channel takes one of 32 slots and keeps its
buffered bytes there. What is authorized beside them is an input; waiters and the control channel
are left out.
-/

namespace BotsterHub.Attach

open Multiset

def maxControlChannels : ℕ := 1

def maxSubscriptionChannels : ℕ := 32

instance : NeZero maxSubscriptionChannels := ⟨by decide⟩

def maxTotalChannels : ℕ := maxControlChannels + maxSubscriptionChannels

def aggregateBufferedHigh : ℕ := 2097152

inductive ChannelClass where
  | control
  | terminal
  | entity
  | event
  deriving DecidableEq

inductive ChannelBudgetError where
  | channelLimit
  | aggregateBuffered

structure ChannelUsage where
  channelClass : ChannelClass
  aggregateSlot : Option (Fin maxSubscriptionChannels)

structure ConnectionBudget where
  channels : Dict String ChannelUsage := ∅
  slots : Fin maxSubscriptionChannels → ℕ := fun _ => 0

inductive ChannelOp where
  | reserve (label : String) (channelClass : ChannelClass) (authorized : ℕ)
  | release (label : String)
  /-- The driver of the channel stores through the slot that it was given. -/
  | publish (label : String) (slot : Fin maxSubscriptionChannels) (bytes : ℕ)

namespace ConnectionBudget

variable (b : ConnectionBudget) (label : String)

def count (p : ChannelClass → Bool) : ℕ :=
  b.channels.total fun usage => (p usage.channelClass).toNat

def taken : Multiset (Fin maxSubscriptionChannels) :=
  b.channels.total fun usage => usage.aggregateSlot.elim 0 ({·})

def publishedBuffered : ℕ := ∑ slot, b.slots slot

def reserve (channelClass : ChannelClass) (authorized : ℕ) :
    ConnectionBudget × Option ChannelBudgetError :=
  if channelClass = .control then
    if maxControlChannels ≤ b.count (· = .control) then (b, some .channelLimit)
    else if maxTotalChannels ≤ b.count fun _ => true then (b, some .channelLimit)
    else ({ b with channels := b.channels.insert label ⟨channelClass, none⟩ }, none)
  else if maxSubscriptionChannels ≤ b.count (· ≠ .control) then (b, some .channelLimit)
  else if maxTotalChannels ≤ b.count fun _ => true then (b, some .channelLimit)
  else if aggregateBufferedHigh ≤ b.publishedBuffered + authorized then (b, some .aggregateBuffered)
  else match (List.finRange _).find? (· ∉ b.taken) with
    | none => (b, some .channelLimit)
    | some slot =>
      (⟨b.channels.insert label ⟨channelClass, some slot⟩, Function.update b.slots slot 0⟩, none)

def release : ConnectionBudget × Bool :=
  match b.channels.lookup label with
  | none => (b, false)
  | some usage =>
    (⟨b.channels.erase label,
      usage.aggregateSlot.elim b.slots fun slot => Function.update b.slots slot 0⟩, true)

/-- The driver keeps the slot when its channel is released. -/
def publish (slot : Fin maxSubscriptionChannels) (bytes : ℕ) : ConnectionBudget :=
  { b with slots := Function.update b.slots slot bytes }

def step : ChannelOp → Option ConnectionBudget
  | .reserve label channelClass authorized => some (b.reserve label channelClass authorized).1
  | .release label => some (b.release label).1
  | .publish _ slot bytes => some (b.publish slot bytes)

/-- A reserved label is not in use, and a driver stores only while its channel lives. -/
def Proper : ChannelOp → Prop
  | .reserve label _ _ => (b.channels.lookup label).isNone
  | .release _ => True
  | .publish label slot _ => (b.channels.lookup label).bind ChannelUsage.aggregateSlot = some slot

instance (b : ConnectionBudget) : ∀ op, Decidable (b.Proper op)
  | .reserve label _ _ => inferInstanceAs (Decidable ((b.channels.lookup label).isNone))
  | .release _ => isTrue trivial
  | .publish label slot _ =>
    inferInstanceAs (Decidable ((b.channels.lookup label).bind ChannelUsage.aggregateSlot = slot))

structure Sound : Prop where
  distinct : b.taken.Nodup
  slotted : ∀ label usage, b.channels.lookup label = some usage →
    usage.channelClass ≠ .control → usage.aggregateSlot.isSome
  control : b.count (· = .control) ≤ maxControlChannels
  subscriptions : b.count (· ≠ .control) ≤ maxSubscriptionChannels
  empty : ∀ slot ∉ b.taken, b.slots slot = 0

section

open AList

variable {b} {label} {usage : ChannelUsage}

theorem Sound.insert (h : Sound b) (usage : ChannelUsage) (hl : b.channels.lookup label = none)
    (hs : ∀ slot ∈ usage.aggregateSlot, slot ∉ b.taken)
    (hc : (usage.channelClass = .control : Bool).toNat + b.count (· = .control) ≤
      maxControlChannels)
    (hn : (usage.channelClass ≠ .control : Bool).toNat + b.count (· ≠ .control) ≤
      maxSubscriptionChannels)
    (hu : usage.channelClass ≠ .control → usage.aggregateSlot.isSome) :
    Sound ⟨b.channels.insert label usage,
      usage.aggregateSlot.elim b.slots fun slot => Function.update b.slots slot 0⟩ := by
  have ht (slots) : taken ⟨b.channels.insert label usage, slots⟩ =
      usage.aggregateSlot.elim 0 ({·}) + b.taken := total_insert_of_none _ _ _ hl
  refine ⟨?_, forall_lookup_insert hu fun l u _ => h.slotted l u, ?_, ?_, fun slot hm => ?_⟩
  · rw [ht]
    cases hslot : usage.aggregateSlot with
    | none => exact (zero_add b.taken).symm ▸ h.distinct
    | some slot => exact nodup_cons.mpr ⟨hs slot hslot, h.distinct⟩
  · exact (total_insert_of_none _ _ _ hl).trans_le hc
  · exact (total_insert_of_none _ _ _ hl).trans_le hn
  · rw [ht, mem_add, not_or] at hm
    cases hslot : usage.aggregateSlot with
    | none => exact h.empty slot hm.2
    | some own =>
      rw [hslot] at hm
      exact (Function.update_of_ne (mt mem_singleton.mpr hm.1) _ _).trans (h.empty slot hm.2)

theorem Sound.reserve (h : Sound b) (hl : b.channels.lookup label = none)
    (channelClass : ChannelClass) (authorized : ℕ) :
    Sound (b.reserve label channelClass authorized).1 := by
  unfold ConnectionBudget.reserve
  split_ifs with hcontrol hfull htotal hfull htotal hhigh
  · exact h
  · exact h
  · have := h.subscriptions
    refine h.insert ⟨channelClass, none⟩ hl nofun ?_ ?_ fun hne => absurd hcontrol hne
    · simpa [hcontrol, Nat.add_comm 1] using Nat.succ_le_of_lt (Nat.lt_of_not_le hfull)
    · simpa [hcontrol] using this
  · exact h
  · exact h
  · exact h
  split
  · exact h
  next slot hfind =>
  have := h.control
  refine h.insert ⟨channelClass, some slot⟩ hl ?_ ?_ ?_ fun _ => rfl
  · rintro _ ⟨⟩
    simpa using List.find?_some hfind
  · simpa [hcontrol] using this
  · simpa [hcontrol, Nat.add_comm 1] using Nat.succ_le_of_lt (Nat.lt_of_not_le hfull)

theorem release_eq (hl : b.channels.lookup label = some usage) : (b.release label).1 =
    ⟨b.channels.erase label,
      usage.aggregateSlot.elim b.slots fun slot => Function.update b.slots slot 0⟩ := by
  rw [release, hl]

theorem taken_release (hl : b.channels.lookup label = some usage) :
    usage.aggregateSlot.elim 0 ({·}) + (b.release label).1.taken = b.taken := by
  rw [release_eq hl]
  exact (total_erase _ _ hl).symm

theorem slots_release (hl : b.channels.lookup label = some usage) (slot) :
    (b.release label).1.slots slot =
      if usage.aggregateSlot = some slot then 0 else b.slots slot := by
  rw [release_eq hl]
  cases usage.aggregateSlot with
  | none => rfl
  | some own => simp [Function.update_apply, eq_comm]

theorem Sound.release (h : Sound b) (label : String) : Sound (b.release label).1 := by
  cases hl : b.channels.lookup label with
  | none =>
    rw [ConnectionBudget.release, hl]
    exact h
  | some usage =>
    have ht := taken_release hl
    have hcount (p) : (b.release label).1.count p ≤ b.count p := by
      rw [release_eq hl]
      exact (Nat.le_add_left _ _).trans (total_erase _ _ hl).ge
    refine ⟨?_, fun l u hu => ?_, (hcount _).trans h.control, (hcount _).trans h.subscriptions,
      fun slot hm => ?_⟩
    · exact nodup_of_le (ht ▸ Multiset.le_add_left _ _) h.distinct
    · rw [release_eq hl] at hu
      exact h.slotted l u (lookup_of_erase hu)
    · rw [slots_release hl]
      split_ifs with hslot
      · rfl
      refine h.empty slot fun hin => ?_
      rw [← ht, mem_add] at hin
      rcases hin with hin | hin
      · cases hown : usage.aggregateSlot with
        | none => simp [hown] at hin
        | some own =>
          rw [hown] at hin hslot
          exact hslot (congrArg some (mem_singleton.mp hin).symm)
      · exact hm hin

theorem Sound.publish (h : Sound b) (bytes : ℕ)
    (hl : (b.channels.lookup label).bind ChannelUsage.aggregateSlot = some own) :
    Sound (b.publish own bytes) := by
  obtain ⟨usage, hl, hslot⟩ := Option.bind_eq_some_iff.mp hl
  refine { h with empty := fun slot hm => ?_ }
  refine (Function.update_of_ne (fun heq => hm ?_) _ _).trans (h.empty slot hm)
  exact (mem_total _ _ _).mpr ⟨label, usage, hl, by simp [hslot, heq]⟩

theorem Sound.step (b : ConnectionBudget) (op : ChannelOp) (b' : ConnectionBudget) (h : Sound b)
    (hp : Proper b op) (hs : b.step op = some b') : Sound b' := by
  cases op with
  | reserve label channelClass authorized =>
    cases hs
    exact h.reserve (Option.isNone_iff_eq_none.mp hp) channelClass authorized
  | release label =>
    cases hs
    exact h.release label
  | publish label slot bytes =>
    cases hs
    exact h.publish bytes hp

theorem Sound.published (h : Sound b) : b.publishedBuffered =
    b.channels.total fun usage => usage.aggregateSlot.elim 0 b.slots := by
  have hsum : ∑ slot ∈ b.taken.toFinset, b.slots slot = b.publishedBuffered :=
    Finset.sum_subset (Finset.subset_univ _) fun slot _ hm => h.empty slot (mt mem_toFinset.mpr hm)
  rw [← hsum, Finset.sum_eq_multiset_sum, toFinset_val, h.distinct.dedup]
  refine (map_total (sumAddMonoidHom.comp (mapAddMonoidHom b.slots)) b.channels _).trans
    (congrArg b.channels.total (funext fun usage => ?_))
  cases hslot : usage.aggregateSlot <;> simp [hslot]

end

end ConnectionBudget

end BotsterHub.Attach
