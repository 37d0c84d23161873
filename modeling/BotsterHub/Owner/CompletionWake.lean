import BotsterHub.Lib.Dict
import Mathlib.Data.Finset.Max
import Mathlib.Data.Prod.Lex

/-!
The registry of Core completions (`CoreCompletionWake`).

The owner registers the phases of an operation before Core can start it; the Core thread marks a
phase ready when its result can be read; the owner takes ready phases in batches. Each operation
holds the lock or is one atomic swap, so it is one step.
-/

namespace BotsterHub.Owner

open List Finset

/-- `OwnerWorkIdentity`. -/
structure Identity where
  waiterId : ℕ
  phase : ℕ
deriving DecidableEq

instance : LinearOrder Identity :=
  LinearOrder.lift' (fun identity => toLex (identity.waiterId, identity.phase)) fun a b h => by
    cases a
    cases b
    simpa using h

def daemonMaxConnections : ℕ := 64

def maxOutstandingRequests : ℕ := 32

def ownerBudgetCapacity : ℕ := daemonMaxConnections * (maxOutstandingRequests + 1)

def backgroundCoreWorkClasses : ℕ := 4

def coreOwnerCompletionCapacity : ℕ := ownerBudgetCapacity * 2 + backgroundCoreWorkClasses

def u64Max : ℕ := 2 ^ 64 - 1

/-- `CoreCompletionWake`: the pending bit and the `CoreCompletionIdentities`. -/
structure CompletionWake where
  pending : Bool
  nextPhase : Dict ℕ ℕ
  registered : Finset Identity
  ready : Finset Identity

namespace CompletionWake

def new : CompletionWake := ⟨false, ∅, ∅, ∅⟩

variable (wake : CompletionWake)

def lastPhase (waiterId : ℕ) : ℕ := (wake.nextPhase.lookup waiterId).getD 0

def phases (waiterId previous phaseCount : ℕ) : List Identity :=
  (List.range' (previous + 1) phaseCount).map fun phase => ⟨waiterId, phase⟩

def registerPhases (waiterId phaseCount : ℕ) : Option (List Identity × CompletionWake) :=
  if (∃ identity ∈ wake.registered, identity.waiterId = waiterId) then none
  else if coreOwnerCompletionCapacity < wake.registered.card + phaseCount ∨ phaseCount = 0 then none
  else
    let previous := wake.lastPhase waiterId
    if u64Max < previous + phaseCount then none
    else
      let identities := phases waiterId previous phaseCount
      some (identities,
        { wake with
          registered := wake.registered ∪ identities.toFinset
          nextPhase := wake.nextPhase.insert waiterId (previous + phaseCount) })

variable (identity : Identity)

def drop : CompletionWake :=
  { wake with ready := wake.ready.erase identity, registered := wake.registered.erase identity }

def retire : Bool × CompletionWake :=
  (identity ∈ wake.registered, wake.drop identity)

def awaitsCollection : Bool := identity ∈ wake.registered

def collectReady : Bool × CompletionWake :=
  if identity ∈ wake.ready then (true, wake.drop identity) else (false, wake)

def retireWaiter (waiterId : ℕ) : ℕ × CompletionWake :=
  ((wake.registered.filter fun identity => identity.waiterId = waiterId).card,
   { wake with
     ready := wake.ready.filter fun identity =>
       ¬(identity ∈ wake.registered ∧ identity.waiterId = waiterId)
     registered := wake.registered.filter fun identity => identity.waiterId ≠ waiterId
     nextPhase := wake.nextPhase.erase waiterId })

def publish : CompletionWake :=
  if identity ∈ wake.registered then
    if identity ∈ wake.ready then wake
    else { wake with ready := insert identity wake.ready, pending := true }
  else wake

def first? (identities : Finset Identity) (p : Identity → Bool) : Option Identity :=
  if h : (identities.filter fun identity => p identity).Nonempty then
    some ((identities.filter fun identity => p identity).min' h)
  else none

def takeTerminalIdentity (waiterId : ℕ) : Option Identity × CompletionWake :=
  match first? wake.ready fun identity => identity.waiterId = waiterId with
  | some identity => (some identity, wake.drop identity)
  | none => (none, wake)

def take : Bool × CompletionWake := (wake.pending, { wake with pending := false })

def firstN : ℕ → Finset Identity → List Identity
  | 0, _ => []
  | limit + 1, identities =>
    match first? identities fun _ => true with
    | none => []
    | some identity => identity :: firstN limit (identities.erase identity)

def takeIdentities (limit : ℕ) : List Identity × CompletionWake :=
  let identities := firstN limit wake.ready
  let ready := wake.ready \ identities.toFinset
  (identities,
    { wake with
      ready := ready
      registered := wake.registered \ identities.toFinset
      pending := ready.Nonempty })

def restoreIdentities (identities : List Identity) : CompletionWake :=
  if identities = [] then wake
  else
    { wake with
      registered := wake.registered ∪ identities.toFinset
      ready := wake.ready ∪ identities.toFinset
      pending := true }

variable {identity : Identity}

theorem first?_mem (h : first? i p = some identity) : identity ∈ i ∧ p identity := by
  unfold first? at h
  split at h
  · next hne =>
    cases h
    simpa using min'_mem _ hne
  · cases h

theorem firstN_subset (limit : ℕ) (i : Finset Identity) :
    ∀ identity ∈ firstN limit i, identity ∈ i := by
  induction limit generalizing i with
  | zero => simp [firstN]
  | succ _ ih =>
    intro identity hm
    unfold firstN at hm
    split at hm
    · cases hm
    next first hf =>
    rcases mem_cons.mp hm with rfl | hr
    · exact (first?_mem hf).1
    · exact mem_of_mem_erase (ih _ identity hr)

theorem firstN_nodup (l : ℕ) (i : Finset Identity) : (firstN l i).Nodup := by
  induction l generalizing i with
  | zero => simp [firstN]
  | succ l ih =>
    unfold firstN
    split
    · exact nodup_nil
    next f _ =>
    refine nodup_cons.mpr ⟨fun hm => ?_, ih _⟩
    exact notMem_erase f i (firstN_subset l _ f hm)

theorem mem_phases : identity ∈ phases w previous p ↔
      identity.waiterId = w ∧ previous < identity.phase ∧ identity.phase ≤ previous + p := by
  unfold phases
  rw [List.mem_map]
  constructor
  · rintro ⟨phase, hp, rfl⟩
    rw [mem_range'_1] at hp
    refine ⟨rfl, ?_, ?_⟩
    · show previous < phase
      omega
    · show phase ≤ previous + p
      omega
  · rintro ⟨rfl, hl, hh⟩
    refine ⟨identity.phase, ?_, rfl⟩
    rw [mem_range'_1]
    omega

theorem length_phases (w previous p : ℕ) : (phases w previous p).length = p := by
  simp [phases]

theorem registerPhases_some {wake wake' : CompletionWake} {w p : ℕ} {i : List Identity}
    (h : wake.registerPhases w p = some (i, wake')) :
    (∀ identity ∈ wake.registered, identity.waiterId ≠ w) ∧
      wake.registered.card + p ≤ coreOwnerCompletionCapacity ∧ i = phases w (wake.lastPhase w) p ∧
      wake' = { wake with
        registered := wake.registered ∪ i.toFinset
        nextPhase := wake.nextPhase.insert w (wake.lastPhase w + p) } := by
  unfold registerPhases at h
  split at h
  · cases h
  next hf =>
  split at h
  · cases h
  next hr =>
  dsimp only at h
  split at h
  · cases h
  · cases h
    refine ⟨fun identity hm hs => hf ⟨identity, hm, hs⟩, by omega, rfl, rfl⟩

theorem publish_of_notMem {wake : CompletionWake}
    (h : identity ∉ wake.registered) : wake.publish identity = wake := if_neg h

end CompletionWake

end BotsterHub.Owner
