import BotsterHub.Router.Registry

/-!
Package generations: the preview of a replacement, staging with its capacity
reserve, and the commit with its rollback.
-/

namespace BotsterHub.Router

structure StagedGeneration where
  owner : String
  generation : ℕ
deriving DecidableEq

/-- Why a package generation could not be staged. Nothing changed. -/
inductive StageError where
  | rejected (status : EventPlaneStatus)
  | alreadyStaged
  | unfunded (required reserved : ℕ)
deriving DecidableEq

structure PluginAdmissionSnapshot where
  count : Option ℕ
  events : Option (Dict (String × String) ℕ)

structure AdmissionSnapshot where
  owner : String
  generation : Option ℕ
  hadContractOwner : Bool
  contracts : Dict String (Option EmittedContract)
  subscriptionOwners : List String
  subscriptions : Dict (String × String) (Option (List EventSubscription))
  plugins : Dict String PluginAdmissionSnapshot

namespace Registry

variable (r : Registry)

variable (owner : String)

def unloadRemovals : List (String × String × String) :=
  (r.unloadSubscriptionKeys owner).flatMap fun key =>
    ((r.subscribersOf key.1 key.2).filter
      (unloadRemovesRegistration owner (r.generationOf owner))).map fun s => (s.pluginKey, key)

def replacementRemovals : Dict String ℕ × Dict (String × String) ℕ :=
  ((r.unloadRemovals owner).foldl (fun m entry => m.bump entry.1) ∅,
    (r.unloadRemovals owner).foldl (fun m entry => m.bump entry.2) ∅)

/-- Match commit order: the last proposed contract for a name wins. -/
def proposedContracts (contracts : List EmittedContract) : Dict String EmittedContract :=
  contracts.foldl (fun m contract => m.insert contract.name contract) ∅

def pluginCountAfter (removed : Dict String ℕ) (plugin : String) : Option ℕ :=
  (checkedSub ((r.subscriptionsPerPlugin.lookup plugin).getD 0)
    ((removed.lookup plugin).getD 0)).map fun count => count + r.pendingPluginReserve plugin

def eventCountAfter (removed : Dict (String × String) ℕ) (key : String × String) : Option ℕ :=
  (checkedSub (r.subscribersOf key.1 key.2).length ((removed.lookup key).getD 0)).map
    fun count => count + r.pendingEventReserve key

variable (policy : Policy)

def previewStatus (r : Registry) (owner : String)
    (proposed : Dict String EmittedContract) (subscription : EventSubscription)
    (pluginCount eventCount : ℕ) : EventPlaneStatus :=
  let live := (r.contracts.get₂ subscription.owner subscription.name).filter fun contract =>
    decide (contract.owner ≠ owner) || decide (r.generationOf owner < contract.packageGeneration)
  let contract := if subscription.owner = owner then (proposed.lookup subscription.name).or live
    else live
  let active := if subscription.owner = owner then !proposed.isEmpty
    else r.producerActive subscription.owner
  subscriptionAdmissionStatus policy subscription contract active pluginCount eventCount

/-- The loop of the preview, with the counts of the plugins and events so far. -/
def previewSubscriptions (policy : Policy) (r : Registry) (owner : String)
    (proposed : Dict String EmittedContract)
    (removals : Dict String ℕ × Dict (String × String) ℕ) :
    List EventSubscription → Dict String ℕ → Dict (String × String) ℕ →
      Option (Except EventPlaneStatus Unit)
  | [], _, _ => some (.ok ())
  | subscription :: rest, pluginCounts, eventCounts => do
    let key := (subscription.owner, subscription.name)
    let pluginCount ← (pluginCounts.lookup subscription.pluginKey).or
      (r.pluginCountAfter removals.1 subscription.pluginKey)
    let eventCount ← (eventCounts.lookup key).or (r.eventCountAfter removals.2 key)
    let pluginCounts := pluginCounts.insert subscription.pluginKey (pluginCount + 1)
    let eventCounts := eventCounts.insert key (eventCount + 1)
    let status := r.previewStatus policy owner proposed subscription pluginCount eventCount
    if status ≠ .accepted then some (.error status)
    else previewSubscriptions policy r owner proposed removals rest pluginCounts eventCounts

def previewPackageReplacement (r : Registry) (owner : String)
    (contracts : List EmittedContract) (subscriptions : List EventSubscription) :
    Option (Except EventPlaneStatus Unit) :=
  if contracts.any fun contract => contract.owner == hubEventOwner || contract.owner != owner then
    some (.error .rejectedForeign)
  else r.previewSubscriptions policy owner (proposedContracts contracts)
    (r.replacementRemovals owner) subscriptions ∅ ∅

def addReserve {κ : Type} [DecidableEq κ] (key : κ) : List (κ × ℕ) → List (κ × ℕ)
  | [] => [(key, 1)]
  | (existing, count) :: rest =>
    if existing = key then (existing, count + 1) :: rest
    else (existing, count) :: addReserve key rest

def excess {κ : Type} [DecidableEq κ] (keys : List κ) (removed : Dict κ ℕ) : List (κ × ℕ) :=
  let counted := keys.foldl (fun reserves key => addReserve key reserves) []
  (counted.map fun entry => (entry.1, entry.2 - (removed.lookup entry.1).getD 0)).filter
    fun entry => decide (0 < entry.2)

def stagedPending (contracts : List EmittedContract)
    (subscriptions : List EventSubscription) : PendingGeneration :=
  { owner := owner
    -- the commit bumps the generation only when something is declared
    generation := if contracts.isEmpty && subscriptions.isEmpty then r.generationOf owner
      else saturatingAdd (r.generationOf owner) 1
    contracts := contracts
    subscriptions := subscriptions
    pluginReserve := excess (subscriptions.map (·.pluginKey)) (r.replacementRemovals owner).1
    eventReserve := excess (subscriptions.map fun s => (s.owner, s.name))
      (r.replacementRemovals owner).2 }

/-- `retainedBytes` measures the memory the pending entry keeps. -/
def stagePackageGeneration (r : Registry) (owner : String)
    (contracts : List EmittedContract) (subscriptions : List EventSubscription)
    (retainedBytes : PendingGeneration → ℕ) (reservedBytes : ℕ) :
    Option (Except StageError StagedGeneration × Registry) :=
  if owner = hubEventOwner then some (.error (.rejected .rejectedForeign), r)
  else if r.pending.isSome then some (.error .alreadyStaged, r)
  else if contracts.any fun contract =>
      contract.owner == hubEventOwner || contract.owner != owner then
    some (.error (.rejected .rejectedForeign), r)
  else (r.previewPackageReplacement policy owner contracts subscriptions).map fun
    | .error status => (.error (.rejected status), r)
    | .ok () =>
      let required := retainedBytes (r.stagedPending owner contracts subscriptions)
      if reservedBytes < required then (.error (.unfunded required reservedBytes), r)
      else (.ok ⟨owner, (r.stagedPending owner contracts subscriptions).generation⟩,
        { r with pending := some (r.stagedPending owner contracts subscriptions) })

def takeStaged (staged : StagedGeneration) : Option PendingGeneration × Registry :=
  match r.pending with
  | none => (none, r)
  | some pending =>
    if pending.owner = staged.owner ∧ pending.generation = staged.generation then
      (some pending, { r with pending := none })
    else (none, r)

def pluginSnapshot (plugin : String) : PluginAdmissionSnapshot :=
  ⟨r.subscriptionsPerPlugin.lookup plugin, r.subscriptionEventsByPlugin.lookup plugin⟩

/-- The events and plugins a commit of `subscriptions` for `owner` can change: the proposed ones and
every registration under the owner. -/
def commitFootprint (subscriptions : List EventSubscription) :
    List (String × String) × List String :=
  let events := ((r.subscriptions.lookup owner).getD ∅).entries
  ((subscriptions.map fun s => (s.owner, s.name)) ++ events.map fun e => (owner, e.1),
    (subscriptions.map (·.pluginKey)) ++ events.flatMap fun e => e.2.map (·.pluginKey))

def snapshotAdmission (contracts : List EmittedContract)
    (subscriptions : List EventSubscription) : AdmissionSnapshot :=
  let footprint := r.commitFootprint owner subscriptions
  { owner := owner
    generation := r.packageGeneration.lookup owner
    hadContractOwner := (r.contracts.lookup owner).isSome
    contracts := contracts.foldl
      (fun m contract => m.orInsert contract.name (r.contracts.get₂ owner contract.name)) ∅
    subscriptionOwners := (footprint.1.map Prod.fst).filter
      fun owner => (r.subscriptions.lookup owner).isSome
    subscriptions := footprint.1.foldl
      (fun m key => m.orInsert key (r.subscriptions.get₂ key.1 key.2)) ∅
    plugins := footprint.2.foldl (fun m plugin => m.orInsert plugin (r.pluginSnapshot plugin)) ∅ }

def restoreContract (r : Registry) (name : String) : Option EmittedContract → Option Registry
  | some contract => some (r.insertContract contract)
  | none => r.removeContract owner name

def restoreSubscriptions (owners : List String)
    (subscriptions : Dict String (Dict String (List EventSubscription))) (key : String × String) :
    Option (List EventSubscription) → Dict String (Dict String (List EventSubscription))
  | some saved => subscriptions.insert₂ key.1 key.2 saved
  | none =>
    match subscriptions.lookup key.1 with
    | none => subscriptions
    | some events =>
      let left := events.erase key.2
      if left.isEmpty && !owners.contains key.1 then subscriptions.erase key.1
      else subscriptions.insert key.1 left

variable (snapshot : AdmissionSnapshot)

def restoreContracts : Option Registry := do
  let r ← snapshot.contracts.entries.foldlM (fun r e => r.restoreContract snapshot.owner e.1 e.2) r
  some (if snapshot.hadContractOwner && (r.contracts.lookup snapshot.owner).isNone then
    { r with contracts := r.contracts.insert snapshot.owner ∅ } else r)

def restoreRegistrations : Registry :=
  { r with
    subscriptions := snapshot.subscriptions.entries.foldl
      (fun m e => restoreSubscriptions snapshot.subscriptionOwners m e.1 e.2) r.subscriptions
    subscriptionsPerPlugin := snapshot.plugins.entries.foldl
      (fun m e => m.put e.1 e.2.count) r.subscriptionsPerPlugin
    subscriptionEventsByPlugin := snapshot.plugins.entries.foldl
      (fun m e => m.put e.1 e.2.events) r.subscriptionEventsByPlugin
    packageGeneration := r.packageGeneration.put snapshot.owner snapshot.generation }

def restoreAdmission : Option Registry :=
  (r.restoreContracts snapshot).map fun r => r.restoreRegistrations snapshot

def subscribeAll (policy : Policy) : Registry → List EventSubscription →
    Except (EventPlaneStatus × Registry) Registry
  | r, [] => .ok r
  | r, subscription :: rest =>
    match r.subscribeLocked policy subscription with
    | (.accepted, r) => subscribeAll policy r rest
    | (status, r) => .error (status, r)

/-- The registration part of `commit_package_generation_locked`. -/
def commitRegistrations (r : Registry) (owner : String)
    (contracts : List EmittedContract) (subscriptions : List EventSubscription) :
    Option (Except EventPlaneStatus ℕ × Registry) :=
  if contracts.any fun contract => contract.owner != owner then none
  else if contracts.isEmpty && subscriptions.isEmpty then some (.ok (r.generationOf owner), r)
  else do
    let snapshot := r.snapshotAdmission owner contracts subscriptions
    let (generation, r) := r.bumpPackageGeneration owner
    let r := contracts.foldl
      (fun r contract => r.insertContract { contract with packageGeneration := generation }) r
    let r ← r.bindRegistrations owner generation
    match r.subscribeAll policy subscriptions with
    | .ok r => some (.ok generation, r)
    | .error (status, r) => (r.restoreAdmission snapshot).map fun r => (.error status, r)

end Registry

end BotsterHub.Router
