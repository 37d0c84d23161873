import BotsterHub.Router.Types

/-!
The registrations of the router: contracts, event subscriptions with their two indexes, client
holders, package generations, and the staged one. `none` is a failing `expect` or checked
subtraction. Log lines are left out.
-/

namespace BotsterHub.Router

/-- A staged package generation: admitted, but not visible to ingress. -/
structure PendingGeneration where
  owner : String
  generation : ℕ
  contracts : List EmittedContract
  subscriptions : List EventSubscription
  /-- Capacity held for the replacement per plugin: `max(0, new - removed)`. -/
  pluginReserve : List (String × ℕ)
  /-- Capacity held for the replacement per event: `max(0, new - removed)`. -/
  eventReserve : List ((String × String) × ℕ)

/-- The tokens of a rate limit, in billionths, so that rate times nanoseconds is whole. The source
has `f64`. -/
structure TokenBucket where
  tokens : ℕ
  last : Instant
deriving DecidableEq

structure Registry where
  contracts : Dict String (Dict String EmittedContract)
  contractNameCounts : Dict String ℕ
  subscriptions : Dict String (Dict String (List EventSubscription))
  clientHolders : Dict String (Dict String (List RegisteredClientEventHolder))
  clientById : Dict (String × String) (String × String)
  subscriptionsPerPlugin : Dict String ℕ
  subscriptionEventsByPlugin : Dict String (Dict (String × String) ℕ)
  packageGeneration : Dict String ℕ
  pending : Option PendingGeneration
  buckets : Dict String TokenBucket

namespace Registry

variable (r : Registry)

variable (owner : String)

def generationOf : ℕ := (r.packageGeneration.lookup owner).getD 0

def subscribersOf (owner name : String) : List EventSubscription :=
  (r.subscriptions.get₂ owner name).getD []

def producerActive : Bool :=
  (r.contracts.lookup owner).any fun events => !events.isEmpty

def pendingPluginReserve (plugin : String) : ℕ :=
  (r.pending.bind fun pending => pending.pluginReserve.lookup plugin).getD 0

def pendingEventReserve (key : String × String) : ℕ :=
  (r.pending.bind fun pending => pending.eventReserve.lookup key).getD 0

def insertContract (contract : EmittedContract) : Registry :=
  let previous := r.contracts.get₂ contract.owner contract.name
  { r with
    contracts := r.contracts.insert₂ contract.owner contract.name contract
    contractNameCounts := if previous.isNone then r.contractNameCounts.bump contract.name
      else r.contractNameCounts }

def removeContract (owner name : String) : Option Registry :=
  match r.contracts.lookup owner with
  | none => some r
  | some events => do
    let counts ← if (events.lookup name).isSome then r.contractNameCounts.unbump name
      else some r.contractNameCounts
    some { r with
      contractNameCounts := counts
      contracts := r.contracts.setBucket owner (events.erase name) }

/-- The caller has no contract of its own under `name`. -/
def nameOwnedByOther (name : String) : Bool := (r.contractNameCounts.lookup name).isSome

def bumpPackageGeneration : ℕ × Registry :=
  let next := saturatingAdd (r.generationOf owner) 1
  (next, { r with packageGeneration := r.packageGeneration.insert owner next })

def billion : ℕ := 1000000000

variable (policy : Policy)

def consumeToken (r : Registry) (owner : String) (now : Instant) : Bool × Registry :=
  let burst := policy.packageBurst * billion
  let bucket := (r.buckets.lookup owner).getD ⟨burst, now⟩
  let tokens := min (bucket.tokens + (now - bucket.last) * policy.packageRatePerSec) burst
  if tokens < billion then (false, { r with buckets := r.buckets.insert owner ⟨tokens, now⟩ })
  else (true, { r with buckets := r.buckets.insert owner ⟨tokens - billion, now⟩ })

variable (subscription : EventSubscription)

/-- `producerActive`: the owner has a contract, so an undeclared name is a mistake; otherwise the
subscription waits. -/
def subscriptionAdmissionStatus (contract : Option EmittedContract) (producerActive : Bool)
    (pluginCount eventCount : ℕ) : EventPlaneStatus :=
  if isWildcard subscription.owner || isWildcard subscription.name then .rejectedWildcard
  else if isBlank subscription.owner || isBlank subscription.name then .rejectedInvalid
  else if contract.any fun c => decide (EventAudience.plugins ∉ c.audience) then .rejectedAudience
  else if contract.isNone && producerActive then .rejectedUndeclared
  else if policy.subscriptionsPerPluginMax ≤ pluginCount then .rejectedInvalid
  else if policy.subscribersPerEventMax ≤ eventCount then .rejectedOverFanout
  else .accepted

/-- The admission of `subscribe_locked`. Capacity that is staged is not available to others. -/
def subscribeStatus (r : Registry) (subscription : EventSubscription) :
    EventPlaneStatus :=
  subscriptionAdmissionStatus policy subscription
    (r.contracts.get₂ subscription.owner subscription.name)
    (r.producerActive subscription.owner)
    ((r.subscriptionsPerPlugin.lookup subscription.pluginKey).getD 0 +
      r.pendingPluginReserve subscription.pluginKey)
    ((r.subscribersOf subscription.owner subscription.name).length +
      r.pendingEventReserve (subscription.owner, subscription.name))

def boundSubscription : EventSubscription :=
  { subscription with
    eventGeneration := ((r.contracts.get₂ subscription.owner subscription.name).map
      EmittedContract.packageGeneration).getD waitingEventGeneration
    pluginGeneration := r.generationOf subscription.pluginKey }

def fileSubscription : Registry :=
  { r with
    subscriptions := r.subscriptions.insert₂ subscription.owner subscription.name
      (r.subscribersOf subscription.owner subscription.name ++ [r.boundSubscription subscription])
    subscriptionEventsByPlugin := r.subscriptionEventsByPlugin.bump₂ subscription.pluginKey
      (subscription.owner, subscription.name)
    subscriptionsPerPlugin := r.subscriptionsPerPlugin.bump subscription.pluginKey }

def subscribeLocked (r : Registry) (subscription : EventSubscription) :
    EventPlaneStatus × Registry :=
  if r.subscribeStatus policy subscription ≠ .accepted then
    (r.subscribeStatus policy subscription, r)
  else (.accepted, r.fileSubscription subscription)

def releaseRegistrationCounts (plugin : String) (key : String × String) : Option Registry := do
  let perPlugin ← r.subscriptionsPerPlugin.unbump plugin
  let byPlugin ← r.subscriptionEventsByPlugin.unbump₂ plugin key
  some { r with subscriptionsPerPlugin := perPlugin, subscriptionEventsByPlugin := byPlugin }

def releaseAll (released : List (String × String × String)) : Option Registry :=
  released.foldlM (fun r entry => r.releaseRegistrationCounts entry.1 entry.2) r

def setEvents (events : Dict String (List EventSubscription)) :
    Registry :=
  { r with subscriptions := r.subscriptions.setBucket owner events }

def setSubscribers (owner name : String)
    (events : Dict String (List EventSubscription)) (subscribers : List EventSubscription) :
    Registry :=
  r.setEvents owner
    (if subscribers.isEmpty then events.erase name else events.insert name subscribers)

def declaresForPlugins (owner name : String) : Bool :=
  (r.contracts.get₂ owner name).any fun contract =>
    decide (EventAudience.plugins ∈ contract.audience)

def boundTo (declares : String → Bool) (generation : ℕ) (name : String)
    (subscriptions : List EventSubscription) : Option (List EventSubscription) :=
  if declares name && !subscriptions.isEmpty then
    some (subscriptions.map fun s => { s with eventGeneration := generation })
  else none

def refusedAtBind (declares : String → Bool) (owner : String)
    (events : List (Sigma fun _ : String => List EventSubscription)) :
    List (String × String × String) :=
  events.flatMap fun e =>
    if declares e.1 then [] else e.2.map fun s => (s.pluginKey, owner, e.1)

/-- Each registration under the producer binds to the new generation, or is refused and leaves. -/
def bindRegistrations (generation : ℕ) : Option Registry :=
  match r.subscriptions.lookup owner with
  | none => some r
  | some events =>
    (r.setEvents owner (events.filterMapVal
      (boundTo (r.declaresForPlugins owner) generation))).releaseAll
      (refusedAtBind (r.declaresForPlugins owner) owner events.entries)

/-- The unload of `owner` removes a registration only when `owner` is its subscriber. -/
def unloadRemovesRegistration (generation : ℕ) (s : EventSubscription) : Bool :=
  s.pluginKey == owner && decide (s.pluginGeneration ≤ generation)

def unloadSubscriptionKeys : List (String × String) :=
  let own := ((r.subscriptions.lookup owner).getD ∅).keys.map fun name => (owner, name)
  (own ++ ((r.subscriptionEventsByPlugin.lookup owner).getD ∅).keys).dedup

def removeUnloadedSubscriptions (generation : ℕ) (key : String × String) : Option Registry :=
  match r.subscriptions.lookup key.1 with
  | none => some r
  | some events =>
    match events.lookup key.2 with
    | none => some r
    | some subscriptions =>
      let removed := subscriptions.filter (unloadRemovesRegistration owner generation)
      -- a consumer's registration to the unloaded producer stays and waits
      let kept := (subscriptions.filter fun s => !unloadRemovesRegistration owner generation s).map
        fun s => if s.owner = owner ∧ s.eventGeneration ≤ generation then
          { s with eventGeneration := waitingEventGeneration } else s
      (r.setSubscribers key.1 key.2 events kept).releaseAll
        (removed.map fun s => (s.pluginKey, key))

def unloadContracts (generation : ℕ) : Option Registry := do
  let removed := (((r.contracts.lookup owner).getD ∅).entries.filter fun e =>
    decide (e.2.packageGeneration ≤ generation)).map Sigma.fst
  let r ← removed.foldlM (fun r name => r.removeContract owner name) r
  some (if (r.contracts.lookup owner).any fun events => events.isEmpty then
    { r with contracts := r.contracts.erase owner } else r)

def unloadClients (generation : ℕ) : Registry :=
  match r.clientHolders.lookup owner with
  | none => r
  | some events =>
    let kept := events.filterMapVal fun _ holders =>
      let left := holders.filter fun h => decide (generation < h.eventGeneration)
      if left.isEmpty then none else some left
    let removed := events.entries.flatMap fun e =>
      (e.2.filter fun h => decide (h.eventGeneration ≤ generation)).map fun h =>
        (h.holder.connectionId, h.holder.subscriptionId)
    { r with
      clientHolders := r.clientHolders.setBucket owner kept
      clientById := removed.foldl (fun ids identity => ids.erase identity) r.clientById }

/-- The registration part of `apply_unload`, for an owner other than the Hub. -/
def unloadRegistrations (generation : ℕ) : Option Registry := do
  let r ← r.unloadContracts owner generation
  let r ← (r.unloadSubscriptionKeys owner).foldlM
    (fun r key => r.removeUnloadedSubscriptions owner generation key) r
  some (r.unloadClients owner generation)

def subscribeClientLocked (r : Registry) (holder : ClientEventHolder) :
    EventPlaneStatus × Registry :=
  if isWildcard holder.owner || isWildcard holder.name then (.rejectedWildcard, r)
  else if isBlank holder.owner || isBlank holder.name then (.rejectedInvalid, r)
  else match r.contracts.get₂ holder.owner holder.name with
    | none => (.rejectedUndeclared, r)
    | some contract =>
      let identity := (holder.connectionId, holder.subscriptionId)
      let holders := (r.clientHolders.get₂ holder.owner holder.name).getD []
      if EventAudience.clients ∉ contract.audience then (.rejectedAudience, r)
      else if (r.clientById.lookup identity).isSome then (.rejectedInvalid, r)
      -- the buckets exist from here on, also when the event is full
      else if policy.subscribersPerEventMax ≤ holders.length then
        (.rejectedOverFanout,
          { r with clientHolders := r.clientHolders.insert₂ holder.owner holder.name holders })
      else (.accepted, { r with
        clientById := r.clientById.insert identity (holder.owner, holder.name)
        clientHolders := r.clientHolders.insert₂ holder.owner holder.name
          (holders ++ [⟨holder, contract.packageGeneration⟩]) })

def unsubscribeClientLocked (connectionId subscriptionId : String) : EventPlaneStatus × Registry :=
  match r.clientById.lookup (connectionId, subscriptionId) with
  | none => (.rejectedInvalid, r)
  | some key =>
    let r := { r with clientById := r.clientById.erase (connectionId, subscriptionId) }
    match r.clientHolders.lookup key.1 with
    | none => (.accepted, r)
    | some events =>
      match events.lookup key.2 with
      | none => (.accepted, r)
      | some holders =>
        let left := holders.filter fun h => !(h.holder.connectionId == connectionId &&
          h.holder.subscriptionId == subscriptionId)
        let events := if left.isEmpty then events.erase key.2 else events.insert key.2 left
        (.accepted, { r with clientHolders := r.clientHolders.setBucket key.1 events })

/-- An absent or replaced holder has no remaining cleanup effect. -/
def cleanupClientHolder (connectionId subscriptionId : String) (mailbox : ℕ) :
    Registry :=
  match r.clientById.lookup (connectionId, subscriptionId) with
  | none => r
  | some key =>
    let holders := (r.clientHolders.get₂ key.1 key.2).getD []
    if holders.any fun h => h.holder.connectionId == connectionId &&
        h.holder.subscriptionId == subscriptionId && h.holder.mailbox == mailbox then
      (r.unsubscribeClientLocked connectionId subscriptionId).2
    else r

end Registry

end BotsterHub.Router
