import BotsterHub.Lib.Scan
import Mathlib.Data.Prod.Lex
import Mathlib.Data.String.Basic

/-!
The registry of attach streams (`attach_routes.rs`).

A route key, a session and its subscription, has one stream at a time: a new attach cancels the
stream that is there. Attach, bind, detach and cleanup wait for Core, so each carries the identity
it started with, client id and epoch, and changes the stream only if it still has it. Beside the
streams the registry keeps the keys of each owner and grant and the bound routes of each
connection.
-/

namespace BotsterHub.Attach

def maxAttachRoutesPerOwner : ℕ := 64

abbrev GrantId := String

/-- The strings `botster-hub-daemon-socket-{number}` of a Unix connection and
`botster-hub-daemon-subscription-{subscription_id}` of a peer's route; empty for an owner known by
its grant only. -/
inductive ClientId where
  | unnamed
  | socket (number : ℕ)
  | subscription (subscriptionId : String)
deriving DecidableEq

/-- The key an owner is budgeted by. Grants are `grant-{hex}`, so the two kinds never meet. -/
inductive BudgetKey where
  | client (clientId : ClientId)
  | grant (grantId : GrantId)
deriving DecidableEq

structure AttachStreamOwner where
  clientId : ClientId
  grantId : Option GrantId
deriving DecidableEq

namespace AttachStreamOwner

def budgetKey (owner : AttachStreamOwner) : BudgetKey :=
  match owner.grantId with
  | some grantId => .grant grantId
  | none => .client owner.clientId

def isMatch (owner other : AttachStreamOwner) : Bool :=
  match owner.grantId with
  | some grantId => other.grantId = some grantId
  | none => other.grantId = none ∧ other.clientId = owner.clientId

theorem isMatch_iff {o other : AttachStreamOwner} :
    o.isMatch other = true ↔ other.budgetKey = o.budgetKey := by
  obtain ⟨clientId, _ | grantId⟩ := o <;> obtain ⟨clientId', _ | grantId'⟩ := other <;>
    simp [isMatch, budgetKey]

end AttachStreamOwner

structure Key where
  sessionId : String
  subscriptionId : String
deriving DecidableEq

instance : LinearOrder Key :=
  LinearOrder.lift' (fun key => toLex (key.sessionId, key.subscriptionId)) fun a b h => by
    cases a
    cases b
    simpa using h

abbrev Generation := ℕ

/-- A `BoundAdapterHandle`; every adapter has its own number. -/
abbrev Adapter := ℕ

structure AttachmentIdentity where
  clientId : ClientId
  epoch : ℕ
deriving DecidableEq

structure AttachStream where
  owner : AttachStreamOwner
  epoch : ℕ
  generation : Option Generation
  adapterBound : Bool
  adapter : Option Adapter
deriving DecidableEq

namespace AttachStream

def new (owner : AttachStreamOwner) (epoch : ℕ) : AttachStream := ⟨owner, epoch, none, false, none⟩

def identity (stream : AttachStream) : AttachmentIdentity := ⟨stream.owner.clientId, stream.epoch⟩

end AttachStream

structure ConnectionBoundRoute where
  key : Key
  generation : Generation
deriving DecidableEq

inductive RouteReservation where
  | inserted
  | alreadyHeld
  | full
deriving DecidableEq

/-- `AttachStreamRegistry`. `closed` are the adapters closed by the host or given up. -/
structure Registry where
  streams : Dict Key AttachStream
  nextEpoch : ℕ
  ownerRoutes : Dict BudgetKey (Finset Key)
  activeSubscriptions : Dict String (Finset String)
  attachOwnerGrantIds : Dict Key GrantId
  liveAttachRoutes : Finset Key
  connectionBoundRoutes : Dict ClientId (Finset ConnectionBoundRoute)
  closed : Finset Adapter

namespace Registry

def new : Registry := ⟨∅, 0, ∅, ∅, ∅, ∅, ∅, ∅⟩

variable (r : Registry)

variable (key : Key)

def streamIdentity : Option AttachmentIdentity :=
  (r.streams.lookup key).map AttachStream.identity

def streamMatches (identity : AttachmentIdentity) : Bool :=
  r.streamIdentity key = some identity

def streamOwnerMatches (owner : AttachStreamOwner) : Bool :=
  (r.streams.lookup key).any fun stream => owner.isMatch stream.owner

def isAdapterBound : Bool := (r.streams.lookup key).any AttachStream.adapterBound

def recordedGeneration : Option Generation :=
  (r.streams.lookup key).bind AttachStream.generation

variable (owner : BudgetKey)

def routes : Finset Key := (r.ownerRoutes.lookup owner).getD ∅

def reserveRoute (key : Key) (limit : ℕ) : RouteReservation × Registry :=
  let routes := r.routes owner
  if key ∈ routes then (.alreadyHeld, r)
  else if limit ≤ routes.card then
    (.full, if routes = ∅ then { r with ownerRoutes := r.ownerRoutes.erase owner } else r)
  else (.inserted, { r with ownerRoutes := r.ownerRoutes.insert owner (insert key routes) })

def releaseRoute (key : Key) : Registry :=
  match r.ownerRoutes.lookup owner with
  | none => r
  | some routes =>
    let routes := routes.erase key
    { r with
      ownerRoutes :=
        if routes = ∅ then r.ownerRoutes.erase owner else r.ownerRoutes.insert owner routes }

def takeOwnerRoutes : Finset Key × Registry :=
  (r.routes owner, { r with ownerRoutes := r.ownerRoutes.erase owner })

def forgetConnectionBoundRoute : Registry :=
  match r.streams.lookup key with
  | none => r
  | some stream =>
    match r.connectionBoundRoutes.lookup stream.owner.clientId with
    | none => r
    | some routes =>
      let routes :=
        match stream.generation with
        | some generation => routes.erase ⟨key, generation⟩
        | none => routes.filter fun route => route.key ≠ key
      { r with
        connectionBoundRoutes :=
          if routes = ∅ then r.connectionBoundRoutes.erase stream.owner.clientId
          else r.connectionBoundRoutes.insert stream.owner.clientId routes }

def closeAdapter : Registry :=
  match r.streams.lookup key with
  | none => r
  | some stream =>
    { r with
      streams := r.streams.insert key { stream with adapter := none, adapterBound := false }
      closed := r.closed ∪ stream.adapter.toFinset }

def removeStreamMetadata : Registry :=
  { r with
    streams := r.streams.erase key
    activeSubscriptions :=
      match r.activeSubscriptions.lookup key.sessionId with
      | none => r.activeSubscriptions
      | some subscriptions =>
        let subscriptions := subscriptions.erase key.subscriptionId
        if subscriptions = ∅ then r.activeSubscriptions.erase key.sessionId
        else r.activeSubscriptions.insert key.sessionId subscriptions
    attachOwnerGrantIds := r.attachOwnerGrantIds.erase key }

def cancelStream : Registry :=
  ((r.forgetConnectionBoundRoute key).closeAdapter key).removeStreamMetadata key

def cancelStreamIf (identity : AttachmentIdentity) : Registry :=
  if r.streamMatches key identity then r.cancelStream key else r

def closeAdapterIf (identity : AttachmentIdentity) : Registry :=
  if r.streamMatches key identity then r.closeAdapter key else r

def recordGeneration (generation : Generation) : Registry :=
  match r.streams.lookup key with
  | none => r
  | some stream =>
    { r with streams := r.streams.insert key { stream with generation := some generation } }

def recordGenerationIf (identity : AttachmentIdentity)
    (generation : Generation) : Bool × Registry :=
  if r.streamMatches key identity then (true, r.recordGeneration key generation) else (false, r)

def markAdapterBound (generation : Generation) (adapter : Adapter) :
    Registry :=
  match r.streams.lookup key with
  | none => r
  | some stream =>
    let bound := (r.connectionBoundRoutes.lookup stream.owner.clientId).getD ∅
    { r with
      streams := r.streams.insert key
        { stream with generation := some generation, adapterBound := true, adapter := some adapter }
      connectionBoundRoutes :=
        r.connectionBoundRoutes.insert stream.owner.clientId (insert ⟨key, generation⟩ bound) }

def markAdapterBoundIf (identity : AttachmentIdentity)
    (generation : Generation) (adapter : Adapter) : Bool × Registry :=
  if r.streamMatches key identity then (true, r.markAdapterBound key generation adapter)
  else (false, r)

def startAttach (owner : AttachStreamOwner) (key : Key) : AttachmentIdentity × Registry :=
  let r := r.cancelStream key
  let subscriptions := (r.activeSubscriptions.lookup key.sessionId).getD ∅
  let stream := AttachStream.new owner (r.nextEpoch + 1)
  (stream.identity,
    { r with
      attachOwnerGrantIds :=
        match owner.grantId with
        | some grantId => r.attachOwnerGrantIds.insert key grantId
        | none => r.attachOwnerGrantIds
      activeSubscriptions :=
        r.activeSubscriptions.insert key.sessionId (insert key.subscriptionId subscriptions)
      nextEpoch := r.nextEpoch + 1
      streams := r.streams.insert key stream })

def retainSessionsPresentIn (present : String → Bool) : Registry :=
  let stale := (r.streams.keysAfter none).filter fun key => present key.sessionId = false
  stale.foldl cancelStream r

def closeAdaptersForSession (sessionId : String) : Registry :=
  let bound := (r.streams.keysAfter none).filter fun key =>
    key.sessionId = sessionId ∧ r.isAdapterBound key
  bound.foldl closeAdapter r

def unboundRoutesForClient (clientId : ClientId) : List (Key × AttachmentIdentity) :=
  (r.streams.keysAfter none).filterMap fun key =>
    match r.streams.lookup key with
    | none => none
    | some stream =>
      if stream.owner.clientId = clientId ∧ stream.adapterBound = false then
        some (key, stream.identity)
      else none

def takeConnectionBoundRoutes (clientId : ClientId) : Finset ConnectionBoundRoute × Registry :=
  ((r.connectionBoundRoutes.lookup clientId).getD ∅,
    { r with connectionBoundRoutes := r.connectionBoundRoutes.erase clientId })

/-- The grant a key without a stream belongs to: the last removed one that has it in its set. -/
def knownOwner (removed : List GrantId) (key : Key) : Option GrantId :=
  removed.reverse.find? fun grant => key ∈ r.routes (.grant grant)

/-- The routes of departing grants with their grant, without the keys whose stream belongs to anyone
else. -/
def departingRoutesForGrants (removed : List GrantId) (primary : GrantId)
    (snapshot : Finset Key) : List (GrantId × Key) :=
  if removed = [] then []
  else
    let held := removed.toFinset.biUnion fun grant => r.routes (.grant grant)
    let streams := ((r.streams.keysAfter none).filter fun key =>
      (r.streams.lookup key).any fun stream => stream.owner.grantId.any (· ∈ removed)).toFinset
    (snapshot ∪ held ∪ streams).ascending.filterMap fun key =>
      match r.streams.lookup key with
      | some stream =>
        match stream.owner.grantId with
        | some grant => if grant ∈ removed then some (grant, key) else none
        | none => none
      | none =>
        match (r.attachOwnerGrantIds.lookup key).filter (· ∈ removed) with
        | some grant => some (grant, key)
        | none =>
          match r.knownOwner removed key with
          | some grant => some (grant, key)
          | none => if primary ∈ removed then some (primary, key) else none

def routeIsStaleAgainstLiveGeneration (recorded live : Option Generation) : Bool :=
  match live with
  | none => true
  | some live => recorded.any fun generation => generation ≠ live

structure InventoryReconcileProgress where
  validated : ℕ
  more : Bool
  after : Option Key
  retired : List Key

def reconcileVisit (after : Option Key) (maxEntries : ℕ) : List (Key × Bool × AttachmentIdentity) :=
  ((r.streams.keysAfter after).take maxEntries).filterMap fun key =>
    (r.streams.lookup key).map fun stream => (key, stream.adapterBound, stream.identity)

variable (lookup : ClientId → Key → Option (Option Generation))

/-- One visited row. `lookup` is none for a route that the read did not ask about. -/
def reconcileRow (readEpoch : ℕ) :
    Registry × InventoryReconcileProgress → Key × Bool × AttachmentIdentity →
    Registry × InventoryReconcileProgress
  | (r, progress), (key, adapterBound, identity) =>
    let progress := { progress with after := some key }
    if adapterBound = false ∨ readEpoch < identity.epoch then (r, progress)
    else
      match lookup identity.clientId key with
      | none => (r, progress)
      | some live =>
        let progress := { progress with validated := progress.validated + 1 }
        if routeIsStaleAgainstLiveGeneration (r.recordedGeneration key) live ∧
            r.streamMatches key identity then
          (r.cancelStreamIf key identity, { progress with retired := progress.retired ++ [key] })
        else (r, progress)

def reconcileInventorySlice (readEpoch : ℕ) (after : Option Key) (maxEntries : ℕ) :
    Registry × InventoryReconcileProgress :=
  (r.reconcileVisit after maxEntries).foldl (reconcileRow lookup readEpoch)
    (r, ⟨0, maxEntries < (r.streams.keysAfter after).length, after, []⟩)

end Registry

/-- The counters of `DaemonLifecycleCounters` and `AttachCloseBookkeeping` that attaching reads. -/
structure AttachCounters where
  liveAttachSubscriptions : ℕ
  highWaterAttachSubscriptions : ℕ
  reconnectRegistrations : ℕ
  releasedAttachGenerations : ℕ

inductive AttachedSubscriptionChange where
  | attach (key : Key)
  | detach (key : Key)

def recordAttachedSubscriptionChange (r : Registry) (counters : AttachCounters)
    (change : AttachedSubscriptionChange) (ownerGrantId : Option GrantId) :
    Registry × AttachCounters :=
  match change with
  | .attach key =>
    let known := key ∈ r.liveAttachRoutes
    let r := { r with liveAttachRoutes := insert key r.liveAttachRoutes }
    if known ∧ 0 < counters.liveAttachSubscriptions then (r, counters)
    else
      let counters :=
        if 0 < counters.releasedAttachGenerations then
          { counters with
            releasedAttachGenerations := counters.releasedAttachGenerations - 1
            reconnectRegistrations := counters.reconnectRegistrations + 1 }
        else counters
      let live := counters.liveAttachSubscriptions + 1
      let counters :=
        { counters with
          liveAttachSubscriptions := live
          highWaterAttachSubscriptions := max counters.highWaterAttachSubscriptions live }
      match ownerGrantId with
      | none => (r, counters)
      | some grantId =>
        ({ r with attachOwnerGrantIds := r.attachOwnerGrantIds.insert key grantId }, counters)
  | .detach key =>
    if key ∈ r.liveAttachRoutes then
      ({ r with
          liveAttachRoutes := r.liveAttachRoutes.erase key
          attachOwnerGrantIds := r.attachOwnerGrantIds.erase key },
        { counters with
          liveAttachSubscriptions := counters.liveAttachSubscriptions - 1
          releasedAttachGenerations := counters.releasedAttachGenerations + 1 })
    else (r, counters)

end BotsterHub.Attach
