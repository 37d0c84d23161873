import BotsterHub.Attach.Registry

/-!
Attaches, binds, detaches and cleanups as the owner thread interleaves them (`sessions.rs`,
`connection.rs`, `webrtc.rs`, `request.rs`, `route_cleanup.rs`).

Each waits for Core between its first and its last step. What waits is a record in the state, and
a step starts one or goes on with one; what Core, the transport and the budgets answer is an
input. Labels, adapters and peer generations are numbered, where the source draws labels at random
and checks that they are unused.
-/

namespace BotsterHub.Attach

def terminalReservationExpiresInSeconds : ℕ := 30

structure PendingAttach where
  owner : AttachStreamOwner
  key : Key
  identity : AttachmentIdentity
  reservation : RouteReservation
  adapter : Adapter
deriving DecidableEq

structure PendingQuery where
  grantId : GrantId
  key : Key
  peerGeneration : ℕ
deriving DecidableEq

inductive ReservationState where
  | live
  | expired
  | bound
deriving DecidableEq

/-- A `TerminalReservation` of class `Terminal`. -/
structure TerminalReservation where
  owner : AttachStreamOwner
  key : Key
  identity : AttachmentIdentity
  route : RouteReservation
  peerGeneration : ℕ
  expiresAtSeconds : ℕ
  state : ReservationState
deriving DecidableEq

structure PendingBind where
  grantId : GrantId
  label : ℕ
  peerGeneration : ℕ
  owner : AttachStreamOwner
  key : Key
  identity : AttachmentIdentity
  route : RouteReservation
  adapter : Adapter
deriving DecidableEq

/-- A detach that waits for Core; `client` is the budget key of the requester. -/
structure PendingDetach where
  client : BudgetKey
  key : Key
  identity : Option AttachmentIdentity
deriving DecidableEq

structure CleanupCandidate where
  coreClientId : ClientId
  key : Key
  identity : Option AttachmentIdentity
  generation : Option Generation
deriving DecidableEq

inductive CleanupRouteOutcome where
  | foreign
  | noGeneration
  | detached
  | detachFailed
deriving DecidableEq

/-- A row of `webrtc_admissions`. -/
structure WebrtcAdmission where
  admitted : Bool
  peerGeneration : ℕ
deriving DecidableEq

/-- The owner's state. `told` is history: the keys an owner was told it attached and has neither
detached nor been told closed. -/
structure Control where
  registry : Registry
  counters : AttachCounters
  nextSocket : ℕ
  unixAdmissions : Finset ℕ
  redeemed : Finset GrantId
  livePeers : Finset GrantId
  admittedPeers : Finset GrantId
  webrtcAdmissions : Dict GrantId WebrtcAdmission
  nextPeerGeneration : ℕ
  nextAdapter : ℕ
  nextLabel : ℕ
  attaches : Multiset PendingAttach
  queries : Multiset PendingQuery
  reservations : Dict ℕ TerminalReservation
  binds : Multiset PendingBind
  detaches : Multiset PendingDetach
  cleanups : Multiset CleanupCandidate
  told : Finset (BudgetKey × Key)

/-- One turn of the owner. The participles go on with something that waited. -/
inductive Step where
  | connect
  | signal (grantId : GrantId)
  | hello (grantId : GrantId) (admits hasRoom : Bool)
  | attach (socket : ℕ) (key : Key) (admitsWork : Bool)
  | attached (attempt : PendingAttach) (generation : Option Generation) (registered : Bool)
  | webrtcAttach (grantId : GrantId) (key : Key) (now : ℕ)
  | queried (query : PendingQuery) (running : Bool) (now : ℕ) (channelBudget armed : Bool)
  | bindReserved (grantId : GrantId) (label now : ℕ) (serviceable : Bool)
  | bound (bind : PendingBind) (generation : Option Generation) (delivered : Bool)
  | expire (grantId : GrantId) (label peerGeneration now : ℕ)
  | retireReserved (grantId : GrantId) (label : ℕ)
  | detach (client : BudgetKey) (key : Key)
  | detached (request : PendingDetach) (succeeded : Bool)
  | toldClosed (client : BudgetKey) (key : Key)
  | connectionCleanup (socket : ℕ) (attachedSubscriptions : Finset Key) (hasRuntime : Bool)
  | peerClosed (grantId : GrantId) (siblings : List GrantId) (snapshot : Finset Key)
      (hasRuntime : Bool)
  | cleaned (candidate : CleanupCandidate) (outcome : CleanupRouteOutcome)
  | cleanupLost (candidate : CleanupCandidate)
  | reconcile (lookup : ClientId → Key → Option (Option Generation)) (readEpoch : ℕ)
      (after : Option Key) (maxEntries : ℕ)
  | retainSessions (present : String → Bool)
  | closeSession (sessionId : String)

def unixOwner (socket : ℕ) : AttachStreamOwner := ⟨.socket socket, none⟩

def peerOwner (grantId : GrantId) (key : Key) : AttachStreamOwner :=
  ⟨.subscription key.subscriptionId, some grantId⟩

namespace Control

def new : Control :=
  { registry := .new, counters := ⟨0, 0, 0, 0⟩, nextSocket := 0, unixAdmissions := ∅
    redeemed := ∅, livePeers := ∅, admittedPeers := ∅, webrtcAdmissions := ∅
    nextPeerGeneration := 0, nextAdapter := 0, nextLabel := 0, attaches := 0, queries := 0
    reservations := ∅, binds := 0, detaches := 0, cleanups := 0, told := ∅ }

variable (s : Control)

def recordChange (change : AttachedSubscriptionChange) (ownerGrantId : Option GrantId) : Control :=
  let (registry, counters) :=
    recordAttachedSubscriptionChange s.registry s.counters change ownerGrantId
  { s with registry, counters }

def releaseFailedAttachRoute (r : Registry) (owner : AttachStreamOwner) (key : Key)
    (reservation : RouteReservation) : Registry :=
  if reservation = .inserted ∧ r.streamOwnerMatches key owner = false then
    r.releaseRoute owner.budgetKey key
  else r

def abandonUnboundTerminal (r : Registry) (owner : AttachStreamOwner)
    (identity : AttachmentIdentity) (route : RouteReservation) (key : Key) : Registry :=
  releaseFailedAttachRoute (r.cancelStreamIf key identity) owner key route

def closeHandle (r : Registry) (adapter : Adapter) : Registry :=
  { r with closed := insert adapter r.closed }

def reservationForLabel (label peerGeneration : ℕ) : Option TerminalReservation :=
  (s.reservations.lookup label).filter fun reservation =>
    reservation.peerGeneration = peerGeneration

def retireRouteOwner (reservation : TerminalReservation) : Control :=
  if reservation.state = .bound then s
  else
    { s with
      registry := abandonUnboundTerminal s.registry reservation.owner reservation.identity
        reservation.route reservation.key }

variable (grantId : GrantId)

def retireReservedSubscription (label : ℕ) : Control :=
  match s.webrtcAdmissions.lookup grantId with
  | none => s
  | some admission =>
    match s.reservationForLabel label admission.peerGeneration with
    | none => s
    | some reservation =>
      let s := s.retireRouteOwner reservation
      { s with reservations := s.reservations.erase label }

def emitReservationExpired (label peerGeneration now : ℕ) : Control :=
  match s.reservationForLabel label peerGeneration with
  | none => s
  | some reservation =>
    if reservation.state = .live ∧ reservation.expiresAtSeconds ≤ now then
      let reservation := { reservation with state := .expired }
      { s with reservations := s.reservations.insert label reservation }.retireRouteOwner
        reservation
    else s

def forgetRoute (key : Key) : Control :=
  { s with reservations := s.reservations.retain fun _ reservation => reservation.key ≠ key }

def forgetPeers (generations : List ℕ) : Control :=
  { s with
    reservations := s.reservations.retain fun _ reservation =>
      reservation.peerGeneration ∉ generations }

/-- `close_adapter_if` and `cancel_stream_if` of a captured identity. -/
def cancelAttachment (key : Key) (identity : Option AttachmentIdentity) : Control :=
  match identity with
  | some identity =>
    { s with registry := (s.registry.closeAdapterIf key identity).cancelStreamIf key identity }
  | none => s

def hasLiveForRoute (key : Key) (peerGeneration now : ℕ) : Bool :=
  s.reservations.entries.any fun entry =>
    entry.2.key = key ∧ entry.2.peerGeneration = peerGeneration ∧ entry.2.state = .live ∧
      now < entry.2.expiresAtSeconds

/-- `handle_attach` of a Unix connection. -/
def attach (socket : ℕ) (key : Key) (admitsWork : Bool) : Control :=
  if socket ∈ s.unixAdmissions then
    let owner := unixOwner socket
    let (reservation, registry) :=
      s.registry.reserveRoute owner.budgetKey key maxAttachRoutesPerOwner
    if reservation = .full then { s with registry }
    else if admitsWork = false then
      { s with registry := releaseFailedAttachRoute registry owner key reservation }
    else
      let (identity, registry) := registry.startAttach owner key
      { s with
        registry
        nextAdapter := s.nextAdapter + 1
        attaches := ⟨owner, key, identity, reservation, s.nextAdapter⟩ ::ₘ s.attaches }
  else s

/-- The rest of `handle_attach`, with the end of the request (`finish`). -/
def attached (attempt : PendingAttach) (generation : Option Generation)
    (registered : Bool) : Control :=
  let fail (registry : Registry) : Control :=
    { s with
      registry := releaseFailedAttachRoute registry attempt.owner attempt.key attempt.reservation }
  match generation with
  | some generation =>
    let live := s.registry.streamMatches attempt.key attempt.identity && registered
    let (marked, registry) :=
      s.registry.markAdapterBoundIf attempt.key attempt.identity generation attempt.adapter
    if live && marked then
      ({ s with
        registry
        told := insert (attempt.owner.budgetKey, attempt.key) s.told } : Control).recordChange
          (.attach attempt.key) none
    else fail (closeHandle s.registry attempt.adapter)
  | none =>
    fail ((closeHandle s.registry attempt.adapter).cancelStreamIf attempt.key attempt.identity)

/-- `handle_attach` of a peer: it only asks Core whether the session runs. -/
def webrtcAttach (key : Key) (now : ℕ) : Control :=
  match s.webrtcAdmissions.lookup grantId with
  | none => s
  | some admission =>
    if grantId ∈ s.livePeers ∧ admission.admitted ∧
        s.hasLiveForRoute key admission.peerGeneration now = false ∧ grantId ∈ s.admittedPeers then
      { s with queries := ⟨grantId, key, admission.peerGeneration⟩ ::ₘ s.queries }
    else s

/-- `reserve_webrtc_terminal`, with the end of the request. -/
def reserveWebrtcTerminal (key : Key) (peerGeneration now : ℕ)
    (channelBudget armed : Bool) : Control :=
  if s.webrtcAdmissions.lookup grantId = some ⟨true, peerGeneration⟩ ∧
      grantId ∈ s.admittedPeers ∧ s.hasLiveForRoute key peerGeneration now = false then
    let owner := peerOwner grantId key
    let (route, registry) := s.registry.reserveRoute owner.budgetKey key maxAttachRoutesPerOwner
    if route = .full then { s with registry }
    else
      let (identity, registry) := registry.startAttach owner key
      if channelBudget ∧ armed then
        ({ s with
          registry
          nextLabel := s.nextLabel + 1
          reservations := s.reservations.insert s.nextLabel
            ⟨owner, key, identity, route, peerGeneration,
              now + terminalReservationExpiresInSeconds, .live⟩ } : Control).recordChange
                (.attach key) (some grantId)
      else { s with registry := abandonUnboundTerminal registry owner identity route key }
  else s

/-- `bind_reserved_subscription` for a terminal channel. `serviceable`: budget, Core, capabilities
and owner allow it. -/
def bindReserved (label now : ℕ) (serviceable : Bool) : Control :=
  match s.webrtcAdmissions.lookup grantId with
  | none => s
  | some admission =>
    match s.reservationForLabel label admission.peerGeneration with
    | none => s
    | some reservation =>
      if reservation.state ≠ .live then s
      else if reservation.expiresAtSeconds ≤ now then
        s.emitReservationExpired label admission.peerGeneration now
      else if serviceable = true ∧ admission.admitted = true ∧
          s.registry.streamMatches reservation.key reservation.identity = true then
        { s with
          reservations := s.reservations.insert label { reservation with state := .bound }
          nextAdapter := s.nextAdapter + 1
          binds := ⟨grantId, label, admission.peerGeneration, reservation.owner,
            reservation.key, reservation.identity, reservation.route, s.nextAdapter⟩ ::ₘ
            s.binds }
      else s.retireReservedSubscription grantId label

def bound (s : Control) (bind : PendingBind) (generation : Option Generation) (delivered : Bool) :
    Control :=
  let abandon (registry : Registry) : Control :=
    ({ s with
      registry := abandonUnboundTerminal (closeHandle registry bind.adapter) bind.owner
        bind.identity bind.route bind.key } : Control).retireReservedSubscription bind.grantId
          bind.label
  match generation with
  | none => abandon s.registry
  | some generation =>
    let (stillOwned, registry) := s.registry.recordGenerationIf bind.key bind.identity generation
    let claimed := (s.reservationForLabel bind.label bind.peerGeneration).any fun reservation =>
      reservation.state = .bound
    if stillOwned = false ∨ claimed = false then abandon registry
    else
      let (_, registry) :=
        registry.markAdapterBoundIf bind.key bind.identity generation bind.adapter
      if delivered then { s with registry, told := insert (bind.owner.budgetKey, bind.key) s.told }
      else
        ({ s with
          registry := (closeHandle registry bind.adapter).cancelStreamIf bind.key
            bind.identity } : Control).retireReservedSubscription bind.grantId bind.label

def detach (client : BudgetKey) (key : Key) : Control :=
  { s with detaches := ⟨client, key, s.registry.streamIdentity key⟩ ::ₘ s.detaches }

/-- The end of a successful detach (`finish`): a key with a stream keeps its bookkeeping. -/
def finishDetach (client : BudgetKey) (key : Key) : Control :=
  let s : Control := { s with told := s.told.erase (client, key) }
  if (s.registry.streamIdentity key).isSome then s
  else
    { s with registry := s.registry.releaseRoute client key }.recordChange (.detach key) none

def detached (request : PendingDetach) (succeeded : Bool) : Control :=
  let owned := request.identity.any fun identity => s.registry.streamMatches request.key identity
  if succeeded = false then s
  else if owned then
    ((s.cancelAttachment request.key request.identity).forgetRoute request.key).finishDetach
      request.client request.key
  else s.finishDetach request.client request.key

def candidateForDepartingOwner (r : Registry) (owner : AttachStreamOwner) (coreClientId : ClientId)
    (key : Key) : Option CleanupCandidate :=
  match r.streamIdentity key, r.streamOwnerMatches key owner with
  | some identity, true => some ⟨identity.clientId, key, some identity, r.recordedGeneration key⟩
  | some _, false =>
    if owner.grantId.isSome then none else some ⟨coreClientId, key, none, none⟩
  | none, _ => some ⟨coreClientId, key, none, none⟩

def connectionCleanup (socket : ℕ) (attachedSubscriptions : Finset Key)
    (hasRuntime : Bool) : Control :=
  let clientId := ClientId.socket socket
  let (claims, registry) := s.registry.takeConnectionBoundRoutes clientId
  let unbound := registry.unboundRoutesForClient clientId
  let (held, registry) := registry.takeOwnerRoutes (.client clientId)
  let keys := claims.image ConnectionBoundRoute.key ∪ attachedSubscriptions ∪
    (unbound.map Prod.fst).toFinset ∪ held
  let candidates := keys.ascending.filterMap
    (candidateForDepartingOwner registry (unixOwner socket) clientId)
  let registry := unbound.foldl (fun r entry => r.cancelStreamIf entry.1 entry.2) registry
  { s with
    registry
    unixAdmissions := s.unixAdmissions.erase socket
    cleanups := if hasRuntime then (candidates : Multiset CleanupCandidate) + s.cleanups
      else s.cleanups
    told := s.told.filter fun entry => entry.1 ≠ .client clientId }

def departRoute (acc : Control × List CleanupCandidate) (route : GrantId × Key) :
    Control × List CleanupCandidate :=
  match candidateForDepartingOwner acc.1.registry ⟨.unnamed, some route.1⟩
      (.subscription route.2.subscriptionId) route.2 with
  | none => acc
  | some candidate =>
    ((acc.1.cancelAttachment route.2 candidate.identity).recordChange (.detach route.2) none,
      acc.2 ++ [candidate])

def departPeers (cleaning : List GrantId) (primary : GrantId)
    (snapshot : Finset Key) : Control × List CleanupCandidate :=
  let departing := s.registry.departingRoutesForGrants cleaning primary snapshot
  let registry := cleaning.foldl (fun r grant => (r.takeOwnerRoutes (.grant grant)).2) s.registry
  departing.foldl departRoute ({ s with registry }, [])

def forgetGrants (removed cleaning : List GrantId) : Control :=
  let generations := removed.filterMap fun grant =>
    (s.webrtcAdmissions.lookup grant).map WebrtcAdmission.peerGeneration
  let s := s.forgetPeers generations
  let grants := s.registry.attachOwnerGrantIds.retain fun _ grant => grant ∉ removed
  { s with
    livePeers := s.livePeers.filter (· ∉ removed)
    registry := { s.registry with attachOwnerGrantIds := grants }
    webrtcAdmissions := s.webrtcAdmissions.retain fun grant _ => grant ∉ removed
    admittedPeers := s.admittedPeers.filter (· ∉ cleaning)
    told := s.told.filter fun entry => entry.1 ∉ cleaning.map BudgetKey.grant }

/-- `handle_peer_closed`. `siblings` are the further grants removed with it; only those that still
hold their permit take part in the cleanup. -/
def peerClosed (siblings : List GrantId) (snapshot : Finset Key) (hasRuntime : Bool) : Control :=
  let removed := grantId :: siblings
  let cleaning := removed.filter (· ∈ s.admittedPeers)
  let (s, candidates) := s.departPeers cleaning grantId snapshot
  let s := s.forgetGrants removed cleaning
  { s with
    cleanups := if hasRuntime then (candidates : Multiset CleanupCandidate) + s.cleanups
      else s.cleanups }

/-- `apply_cleanup_reports` on one report. A stream that is not the captured one is a replacement.
-/
def cleaned (candidate : CleanupCandidate) (outcome : CleanupRouteOutcome) :
    Control :=
  let current := s.registry.streamIdentity candidate.key
  if outcome = .foreign ∨ outcome = .detachFailed then s
  else if current.isSome ∧ current ≠ candidate.identity then s
  else
    (s.cancelAttachment candidate.key candidate.identity).recordChange (.detach candidate.key) none

def reconcile (lookup : ClientId → Key → Option (Option Generation))
    (readEpoch : ℕ) (after : Option Key) (maxEntries : ℕ) : Control :=
  let (registry, progress) := s.registry.reconcileInventorySlice lookup readEpoch after maxEntries
  progress.retired.foldl (fun s key => s.recordChange (.detach key) none) { s with registry }

def step : Step → Control
  | .connect =>
    { s with
      nextSocket := s.nextSocket + 1
      unixAdmissions := insert s.nextSocket s.unixAdmissions }
  | .signal grantId =>
    if grantId ∈ s.redeemed then s
    else
      { s with redeemed := insert grantId s.redeemed, livePeers := insert grantId s.livePeers }
  | .hello grantId admits hasRoom =>
    if grantId ∈ s.livePeers then
      { s with
        nextPeerGeneration := s.nextPeerGeneration + 1
        admittedPeers := if hasRoom then insert grantId s.admittedPeers else s.admittedPeers
        webrtcAdmissions := s.webrtcAdmissions.insert grantId
          ⟨admits && hasRoom, s.nextPeerGeneration + 1⟩ }
    else s
  | .attach socket key admitsWork => s.attach socket key admitsWork
  | .attached attempt generation registered =>
    if attempt ∈ s.attaches then
      { s with attaches := s.attaches.erase attempt }.attached attempt generation
        registered
    else s
  | .webrtcAttach grantId key now => s.webrtcAttach grantId key now
  | .queried query running now channelBudget armed =>
    if query ∈ s.queries then
      let s : Control := { s with queries := s.queries.erase query }
      if running then
        s.reserveWebrtcTerminal query.grantId query.key query.peerGeneration now channelBudget armed
      else s
    else s
  | .bindReserved grantId label now serviceable => s.bindReserved grantId label now serviceable
  | .bound bind generation delivered =>
    if bind ∈ s.binds then
      { s with binds := s.binds.erase bind }.bound bind generation delivered
    else s
  | .expire _ label peerGeneration now => s.emitReservationExpired label peerGeneration now
  | .retireReserved grantId label => s.retireReservedSubscription grantId label
  | .detach client key => s.detach client key
  | .detached request succeeded =>
    if request ∈ s.detaches then
      { s with detaches := s.detaches.erase request }.detached request succeeded
    else s
  | .toldClosed client key => { s with told := s.told.erase (client, key) }
  | .connectionCleanup socket attachedSubscriptions hasRuntime =>
    if socket ∈ s.unixAdmissions then s.connectionCleanup socket attachedSubscriptions hasRuntime
    else s
  | .peerClosed grantId siblings snapshot hasRuntime =>
    s.peerClosed grantId siblings snapshot hasRuntime
  | .cleaned candidate outcome =>
    if candidate ∈ s.cleanups then
      { s with cleanups := s.cleanups.erase candidate }.cleaned candidate outcome
    else s
  | .cleanupLost candidate => { s with cleanups := s.cleanups.erase candidate }
  | .reconcile lookup readEpoch after maxEntries => s.reconcile lookup readEpoch after maxEntries
  | .retainSessions present =>
    { s with registry := s.registry.retainSessionsPresentIn present }
  | .closeSession sessionId =>
    { s with registry := s.registry.closeAdaptersForSession sessionId }

def run (steps : List Step) : Control := steps.foldl step s

end Control

end BotsterHub.Attach
