import BotsterHub.Router.Envelopes
import BotsterHub.Router.Generations
import BotsterHub.Router.Queues
import Mathlib.Data.Finset.Max
import Mathlib.Data.List.Sort
import Mathlib.Data.String.Basic

/-!
The operations of the package event router on its whole state.

Every operation runs under the mutex, so it is a function on the state; one that finds it busy is
left out. `none` is a failed `expect`, assertion or checked subtraction. Clock, encoder and
retained bytes are parameters.
-/

namespace BotsterHub.Router

structure RouterInner where
  policy : Policy
  registry : Registry
  queues : Queues
  store : EnvelopeStore
  nextPull : ℕ
  outstandingPulls : Finset ℕ
  /-- Quarantined owners whose next unload is logged. -/
  strandedOwners : Finset String

namespace RouterInner

def hubContracts (schema : Json → Bool) : Dict String EmittedContract :=
  worktreeEventNames.foldl (fun m name => m.insert name
    { owner := hubEventOwner
      name := name
      audience := {.plugins}
      validate := schema
      packageGeneration := 0 }) ∅

/-- `schema` is the schema of the worktree events. -/
def new (policy : Policy) (schema : Json → Bool) : RouterInner where
  policy := policy
  registry :=
    { contracts := (∅ : Dict String (Dict String EmittedContract)).insert hubEventOwner
        (hubContracts schema)
      contractNameCounts := (hubContracts schema).filterMapVal fun _ _ => some 1
      subscriptions := ∅
      clientHolders := ∅
      clientById := ∅
      subscriptionsPerPlugin := ∅
      subscriptionEventsByPlugin := ∅
      packageGeneration := ∅
      pending := none
      buckets := ∅ }
  queues := Queues.empty
  store := EnvelopeStore.empty
  nextPull := 1
  outstandingPulls := ∅
  strandedOwners := ∅

structure Ingress where
  status : EventPlaneStatus
  clients : List ClientEventHolder
  raised : Bool

def clientSubjectMatches (subjects : Finset String) (payload : Json) : Bool :=
  decide (subjects = ∅) ||
    ((payload.get? "subject").bind Json.asStr?).any fun subject => decide (subject ∈ subjects)

def clientTargets (r : Registry) (owner name : String) (payload : Json) : List ClientEventHolder :=
  (((r.clientHolders.get₂ owner name).getD []).map RegisteredClientEventHolder.holder).filter
    fun holder => clientSubjectMatches holder.subjects payload

def selectSubscriptions (r : Registry) (owner name : String) : List EventSubscription :=
  (r.subscribersOf owner name).filter fun s => !s.isWaiting && r.declaresForPlugins s.owner s.name

/-- The registrations whose consumers have room, with the occupancy reached so far. Every consumer
visited gets a queue. -/
def admitCopies (policy : Policy) (size : ℕ) :
    List EventSubscription → Queues → Dict String (ℕ × ℕ) → List EventSubscription × Queues
  | [], q, _ => ([], q)
  | s :: rest, q, projected =>
    let q := q.ensureConsumer s.pluginKey
    let consumer := q.queueOf s.pluginKey
    let (events, bytes) := (projected.lookup s.pluginKey).getD (consumer.events, consumer.bytes)
    if policy.consumerQueueMaxEvents < events + 1 ∨ policy.consumerQueueMaxBytes < bytes + size then
      admitCopies policy size rest q (projected.insert s.pluginKey (events, bytes))
    else
      let (accepted, q) := admitCopies policy size rest q
        (projected.insert s.pluginKey (events + 1, bytes + size))
      (s :: accepted, q)

variable (inner : RouterInner)

def publish (owner name : String) (payload : Json)
    (encoded : List UInt8) (now : Instant) (accepted : List EventSubscription) :
    Option RouterInner :=
  let envelope : Envelope :=
    { id := inner.store.nextEnvelope
      owner := owner
      name := name
      payload := encoded
      payloadJson := payload
      size := encoded.length
      enqueuedAt := now
      remainingHolders := accepted.length
      retirement := none }
  (accepted.foldlM (fun (q : Queues) s => q.enqueueConsumerCopy envelope.id envelope.size s)
    inner.queues).map fun queues =>
      { inner with queues := queues, store := inner.store.insertEnvelope envelope }

def fanOut (owner name : String) (payload : Json)
    (encoded : List UInt8) (now : Instant) : Option (Ingress × RouterInner) :=
  let selected := selectSubscriptions inner.registry owner name
  if inner.policy.fanoutPerEmitMax < selected.length then
    some (⟨.rejectedOverFanout, [], false⟩, inner)
  else
    let size := encoded.length
    let inner := { inner with store := inner.store.ensureProducer owner }
    let producer := inner.store.producerOf owner
    if inner.policy.producerQueueMaxEvents < producer.events + 1 ∨
        inner.policy.producerQueueMaxBytes < producer.bytes + size ∨
        inner.policy.globalInFlightBytes < inner.store.globalInFlightBytes + size then
      some (⟨.shedFull, [], false⟩, inner)
    else
      let (accepted, queues) := admitCopies inner.policy size selected inner.queues ∅
      let inner := { inner with queues := queues }
      let clients := clientTargets inner.registry owner name payload
      if accepted.isEmpty then
        if (inner.registry.subscribersOf owner name).isEmpty then
          some (⟨.accepted, clients, false⟩, inner)
        else some (⟨.shedFull, [], false⟩, inner)
      else if inner.store.nextEnvelope = u64Max then some (⟨.shedFull, [], false⟩, inner)
      else (inner.publish owner name payload encoded now accepted).map fun inner =>
        (⟨.accepted, clients, true⟩, inner)

/-- `encode` is the JSON encoder; `none` is an encoder error. -/
def tryIngressNow (encode : Json → Option (List UInt8)) (inner : RouterInner)
    (caller name : String) (payload : Json) (now : Instant) : Option (Ingress × RouterInner) :=
  if isWildcard caller || isWildcard name then some (⟨.rejectedWildcard, [], false⟩, inner)
  else if isBlank caller || isBlank name then some (⟨.rejectedInvalid, [], false⟩, inner)
  else match inner.registry.contracts.get₂ caller name with
    | none =>
      if decide (caller ≠ hubEventOwner) && inner.registry.nameOwnedByOther name then
        some (⟨.rejectedForeign, [], false⟩, inner)
      else some (⟨.rejectedUndeclared, [], false⟩, inner)
    | some contract =>
      if contract.owner ≠ caller then some (⟨.rejectedForeign, [], false⟩, inner)
      else if !contract.validate payload then some (⟨.rejectedInvalid, [], false⟩, inner)
      else match encode payload with
        | none => some (⟨.rejectedInvalid, [], false⟩, inner)
        | some encoded =>
          if inner.policy.payloadMaxBytes < encoded.length then
            some (⟨.rejectedOversize, [], false⟩, inner)
          else
            let (granted, registry) := inner.registry.consumeToken inner.policy caller now
            let inner := { inner with registry := registry }
            if granted then inner.fanOut caller name payload encoded now
            else some (⟨.rejectedOverRate, [], false⟩, inner)

def noteAdmitted (inner : RouterInner) (envelopeId : ℕ) (key : String × ℕ) : RouterInner :=
  { inner with store := inner.store.noteAdmitted envelopeId key }

/-- The flag says that the envelope left with this holder. -/
def retireHolder (envelopeId : ℕ) (key : String × ℕ) : Option (Bool × RouterInner) :=
  (inner.store.retireHolderLocked envelopeId key).map fun (last, store) =>
    (last, { inner with store := store })

def retirePulled (pullId envelopeId : ℕ) (key : String × ℕ) : Option (Bool × RouterInner) :=
  { inner with outstandingPulls := inner.outstandingPulls.erase pullId }.retireHolder envelopeId key

/-- Return a pulled copy to the front of its queue. An error hands it back. -/
def requeue (delivery : ReadyDelivery) (engineRefused : Bool) :
    Option (Except EventPlaneStatus Unit × RouterInner) :=
  if delivery.pullId ∉ inner.outstandingPulls then some (.error .rejectedInvalid, inner)
  else if (inner.store.liveEnvelope delivery.envelopeId).isNone then
    some (.ok (), { inner with outstandingPulls := inner.outstandingPulls.erase delivery.pullId })
  else
    let queues := inner.queues.ensureConsumer delivery.holder.pluginKey
    let consumer := queues.queueOf delivery.holder.pluginKey
    if inner.policy.consumerQueueMaxEvents < consumer.events + 1 ∨
        inner.policy.consumerQueueMaxBytes < consumer.bytes + delivery.size then
      -- the pull stays outstanding
      some (.error .shedFull, { inner with queues := queues })
    else (queues.requeueCopy delivery.copy delivery.size engineRefused).map fun queues =>
      (.ok (), { inner with
        queues := queues
        outstandingPulls := inner.outstandingPulls.erase delivery.pullId })

def unparkEngineConsumers (inner : RouterInner) : Bool × RouterInner :=
  (inner.queues.unparkEngineConsumers.1,
    { inner with queues := inner.queues.unparkEngineConsumers.2 })

structure PullLimits where
  maxItems : ℕ
  maxBytes : ℕ
  started : Instant
  maxElapsed : Duration
  clock : ℕ → Instant

structure Pull where
  inner : RouterInner
  ready : List ReadyDelivery
  usedBytes : ℕ
  readings : ℕ

namespace Pull

def stops (limits : PullLimits) (p : Pull) : Bool :=
  decide (limits.maxItems ≤ p.ready.length) ||
    decide (limits.maxElapsed ≤ limits.clock p.readings - limits.started)

def tick (p : Pull) : Pull := { p with readings := p.readings + 1 }

def setQueues (p : Pull) (queues : Queues) : Pull :=
  { p with inner := { p.inner with queues := queues } }

def deliver (p : Pull) (copy : QueuedCopy) (envelope : Envelope) : Pull :=
  { p with
    usedBytes := p.usedBytes + envelope.size
    ready := p.ready ++ [
      { envelopeId := copy.envelopeId
        owner := envelope.owner
        name := envelope.name
        payload := envelope.payload
        payloadJson := envelope.payloadJson
        size := envelope.size
        holder := copy.holder
        pullId := p.inner.nextPull }]
    inner := { p.inner with
      nextPull := saturatingAdd p.inner.nextPull 1
      outstandingPulls := insert p.inner.nextPull p.inner.outstandingPulls } }

/-- A popped copy expires, does not fit the byte budget, or is handed out. The flag: the loop over
this consumer goes on. -/
def disposeCopy (limits : PullLimits) (plugin : String) (p : Pull) (copy : QueuedCopy)
    (size : ℕ) (expired : Bool) : Option (Bool × Pull) :=
  if expired then
    (p.inner.retireHolder copy.envelopeId copy.holder.holderKey).map fun (_, inner) =>
      (true, { p with inner := inner })
  else if limits.maxBytes < p.usedBytes + size ∧ p.ready ≠ [] then
    some (false, p.setQueues (p.inner.queues.putBackCopy plugin copy size))
  else (p.inner.store.liveEnvelope copy.envelopeId).map fun envelope =>
    (true, p.deliver copy envelope)

def pullCopy (limits : PullLimits) (plugin : String) (p : Pull) : Option (Bool × Pull) :=
  (p.inner.queues.popQueuedCopy plugin).bind fun (popped, queues) =>
    let p := p.setQueues queues
    match popped with
    | none => some (false, p)
    | some copy =>
      match p.inner.store.liveEnvelope copy.envelopeId, queues.consumers.lookup plugin with
      | some envelope, some queue =>
        let expired := decide
          (p.inner.policy.queueAge < limits.clock p.readings - envelope.enqueuedAt)
        let p := p.tick.setQueues (queues.setQueue plugin
          { queue with events := queue.events - 1, bytes := queue.bytes - envelope.size })
        p.disposeCopy limits plugin copy envelope.size expired
      | _, _ => some (true, p)

/-- The loop over a consumer's queue; `none` also when the fuel runs out. -/
def pullConsumer (limits : PullLimits) (plugin : String) : ℕ → Pull → Option Pull
  | 0, _ => none
  | fuel + 1, p =>
    if p.stops limits then some p.tick
    else (p.tick.pullCopy limits plugin).bind fun (again, p) =>
      if again then pullConsumer limits plugin fuel p else some p

def nextReadyConsumer (q : Queues) : Option String :=
  let after := q.readyConsumers.filter fun plugin =>
    q.lastReadyConsumer.any fun cursor => decide (cursor < plugin)
  if after.Nonempty then after.min else q.readyConsumers.min

def withCursor (p : Pull) (plugin : String) : Pull :=
  p.setQueues { p.inner.queues with lastReadyConsumer := some plugin }

/-- The pass over the consumers that were ready. Each turn pops a copy, so the queue bounds the
turns. -/
def pullConsumers (limits : PullLimits) : ℕ → Pull → Option Pull
  | 0, p => some p
  | visits + 1, p =>
    if p.stops limits then some p.tick
    else match nextReadyConsumer p.inner.queues with
      | none => some p.tick
      | some plugin =>
        ((p.tick.withCursor plugin).pullConsumer limits plugin
          ((p.inner.queues.queueOf plugin).copies.length + 1)).bind (pullConsumers limits visits)

end Pull

/-- The flag says that the delivery key is raised: there is more to do. -/
def pullReadyBatch (limits : PullLimits) : Option (List ReadyDelivery × Bool × RouterInner) :=
  (Pull.pullConsumers limits inner.queues.readyConsumers.card ⟨inner, [], 0, 0⟩).map fun p =>
    (p.ready, !p.ready.isEmpty || decide (p.inner.queues.readyConsumers.Nonempty), p.inner)

variable (owner : String)

/-- The unload of `owner` drops a queued copy when `owner` is its producer or its
subscriber. -/
def unloadRemovesSubscription (generation : ℕ) (s : EventSubscription) : Bool :=
  (s.owner == owner && decide (s.eventGeneration ≤ generation)) ||
    (s.pluginKey == owner && decide (s.pluginGeneration ≤ generation))

def unloadConsumers (q : Queues) (owner : String) : List String :=
  let own := if (q.consumers.lookup owner).isSome then [owner] else []
  (((q.queuedByProducer.lookup owner).getD ∅).keys ++ own).dedup.insertionSort (· ≤ ·)

def dropFromConsumers (remove : QueuedCopy → Bool) (state : List QueuedCopy × Queues)
    (consumers : List String) : Option (List QueuedCopy × Queues) :=
  consumers.foldlM (fun state plugin =>
    (state.2.dropFrom remove plugin).map fun (more, q) => (state.1 ++ more, q)) state

/-- Release one dropped copy. The envelope of a last holder keeps its charge under `cleanup` and is
listed in `retired`. -/
def releaseDropped (cleanup : String × ℕ) (state : List ℕ × Queues × EnvelopeStore)
    (copy : QueuedCopy) : Option (List ℕ × Queues × EnvelopeStore) :=
  let (retired, q, s) := state
  (q.forgetQueuedCopy copy.holder).bind fun q =>
    let q := match s.liveEnvelope copy.envelopeId with
      | some envelope => q.releaseBytes copy.holder.pluginKey envelope.size
      | none => q
    let (last, s) := s.markHolderRetired copy.envelopeId copy.holder.holderKey
    if last then
      (s.beginRetirement copy.envelopeId cleanup).map fun s => (retired ++ [copy.envelopeId], q, s)
    else some (retired, q, s)

/-- Returns the envelopes whose payloads the caller has to destroy. -/
def dropQueuedForOwner (generation : ℕ) : Option (List ℕ × RouterInner) := do
  let (dropped, queues) ← dropFromConsumers
    (fun copy => unloadRemovesSubscription owner generation copy.holder) ([], inner.queues)
    (unloadConsumers inner.queues owner)
  let (retired, queues, store) ← dropped.foldlM (releaseDropped (owner, generation))
    ([], queues, inner.store)
  some (retired, { inner with queues, store, strandedOwners := inner.strandedOwners.erase owner })

def applyUnload (generation : ℕ) : Option (List ℕ × RouterInner) :=
  if owner = hubEventOwner then some ([], inner)
  else (inner.registry.unloadRegistrations owner generation).bind fun registry =>
    { inner with registry := registry }.dropQueuedForOwner owner generation

/-- Worker ownership of one unload. -/
structure OwnerWork where
  owner : String
  generation : ℕ
  metadataApplied : Bool
  retiredPayloads : List ℕ

/-- The Hub itself is never unloaded. -/
def tryApplyUnload (generation : ℕ) : Option OwnerWork :=
  if owner = hubEventOwner then none else some ⟨owner, generation, false, []⟩

/-- The first critical section of `EventOwnerWork::run`. A staged generation of the package is
discarded. -/
def applyMetadata (work : OwnerWork) : Option (OwnerWork × RouterInner) :=
  if work.metadataApplied then some (work, inner)
  else (inner.applyUnload work.owner work.generation).map fun (retired, inner) =>
    let registry := if inner.registry.pending.any fun pending => pending.owner == work.owner then
        { inner.registry with pending := none }
      else inner.registry
    ({ work with metadataApplied := true, retiredPayloads := retired },
      { inner with registry := registry })

/-- Dropping the payloads, outside the lock. -/
def destroyPayloads (work : OwnerWork) : OwnerWork × RouterInner :=
  ({ work with retiredPayloads := [] }, { inner with
    store := work.retiredPayloads.foldl EnvelopeStore.destroyPayload inner.store })

/-- The second critical section of `EventOwnerWork::run`. -/
def finishWork (work : OwnerWork) : Option RouterInner :=
  (inner.store.retireDestroyedPayloads (work.owner, work.generation)).map fun store =>
    { inner with store := store }

def ensureOwnerQueues : RouterInner :=
  let events := (inner.registry.subscriptions.lookup owner).getD ∅
  let plugins := events.entries.flatMap fun e => e.2.map EventSubscription.pluginKey
  let own := if (inner.registry.subscriptionEventsByPlugin.lookup owner).isSome then [owner]
    else []
  { inner with
    store := inner.store.ensureProducer owner
    queues := (plugins ++ own).foldl Queues.ensureConsumer inner.queues }

def commitPackageGeneration
    (contracts : List EmittedContract) (subscriptions : List EventSubscription) :
    Option (Except EventPlaneStatus ℕ × RouterInner) :=
  (inner.registry.commitRegistrations inner.policy owner contracts subscriptions).map
    fun (result, registry) =>
      let inner := { inner with registry := registry }
      match result with
      | .error status => (.error status, inner)
      | .ok generation =>
        (.ok generation, if contracts.isEmpty && subscriptions.isEmpty then inner
          else inner.ensureOwnerQueues owner)

def stageGeneration (contracts : List EmittedContract)
    (subscriptions : List EventSubscription) (retainedBytes : PendingGeneration → ℕ)
    (reservedBytes : ℕ) : Option (Except StageError StagedGeneration × RouterInner) :=
  (inner.registry.stagePackageGeneration inner.policy owner contracts subscriptions
    retainedBytes reservedBytes).map fun (result, registry) =>
      (result, { inner with registry := registry })

/-- The critical section of an activation; the work destroys what the unload retired. -/
def activateStagedGeneration (staged : StagedGeneration) :
    Option (Option (Except EventPlaneStatus ℕ × OwnerWork) × RouterInner) :=
  match inner.registry.takeStaged staged with
  | (none, registry) => some (none, { inner with registry := registry })
  | (some pending, registry) => do
    let inner := { inner with registry := registry }
    let unloadGeneration := inner.registry.generationOf pending.owner
    let (retired, inner) ← inner.applyUnload pending.owner unloadGeneration
    let (result, inner) ← inner.commitPackageGeneration pending.owner pending.contracts
      pending.subscriptions
    -- the install recorded the staged generation
    let result := match result with
      | .ok committed => if committed = pending.generation then .ok committed
        else .error .rejectedInvalid
      | .error status => .error status
    some (some (result, ⟨pending.owner, unloadGeneration, true, retired⟩), inner)

def abortStagedGeneration (staged : StagedGeneration) : Bool × RouterInner :=
  let (pending, registry) := inner.registry.takeStaged staged
  (pending.isSome, { inner with registry := registry })

def markStranded : RouterInner :=
  { inner with strandedOwners := insert owner inner.strandedOwners }

def subscribeClient (holder : ClientEventHolder) : EventPlaneStatus × RouterInner :=
  let (status, registry) := inner.registry.subscribeClientLocked inner.policy holder
  (status, { inner with registry := registry })

def unsubscribeClient (connectionId subscriptionId : String) : EventPlaneStatus × RouterInner :=
  let (status, registry) := inner.registry.unsubscribeClientLocked connectionId subscriptionId
  (status, { inner with registry := registry })

def cleanupClientHolder (inner : RouterInner) (connectionId subscriptionId : String)
    (mailbox : ℕ) : RouterInner :=
  { inner with registry := inner.registry.cleanupClientHolder connectionId subscriptionId mailbox }

end RouterInner

end BotsterHub.Router
