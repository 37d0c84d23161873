import BotsterHub.Router.Order

/-!
The package event delivery slice of the maintenance loop (`daemon_maintenance.rs`).

A slice retires one left-over delivery, pulls a batch from the router and offers each delivery to
the plugin engine. Other threads publish and unload between any two router calls, so the part
before the loop and each turn are one step. What the rest of the Hub answers is an input; slices
run at any point. A poisoned router lock is left out.
-/

namespace BotsterHub.Maintenance

open Router
open Router.RouterInner (OwnerWork PullLimits)

def eventDeliveryMaxItems : ℕ := 8
def eventDeliveryMaxBytes : ℕ := 32 * 1024
def eventDeliveryMaxElapsed : Duration := 8000000

structure EventDeliveryFlight where
  envelopeId : ℕ
  pluginKey : String
  generation : ℕ
  scopeId : Option ℕ
  requestId : String
  holderRetired : Bool
  pullId : Option ℕ
deriving DecidableEq

def packageEventRequestId (d : ReadyDelivery) : String :=
  "package-event-" ++ d.owner ++ "-" ++ d.name ++ "-" ++ toString d.envelopeId ++ "-" ++
    toString d.pullId

def eventFlight (d : ReadyDelivery) (scopeId : Option ℕ) (requestId : String) :
    EventDeliveryFlight where
  envelopeId := d.envelopeId
  pluginKey := d.holder.pluginKey
  generation := d.holder.generation
  scopeId := scopeId
  requestId := requestId
  holderRetired := false
  pullId := some d.pullId

/-- The loop over a batch. `returned`, the consumers it returned a delivery to, is not in the
source. -/
structure Batch where
  rest : List ReadyDelivery
  returned : Finset String

/-- An admission, with the events of the consumer then neither delivered nor given up. -/
structure Admission where
  plugin : String
  envelopeId : ℕ
  waiting : List ℕ
deriving DecidableEq

/-- The event part of `MaintenanceState`, with the router and the unload works. `admissions` is
history. -/
structure EventDelivery where
  inner : RouterInner
  works : List OwnerWork
  eventInFlight : Dict String EventDeliveryFlight
  pendingRetirements : List EventDeliveryFlight
  eventCausalBlocked : Bool
  eventCausalFaulted : Bool
  /-- Whether `engine_parked_seen` holds an epoch. -/
  engineParkedSeen : Bool
  engineUnparkDue : Bool
  batch : Option Batch
  admissions : List Admission

namespace EventDelivery

def new (policy : Policy) (schema : Json → Bool) : EventDelivery where
  inner := RouterInner.new policy schema
  works := []
  eventInFlight := ∅
  pendingRetirements := []
  eventCausalBlocked := false
  eventCausalFaulted := false
  engineParkedSeen := false
  engineUnparkDue := false
  batch := none
  admissions := []

/-- Whether the lock was busy, whether the release of the scope was applied, and whether the scopes
are faulted. -/
structure RetireAnswer where
  busy : Bool
  applied : Bool
  faulted : Bool

variable (inner : RouterInner)

/-- The flag says that nothing of the flight is left. -/
def retireEventHolder (flight : EventDeliveryFlight)
    (answer : RetireAnswer) : Option (Bool × EventDeliveryFlight × RouterInner) :=
  if flight.holderRetired then some (flight.scopeId.isNone || answer.applied, flight, inner)
  else if answer.busy then some (false, flight, inner)
  else
    let key := (flight.pluginKey, flight.generation)
    let retired := match flight.pullId with
      | some pullId => inner.retirePulled pullId flight.envelopeId key
      | none => inner.retireHolder flight.envelopeId key
    retired.map fun (_, inner) =>
      (flight.scopeId.isNone || answer.applied,
        { flight with holderRetired := true, pullId := none }, inner)

variable (st : EventDelivery)

def queueEventRetirement (flight : EventDeliveryFlight) (answer : RetireAnswer) : EventDelivery :=
  let blocks := flight.holderRetired && flight.scopeId.isSome
  { st with
    eventCausalBlocked := st.eventCausalBlocked || blocks
    eventCausalFaulted := st.eventCausalFaulted || (blocks && answer.faulted)
    pendingRetirements := st.pendingRetirements ++ [flight] }

def retireOrQueue (flight : EventDeliveryFlight) (answer : RetireAnswer) : Option EventDelivery :=
  (retireEventHolder st.inner flight answer).map fun (retired, flight, inner) =>
    let st := { st with inner := inner }
    if retired then st else st.queueEventRetirement flight answer

def retireTwice (flight : EventDeliveryFlight)
    (answer again : RetireAnswer) : Option (Bool × EventDeliveryFlight × RouterInner) :=
  (retireEventHolder inner flight answer).bind fun (retired, flight, inner) =>
    if !retired && !flight.holderRetired then retireEventHolder inner flight again
    else some (retired, flight, inner)

def flushPendingEventRetirements (answer again : RetireAnswer) : Option (Bool × EventDelivery) :=
  if st.eventCausalBlocked || st.eventCausalFaulted then some (false, st)
  else match st.pendingRetirements with
    | [] => some (false, st)
    | flight :: rest =>
      (retireTwice st.inner flight answer again).map fun (retired, flight, inner) =>
        let st := { st with inner := inner }
        if retired then (false, { st with pendingRetirements := rest })
        else if !flight.holderRetired then (true, { st with pendingRetirements := flight :: rest })
        else
          -- only the causal release was refused
          (false, { st with
            pendingRetirements := flight :: rest
            eventCausalBlocked := flight.scopeId.isSome
            eventCausalFaulted := flight.scopeId.isSome && again.faulted })

structure PullAttempt where
  unparkBusy : Bool
  pullBusy : Bool
  started : Instant
  clock : ℕ → Instant

def PullAttempt.limits (attempt : PullAttempt) : PullLimits where
  maxItems := eventDeliveryMaxItems
  maxBytes := eventDeliveryMaxBytes
  started := attempt.started
  maxElapsed := eventDeliveryMaxElapsed
  clock := attempt.clock

def pull (unpark : Bool) (attempt : PullAttempt) :
    Option (Option (List ReadyDelivery) × RouterInner) :=
  if unpark && attempt.unparkBusy then some (none, inner)
  else
    let inner := if unpark then inner.unparkEngineConsumers.2 else inner
    if attempt.pullBusy then some (none, inner)
    else (inner.pullReadyBatch attempt.limits).map fun (batch, _, inner) => (some batch, inner)

def pullTwice (unpark : Bool) (attempt again : PullAttempt) :
    Option (Option (List ReadyDelivery) × RouterInner) :=
  (pull inner unpark attempt).bind fun
    | (some batch, inner) => some (some batch, inner)
    | (none, inner) => pull inner unpark again

structure SliceStart where
  retire : RetireAnswer
  retireAgain : RetireAnswer
  attempt : PullAttempt
  again : PullAttempt

/-- `run_package_event_delivery_slice` up to its loop. -/
def beginSlice (start : SliceStart) : Option EventDelivery := do
  let (parked, st) ← st.flushPendingEventRetirements start.retire start.retireAgain
  if parked || st.eventCausalBlocked || st.eventCausalFaulted then some st
  else
    let (pulled, inner) ← pullTwice st.inner st.engineUnparkDue start.attempt start.again
    let st := { st with inner := inner }
    match pulled with
    | none => some st
    | some [] => some { st with engineUnparkDue := false }
    | some batch => some { st with engineUnparkDue := false, batch := some ⟨batch, ∅⟩ }

inductive Answer where
  /-- The consumer has no handler for it any more. -/
  | noHandler
  /-- The causal scopes have no room. -/
  | causalRefused (fault : Bool)
  /-- No causal scope was minted. -/
  | noScope
  /-- The lifecycle re-check refused the matched generation. -/
  | admissionRefused
  /-- The engine took it. -/
  | queued (scopeId : ℕ)
  | engineRefused
  /-- The engine answered anything else. -/
  | notQueued
deriving DecidableEq

structure Reply where
  answer : Answer
  requeueBusy : Bool
  noteBusy : Bool
  retire : RetireAnswer

def giveUp (d : ReadyDelivery) (reply : Reply) : Option EventDelivery :=
  st.retireOrQueue (eventFlight d none (packageEventRequestId d)) reply.retire

def noteReturned (plugin : String) : EventDelivery :=
  { st with batch := st.batch.map fun batch =>
    { batch with returned := insert plugin batch.returned } }

def returnDelivery (d : ReadyDelivery) (engineRefused : Bool)
    (reply : Reply) : Option EventDelivery :=
  if reply.requeueBusy then st.giveUp d reply
  else (st.inner.requeue d engineRefused).bind fun
    | (.ok _, inner) =>
      let st := { st with inner, engineParkedSeen := st.engineParkedSeen || engineRefused }
      some (st.noteReturned d.holder.pluginKey)
    | (.error _, inner) => { st with inner := inner }.giveUp d reply

def rest (st : EventDelivery) : List ReadyDelivery := (st.batch.map Batch.rest).getD []

def queued (plugin : String) : List ℕ :=
  (st.inner.queues.queueOf plugin).copies.map QueuedCopy.envelopeId

def waiting (plugin : String) : List ℕ :=
  (RouterInner.Pull.forPlugin plugin st.rest).map ReadyDelivery.envelopeId ++ st.queued plugin

def admitDelivery (d : ReadyDelivery) (scopeId : ℕ) (reply : Reply) :
    EventDelivery :=
  let requestId := packageEventRequestId d
  { st with
    inner := if reply.noteBusy then st.inner
      else st.inner.noteAdmitted d.envelopeId d.holder.holderKey
    eventInFlight := st.eventInFlight.insert requestId (eventFlight d (some scopeId) requestId)
    admissions := st.admissions ++
      [⟨d.holder.pluginKey, d.envelopeId, st.waiting d.holder.pluginKey⟩] }

def deliver (d : ReadyDelivery) (reply : Reply) : Option EventDelivery :=
  match reply.answer with
  | .noHandler | .noScope | .admissionRefused | .notQueued => st.giveUp d reply
  | .causalRefused fault =>
    { st with
      eventCausalBlocked := true
      eventCausalFaulted := st.eventCausalFaulted || fault }.returnDelivery d false reply
  | .engineRefused => st.returnDelivery d true reply
  | .queued scopeId => some (st.admitDelivery d scopeId reply)

def endLoop : EventDelivery := { st with batch := st.batch.filter fun batch => !batch.rest.isEmpty }

inductive Step where
  | beginSlice (start : SliceStart)
  | next (reply : Reply)
  | complete (requestId : String) (answer : RetireAnswer)
  | causalProgress
  | engineReleased
  | other (op : Op)

def Step.staged : Step → List EventSubscription
  | .other op => op.staged
  | _ => []

def applyPluginCompletion (requestId : String) (answer : RetireAnswer) : Option EventDelivery :=
  match st.eventInFlight.lookup requestId with
  | none => some st
  | some flight =>
    { st with eventInFlight := st.eventInFlight.erase requestId }.retireOrQueue flight answer

def noteCausalCapacityProgress : EventDelivery :=
  if st.eventCausalBlocked && !st.eventCausalFaulted then { st with eventCausalBlocked := false }
  else st

/-- The event part of `mark_signaled_waits`. -/
def noteEngineReleased : EventDelivery :=
  if st.engineParkedSeen then { st with engineParkedSeen := false, engineUnparkDue := true }
  else st

variable (encode : Json → Option (List UInt8))

def otherCaller (st : EventDelivery) (op : Op) : Option EventDelivery :=
  if op.delivers then some st
  else (World.step encode ⟨st.inner, [], [], st.works⟩ op).map fun w =>
    { st with inner := w.inner, works := w.works }

def step (st : EventDelivery) : Step → Option EventDelivery
  | .beginSlice start => if st.batch.isSome then some st else st.beginSlice start
  | .next reply =>
    match st.batch with
    | some ⟨d :: rest, returned⟩ =>
      ({ st with batch := some ⟨rest, returned⟩ }.deliver d reply).map endLoop
    | _ => some st
  | .complete requestId answer =>
    if st.batch.isSome then some st else st.applyPluginCompletion requestId answer
  | .causalProgress => if st.batch.isSome then some st else some st.noteCausalCapacityProgress
  | .engineReleased => if st.batch.isSome then some st else some st.noteEngineReleased
  | .other op => st.otherCaller encode op

def run (st : EventDelivery) (steps : List Step) : Option EventDelivery :=
  steps.foldlM (step encode) st

end EventDelivery

end BotsterHub.Maintenance
