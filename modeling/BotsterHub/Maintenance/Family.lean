import BotsterHub.Lib.Scan
import BotsterHub.Session.Projection
import Mathlib.Data.Finset.Max
import Mathlib.Data.String.Basic

/-!
The session-family bridge (`daemon_maintenance.rs`).

Plugins with a `session_family` handler follow the session projection: a snapshot in chunks, cut
from the projection while it is sent, then the changes one by one. A consumer that falls behind is
gapped and starts over.
-/

namespace BotsterHub.Maintenance

open Session

def sessionChunkMaxItems : ℕ := 8
def sessionChunkMaxBytes : ℕ := 32 * 1024
def familyQueueMaxItems : ℕ := 32
def familyQueueMaxBytes : ℕ := 64 * 1024

/-- A frame for a session-family handler, with the JSON that the source builds in `toJson`. -/
inductive FamilyFrame where
  | snapshotBegin (snapshotSequence : ℕ)
  | snapshotChunk (snapshotSequence : ℕ) (items : List DaemonSessionEntity)
  | snapshotEnd (snapshotSequence : ℕ) (complete : Bool)
  | entityUpsert (snapshotSequence : ℕ) (id : String) (entity : DaemonSessionEntity)
  | entityRemove (snapshotSequence : ℕ) (id : String)
deriving DecidableEq

inductive FamilyFrameKind where
  | snapshotBegin
  | snapshotChunk
  | snapshotEnd
  | delta
deriving DecidableEq

namespace FamilyFrame

def kind : FamilyFrame → FamilyFrameKind
  | snapshotBegin _ => .snapshotBegin
  | snapshotChunk _ _ => .snapshotChunk
  | snapshotEnd _ _ => .snapshotEnd
  | entityUpsert _ _ _ => .delta
  | entityRemove _ _ => .delta

def snapshotSequence : FamilyFrame → ℕ
  | snapshotBegin sequence => sequence
  | snapshotChunk sequence _ => sequence
  | snapshotEnd sequence _ => sequence
  | entityUpsert sequence _ _ => sequence
  | entityRemove sequence _ => sequence

def toJson : FamilyFrame → Json
  | snapshotBegin sequence =>
    .obj [("family", .str "/session"), ("snapshot_sequence", .num sequence),
      ("type", .str "snapshot_begin")]
  | snapshotChunk sequence items =>
    .obj [("family", .str "/session"), ("items", .arr (items.map DaemonSessionEntity.toJson)),
      ("snapshot_sequence", .num sequence), ("type", .str "snapshot_chunk")]
  | snapshotEnd sequence complete =>
    .obj [("complete", .bool complete), ("family", .str "/session"),
      ("snapshot_sequence", .num sequence), ("type", .str "snapshot_end")]
  | entityUpsert sequence id entity =>
    .obj [("entity", entity.toJson), ("family", .str "/session"), ("id", .str id),
      ("snapshot_sequence", .num sequence), ("type", .str "entity_upsert")]
  | entityRemove sequence id =>
    .obj [("family", .str "/session"), ("id", .str id), ("snapshot_sequence", .num sequence),
      ("type", .str "entity_remove")]

def encodedLen (frame : FamilyFrame) : ℕ := frame.toJson.encodedLen

def ofChange (parseTraits : String → Option (List String)) (change : LifecycleChange) :
    Option FamilyFrame :=
  match change.kind with
  | .upsert record =>
    some (entityUpsert change.cursor.sequence record.sessionId (projectEntity parseTraits record))
  | .removed sessionId => some (entityRemove change.cursor.sequence sessionId)
  | .unknown => none

end FamilyFrame

inductive PluginHandlerKind where
  | event
  | other
deriving DecidableEq

structure PluginHandlerRef where
  pluginKey : String
  handlerId : String
  kind : PluginHandlerKind
deriving DecidableEq

/-- The source formats the three parts into one text. The serial makes it unique. -/
structure FamilyRequestId where
  pluginKey : String
  sequence : ℕ
  serial : ℕ
deriving DecidableEq

structure InFlightSessionFamily where
  requestId : FamilyRequestId
  snapshotSequence : ℕ
  kind : FamilyFrameKind
deriving DecidableEq

structure SessionFamilyConsumer where
  handler : Option PluginHandlerRef
  snapshotSequence : ℕ
  inFlight : Option InFlightSessionFamily
  pending : List FamilyFrame
  heldDeltas : List FamilyFrame
  snapshotComplete : Bool
  gap : Bool
  needSnapshotChunks : Bool
  snapshotAfter : Option String

def queuedQueueBytes (frames : List FamilyFrame) : ℕ := (frames.map FamilyFrame.encodedLen).sum

namespace SessionFamilyConsumer

def new : SessionFamilyConsumer where
  handler := none
  snapshotSequence := 0
  inFlight := none
  pending := []
  heldDeltas := []
  snapshotComplete := false
  gap := true
  needSnapshotChunks := false
  snapshotAfter := none

variable (c : SessionFamilyConsumer)

def admittable : Bool :=
  c.handler.isSome && c.inFlight.isNone && (!c.pending.isEmpty || c.needSnapshotChunks)

def busy : Bool :=
  c.inFlight.isSome || !c.pending.isEmpty || !c.heldDeltas.isEmpty || c.needSnapshotChunks

def gapped : SessionFamilyConsumer :=
  { c with
    gap := true
    snapshotComplete := false
    needSnapshotChunks := false
    snapshotAfter := none
    pending := []
    heldDeltas := []
    inFlight := none }

def begun (sequence : ℕ) : SessionFamilyConsumer :=
  { c with
    snapshotSequence := sequence
    snapshotComplete := false
    gap := false
    needSnapshotChunks := true
    snapshotAfter := none
    pending := [.snapshotBegin sequence]
    heldDeltas := [] }

/-- The flag is false when the queue is full. A gapped consumer needs no delta. -/
def queueDelta (frame : FamilyFrame) : Bool × SessionFamilyConsumer :=
  if c.gap then (true, c)
  else if familyQueueMaxItems ≤ c.pending.length + c.heldDeltas.length ∨ familyQueueMaxBytes <
        queuedQueueBytes c.pending + queuedQueueBytes c.heldDeltas + frame.encodedLen then
    (false, c)
  else if c.snapshotComplete then (true, { c with pending := c.pending ++ [frame] })
  else (true, { c with heldDeltas := c.heldDeltas ++ [frame] })

def completed (success : Bool) : SessionFamilyConsumer :=
  let ended := c.inFlight.any fun flight =>
    flight.kind = .snapshotEnd && flight.snapshotSequence = c.snapshotSequence
  if ended && success then
    { c with
      inFlight := none
      snapshotComplete := true
      pending := c.pending ++ c.heldDeltas
      heldDeltas := [] }
  else { c with inFlight := none }

end SessionFamilyConsumer

structure FanoutJob where
  frame : FamilyFrame
  after : Option String
  bytes : ℕ

structure SessionFamilyBridge where
  consumers : Dict String SessionFamilyConsumer
  nextRequestSerial : ℕ
  refreshAfter : Option String
  refreshSeen : Finset String
  inFlightByRequest : Dict FamilyRequestId String
  pendingFanout : List FanoutJob
  fanoutBytes : ℕ
  gapAfter : Option String
  needGapPass : Bool
  snapshotStartAfter : Option String
  snapshotStartSequence : Option ℕ
  admitAfter : Option String
  pruneAfter : Option String
  needPrune : Bool
  busyCount : ℕ
  ready : Finset String
  parked : Finset String
  /-- Whether `engine_parked_seen` holds an epoch. -/
  engineParkedSeen : Bool

namespace SessionFamilyBridge

def new : SessionFamilyBridge where
  consumers := ∅
  nextRequestSerial := 0
  refreshAfter := none
  refreshSeen := ∅
  inFlightByRequest := ∅
  pendingFanout := []
  fanoutBytes := 0
  gapAfter := none
  needGapPass := false
  snapshotStartAfter := none
  snapshotStartSequence := none
  admitAfter := none
  pruneAfter := none
  needPrune := false
  busyCount := 0
  ready := ∅
  parked := ∅
  engineParkedSeen := false

/-- `adjust_busy` with its 32-bit saturation. -/
def adjustBusy (count : ℕ) (wasBusy nowBusy : Bool) : ℕ :=
  if nowBusy && !wasBusy then min (count + 1) (2 ^ 32 - 1)
  else if !nowBusy && wasBusy then count - 1
  else count

variable (b : SessionFamilyBridge)

variable (key : String)

def canAdmit : Bool :=
  key ∉ b.parked && (b.consumers.lookup key).any SessionFamilyConsumer.admittable

def syncReady : SessionFamilyBridge :=
  { b with ready := if b.canAdmit key then insert key b.ready else b.ready.erase key }

def setConsumer (c : SessionFamilyConsumer) :
    SessionFamilyBridge :=
  let wasBusy := (b.consumers.lookup key).any SessionFamilyConsumer.busy
  syncReady
    { b with
      consumers := b.consumers.insert key c
      busyCount := adjustBusy b.busyCount wasBusy c.busy }
    key

def consumer : SessionFamilyConsumer :=
  (b.consumers.lookup key).getD SessionFamilyConsumer.new

def touchConsumer (f : SessionFamilyConsumer → SessionFamilyConsumer) : SessionFamilyBridge :=
  b.setConsumer key (f (b.consumer key))

def touchExistingConsumer
    (f : SessionFamilyConsumer → SessionFamilyConsumer) : SessionFamilyBridge :=
  match b.consumers.lookup key with
  | none => b
  | some c => b.setConsumer key (f c)

def park : SessionFamilyBridge :=
  syncReady
    { b with parked := insert key b.parked, engineParkedSeen := true }
    key

def unpark : SessionFamilyBridge :=
  if key ∈ b.parked then
    let b := syncReady { b with parked := b.parked.erase key } key
    { b with engineParkedSeen := if b.parked = ∅ then false else b.engineParkedSeen }
  else b

/-- The engine has released state: every parked consumer may try again. -/
def unparkAll : SessionFamilyBridge :=
  { b with
    engineParkedSeen := false
    parked := ∅
    ready := (b.ready \ b.parked) ∪ b.parked.filter fun key =>
      (b.consumers.lookup key).any SessionFamilyConsumer.admittable }

def forgetRequest (flight : Option InFlightSessionFamily) :
    SessionFamilyBridge :=
  { b with
    inFlightByRequest := match flight with
      | some flight => b.inFlightByRequest.erase flight.requestId
      | none => b.inFlightByRequest }

def markGap : SessionFamilyBridge :=
  ((b.forgetRequest ((b.consumers.lookup key).bind (·.inFlight))).unpark key).touchConsumer key
    SessionFamilyConsumer.gapped

def beginSnapshot (sequence : ℕ) : SessionFamilyBridge :=
  (b.unpark key).touchConsumer key fun c => c.begun sequence

def queueDelta (b : SessionFamilyBridge) (key : String) (frame : FamilyFrame) :
    Bool × SessionFamilyBridge :=
  (((b.consumer key).queueDelta frame).1, b.touchConsumer key fun c => (c.queueDelta frame).2)

def firstKey (keys : Finset String) : Option String := keys.min

/-- The next ready consumer after the round-robin cursor, wrapping once. -/
def nextReady : Option String :=
  (firstKey (b.ready.filter fun key => Past b.admitAfter key)).or (firstKey b.ready)

def removeConsumer : SessionFamilyBridge :=
  { b with
    parked := b.parked.erase key
    ready := b.ready.erase key
    consumers := b.consumers.erase key }

def nextRequestId (sequence : ℕ) : FamilyRequestId × SessionFamilyBridge :=
  let serial := min (b.nextRequestSerial + 1) (2 ^ 64 - 1)
  (⟨key, sequence, serial⟩, { b with nextRequestSerial := serial })

end SessionFamilyBridge

def packLoop : List DaemonSessionEntity → List DaemonSessionEntity → ℕ →
    Except Unit (List DaemonSessionEntity × ℕ)
  | [], packed, index => .ok (packed, index)
  | item :: items, packed, index =>
    if sessionChunkMaxItems ≤ packed.length then .ok (packed, index)
    else if sessionChunkMaxBytes < (FamilyFrame.snapshotChunk 0 (packed ++ [item])).encodedLen then
      if packed.isEmpty then .error () else .ok (packed, index)
    else packLoop items (packed ++ [item]) (index + 1)

def packSessionChunk (items : List DaemonSessionEntity) (start : ℕ) :
    Except Unit (List DaemonSessionEntity × ℕ) :=
  if items.length ≤ start then .ok ([], start) else packLoop (items.drop start) [] start

def chunkLoop (parseTraits : String → Option (List String)) :
    List (String × ProjectionRow) → List DaemonSessionEntity → Option String →
      Except Unit (List DaemonSessionEntity × Option String)
  | [], packed, lastId => .ok (packed, lastId)
  | (id, row) :: rows, packed, lastId =>
    let items := packed ++ [projectEntity parseTraits row.record]
    match packSessionChunk items 0 with
    | .ok (chunk, next) =>
      if next = items.length then
        if sessionChunkMaxItems ≤ chunk.length then .ok (chunk, some id)
        else chunkLoop parseTraits rows chunk (some id)
      else .ok (chunk, lastId)
    | .error () => if items.length = 1 then .error () else .ok (packed, lastId)

def nextProjectionChunk (parseTraits : String → Option (List String))
    (projection : SessionProjection) (after : Option String) :
    Except Unit (Option (List DaemonSessionEntity × String)) :=
  match chunkLoop parseTraits (projection.rows.entriesAfter after) [] none with
  | .error () => .error ()
  | .ok (packed, some id) => .ok (if packed.isEmpty then none else some (packed, id))
  | .ok (_, none) => .ok none

inductive PeekedFamilyPayload where
  | queued (frame : FamilyFrame)
  | chunk (frame : FamilyFrame) (lastId : String)
  | last (frame : FamilyFrame)

def PeekedFamilyPayload.frame : PeekedFamilyPayload → FamilyFrame
  | queued frame => frame
  | chunk frame _ => frame
  | last frame => frame

/-- The next frame: a queued one, else the next chunk of the snapshot, else its end. -/
def SessionFamilyConsumer.peek (parseTraits : String → Option (List String))
    (projection : SessionProjection) (c : SessionFamilyConsumer) :
    Except Unit (Option PeekedFamilyPayload) :=
  if c.inFlight.isSome || c.handler.isNone then .ok none
  else match c.pending with
    | frame :: _ => .ok (some (.queued frame))
    | [] =>
      if !c.needSnapshotChunks then .ok none
      else match nextProjectionChunk parseTraits projection c.snapshotAfter with
        | .error () => .error ()
        | .ok (some (chunk, lastId)) =>
          .ok (some (.chunk (.snapshotChunk c.snapshotSequence chunk) lastId))
        | .ok none => .ok (some (.last (.snapshotEnd c.snapshotSequence true)))

/-- `commit_session_family_payload`: what admission of the frame does to its consumer. -/
def SessionFamilyConsumer.commit (c : SessionFamilyConsumer) :
    PeekedFamilyPayload → SessionFamilyConsumer
  | .queued frame =>
    if c.pending.head? = some frame then { c with pending := c.pending.tail } else c
  | .chunk _ lastId => { c with snapshotAfter := some lastId }
  | .last _ => { c with needSnapshotChunks := false }

end BotsterHub.Maintenance
