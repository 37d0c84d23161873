import BotsterHub.Json
import BotsterHub.Lib.Dict

/-!
The canonical session projection (`session_projection.rs`).

Core numbers every change in a journal and hands out snapshots, baselines, in pages. The Hub keeps
one row per session and a cursor; only the functions here change the rows.
-/

namespace BotsterHub.Session

open List AList

/-- `SessionLifecycleCursor`: a position in the journal of one source. -/
structure LifecycleCursor where
  sourceId : String
  sequence : ℕ
deriving DecidableEq

inductive RegistrySessionState where
  | running
  | stopping
  | exited
  | stale
deriving DecidableEq

inductive SessionLifecycleState where
  | starting
  | running
  | stopping
  | exited (code : Option ℤ)
  | failed (reason : String)
deriving DecidableEq

/-- `SessionLifecycleRecord` with its `DaemonSession` flattened. -/
structure LifecycleRecord where
  sessionId : String
  registryState : RegistrySessionState
  rows : ℕ
  cols : ℕ
  updatedAt : ℕ
  metadata : Dict String String
  lifecycle : Option SessionLifecycleState
deriving DecidableEq

/-- `SessionLifecycleChangeKind`, an open enumeration; unknown kinds are ignored. -/
inductive ChangeKind where
  | upsert (record : LifecycleRecord)
  | removed (sessionId : String)
  | unknown
deriving DecidableEq

structure LifecycleChange where
  cursor : LifecycleCursor
  kind : ChangeKind
deriving DecidableEq

inductive LifecycleClass where
  | current
  | ended
  | indeterminate
deriving DecidableEq

def LifecycleClass.text : LifecycleClass → String
  | current => "current"
  | ended => "ended"
  | indeterminate => "indeterminate"

def workerLostReason : String := "worker_lost"

def sessionLifecycleClass (registryState : RegistrySessionState)
    (lifecycle : Option SessionLifecycleState) : LifecycleClass :=
  if registryState = .stale then
    match lifecycle with
    | some (.failed reason) => if reason = workerLostReason then .ended else .indeterminate
    | _ => .indeterminate
  else
    match lifecycle with
    | some .starting | some .running | some .stopping => .current
    | some (.exited _) | some (.failed _) => .ended
    | none => if registryState = .exited then .ended else .indeterminate

def LifecycleRecord.lifecycleClass (record : LifecycleRecord) : LifecycleClass :=
  sessionLifecycleClass record.registryState record.lifecycle

def RegistrySessionState.text : RegistrySessionState → String
  | running => "running"
  | stopping => "stopping"
  | exited => "exited"
  | stale => "stale"

/-- `DaemonSessionEntity`, the shape of a session on the wire. -/
structure DaemonSessionEntity where
  sessionUuid : String
  registryState : String
  lifecycle : Option String
  lifecycleClass : String
  rows : ℕ
  cols : ℕ
  updatedAt : ℕ
  exitCode : Option ℤ
  failureReason : Option String
  sessionTypeId : Option String
  sessionTypeSource : Option String
  role : Option String
  traits : List String
  interaction : Option String
  sessionTypeLifecycle : Option String
deriving DecidableEq

namespace DaemonSessionEntity

def optional (key : String) (value : Option String) : List (String × Json) :=
  value.toList.map fun text => (key, .str text)

/-- The fields as a JSON object lists them, in the order of their keys. -/
def fields (entity : DaemonSessionEntity) : List (String × Json) :=
  [("cols", .num entity.cols)] ++
  (entity.exitCode.toList.map fun code => ("exit_code", .num code)) ++
  optional "failure_reason" entity.failureReason ++ optional "interaction" entity.interaction ++
  optional "lifecycle" entity.lifecycle ++ [("lifecycle_class", .str entity.lifecycleClass),
    ("registry_state", .str entity.registryState)] ++
  optional "role" entity.role ++ [("rows", .num entity.rows)] ++
  optional "session_type_id" entity.sessionTypeId ++
  optional "session_type_lifecycle" entity.sessionTypeLifecycle ++
  optional "session_type_source" entity.sessionTypeSource ++
  [("session_uuid", .str entity.sessionUuid), ("traits", .arr (entity.traits.map .str)),
    ("updated_at", .num entity.updatedAt)]

def toJson (entity : DaemonSessionEntity) : Json := .obj entity.fields

end DaemonSessionEntity

/-- The three entity fields that come from the lifecycle state. -/
def lifecycleFields (record : LifecycleRecord) : Option String × Option ℤ × Option String :=
  match record.lifecycle with
  | some .starting => (some "starting", none, none)
  | some .running => (some "running", none, none)
  | some .stopping => (some "stopping", none, none)
  | some (.exited code) => (some "exited", code, none)
  | some (.failed reason) => (some "failed", none, some reason)
  | none =>
    if record.registryState = .exited then (some "exited", none, none) else (none, none, none)

/-- `SessionProjection::project_entity`; `parseTraits` is the JSON parser for a list
of strings. -/
def projectEntity (parseTraits : String → Option (List String)) (record : LifecycleRecord) :
    DaemonSessionEntity where
  sessionUuid := record.sessionId
  registryState := record.registryState.text
  lifecycle := (lifecycleFields record).1
  lifecycleClass := record.lifecycleClass.text
  rows := record.rows
  cols := record.cols
  updatedAt := record.updatedAt
  exitCode := (lifecycleFields record).2.1
  failureReason := (lifecycleFields record).2.2
  sessionTypeId := record.metadata.lookup "botster.session_type.id"
  sessionTypeSource := record.metadata.lookup "botster.session_type.source"
  role := record.metadata.lookup "botster.session_type.role"
  traits := ((record.metadata.lookup "botster.session_type.traits").bind parseTraits).getD []
  interaction := record.metadata.lookup "botster.session_type.interaction"
  sessionTypeLifecycle := record.metadata.lookup "botster.session_type.lifecycle"

/-- `SessionProjectionRow`: the record last applied to an id. -/
structure ProjectionRow where
  record : LifecycleRecord
  lifecycleClass : LifecycleClass
  liveEnded : Bool
  changeSeq : ℕ
deriving DecidableEq

abbrev ProjectionRows := Dict String ProjectionRow

structure SessionProjection where
  cursor : Option LifecycleCursor
  rows : ProjectionRows
  baselineComplete : Bool
  gap : Bool

def ProjectionRow.live (sequence : ℕ) (record : LifecycleRecord) : ProjectionRow where
  record := record
  lifecycleClass := record.lifecycleClass
  liveEnded := record.lifecycleClass = .ended
  changeSeq := sequence

/-- The row of a baseline page. It is no evidence that the session has ended. -/
def ProjectionRow.baseline (sequence : ℕ) (record : LifecycleRecord) : ProjectionRow where
  record := record
  lifecycleClass := record.lifecycleClass
  liveEnded := false
  changeSeq := sequence

def applyRows (rows : ProjectionRows) (change : LifecycleChange) : ProjectionRows :=
  match change.kind with
  | .upsert record =>
    rows.insert record.sessionId (ProjectionRow.live change.cursor.sequence record)
  | .removed sessionId => rows.erase sessionId
  | .unknown => rows

namespace SessionProjection

def new : SessionProjection where
  cursor := none
  rows := ∅
  baselineComplete := false
  gap := false

def applyChange (p : SessionProjection) (change : LifecycleChange) : SessionProjection :=
  { p with rows := applyRows p.rows change, cursor := some change.cursor }

def ingestBaselineRows (p : SessionProjection) (sequence : ℕ) (records : List LifecycleRecord) :
    SessionProjection :=
  { p with
    rows := records.foldl
      (fun rows record => rows.insert record.sessionId (ProjectionRow.baseline sequence record))
      p.rows }

def sealBaseline (p : SessionProjection) (snapshot : LifecycleCursor) : SessionProjection :=
  { p with cursor := some snapshot, baselineComplete := true, gap := false }

def beginBaselineRecovery (_ : SessionProjection) : SessionProjection where
  cursor := none
  rows := ∅
  baselineComplete := false
  gap := true

end SessionProjection

theorem lookup_applyRows (rows : ProjectionRows) (c : LifecycleChange) (id : String) :
    (applyRows rows c).lookup id =
      match c.kind with
      | .upsert record =>
        if id = record.sessionId then some (ProjectionRow.live c.cursor.sequence record)
        else rows.lookup id
      | .removed sessionId => if id = sessionId then none else rows.lookup id
      | .unknown => rows.lookup id := by
  unfold applyRows
  split
  · exact lookup_insert_eq ..
  · exact lookup_erase_eq ..
  · rfl

theorem lookup_applyRows_congr
    (h : ∀ id, rows.lookup id = rows'.lookup id) (c : LifecycleChange) (id : String) :
    (applyRows rows c).lookup id = (applyRows rows' c).lookup id := by
  rw [lookup_applyRows, lookup_applyRows, h id]

theorem lookup_ingestBaselineRows (p : SessionProjection) (s : ℕ)
    (records : List LifecycleRecord) (id : String)
    (hu : records.Pairwise fun r r' => r.sessionId ≠ r'.sessionId) :
    (p.ingestBaselineRows s records).rows.lookup id =
      match records.find? fun record => record.sessionId = id with
      | some record => some (ProjectionRow.baseline s record)
      | none => p.rows.lookup id := by
  induction records generalizing p with
  | nil => rfl
  | cons record records ih =>
    rw [pairwise_cons] at hu
    have hr := ih (p.ingestBaselineRows s [record]) hu.2
    rw [find?_cons]
    by_cases hid : record.sessionId = id
    · -- the ids are distinct, so no later record replaces this row
      have hn : records.find? (fun record => record.sessionId = id) = none := by
        rw [find?_eq_none]
        intro record' hm hid'
        exact hu.1 record' hm (hid.trans (of_decide_eq_true hid').symm)
      rw [hn] at hr
      simp only [hid, decide_true]
      refine hr.trans ?_
      change (p.rows.insert record.sessionId _).lookup id = _
      rw [lookup_insert_eq, if_pos hid.symm]
    · simp only [hid, decide_false]
      refine hr.trans ?_
      have hrow : (p.ingestBaselineRows s [record]).rows.lookup id = p.rows.lookup id := by
        change (p.rows.insert record.sessionId _).lookup id = _
        rw [lookup_insert_eq, if_neg (Ne.symm hid)]
      rw [hrow]

end BotsterHub.Session
