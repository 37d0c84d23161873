import BotsterHub.Lib.Scan
import BotsterHub.Store.Namespace

/-!
The plugin store.

Each plugin has a namespace in one keyed store of Core. An operation reads what it needs, decides,
and writes one batch, all under one lock. A value of the keyed store is the record it encodes.
-/

namespace BotsterHub.Store

open Capability

abbrev StoreKey := String

structure StoreRecord (Payload : Type) where
  pluginKey : PluginKey
  key : StoreKey
  schemaVersion : ℕ
  revision : ℕ
  payload : Payload
deriving DecidableEq

structure Limits where
  maxRecordBytes : ℕ
  maxPluginKeys : ℕ
  maxPluginBytes : ℕ

/-- What the store takes from Core: payload sizes, merge patches, valid keys, and the error of a
namespace text. -/
structure Core (Payload : Type) where
  payloadBytes : Payload → ℕ
  applyMergePatch : Payload → Payload → Except RuntimeError Payload
  isValid : StoreKey → Bool
  namespaceError : String → Option String

inductive Mutation (Payload : Type) where
  | set (key : StoreKey) (schemaVersion : ℕ) (payload : Payload) (expectedRevision : ℕ)
  | patch (key : StoreKey) (patch : Payload) (expectedRevision : ℕ)
  | delete (key : StoreKey) (expectedRevision : ℕ)
deriving DecidableEq

def Mutation.key {Payload : Type} : Mutation Payload → StoreKey
  | .set key _ _ _ | .patch key _ _ | .delete key _ => key

def Mutation.expectedRevision {Payload : Type} : Mutation Payload → ℕ
  | .set _ _ _ expected | .patch _ _ expected | .delete _ expected => expected

inductive MutationResult (Payload : Type) where
  | set (record : StoreRecord Payload)
  | patch (record : StoreRecord Payload)
  | delete (key : StoreKey) (revision : ℕ)
deriving DecidableEq

/-- `PluginStoreOperation`, and a batch. -/
inductive Operation (Payload : Type) where
  | get (key : StoreKey)
  | set (key : StoreKey) (schemaVersion : ℕ) (payload : Payload) (expectedRevision : Option ℕ)
  | delete (key : StoreKey)
  | list (start : Option String)
  | patch (key : StoreKey) (patch : Payload) (expectedRevision : Option ℕ)
  | batch (mutations : List (Mutation Payload))
deriving DecidableEq

/-- `PluginStoreResult`. An entry of a list stands for the record that it describes. -/
inductive Result (Payload : Type) where
  | record (record : StoreRecord Payload)
  | written (record : StoreRecord Payload)
  | deleted (key : StoreKey) (revision : ℕ)
  | list (records : List (StoreRecord Payload))
  | batch (results : List (MutationResult Payload))
deriving DecidableEq

/-- An error, and for a batch the mutation that it is about. -/
structure Failure where
  error : RuntimeError
  mutationIndex : Option ℕ
  key : Option StoreKey
deriving DecidableEq

def RuntimeError.whole (error : RuntimeError) : Failure := ⟨error, none, none⟩

abbrev Records (Payload : Type) := Dict StoreKey (StoreRecord Payload)

abbrev Database (Payload : Type) := Dict String (Records Payload)

inductive StoreOp (Payload : Type) where
  | put (key : StoreKey) (value : StoreRecord Payload)
  | delete (key : StoreKey)

/-- What Core's store answers: the error of a resumed read, the items on a page less one, the error
of the batch. -/
structure Turn where
  readError : Option StoreKey → Option String
  pageItems : Option StoreKey → ℕ
  writeError : Option String

section

variable {Payload : Type}

def Database.records (db : Database Payload) (ns : String) : Records Payload :=
  (AList.lookup ns db).getD ∅

/-- `KeyedStore::range`: one page of items past a key, and where the next one starts. -/
def Database.range (db : Database Payload) (ns : String) (after : Option StoreKey) (items : ℕ) :
    List (StoreRecord Payload) × Option StoreKey :=
  let page := ((db.records ns).keysAfter after).take (items + 1)
  (page.filterMap fun key => (db.records ns).lookup key,
    if ((db.records ns).keysAfter after).length ≤ items + 1 then none else page.getLast?)

def StoreOp.apply (records : Records Payload) : StoreOp Payload → Records Payload
  | .put key value => records.insert key value
  | .delete key => records.erase key

def Database.batch (db : Database Payload) (ns : String) (ops : List (StoreOp Payload)) :
    Database Payload :=
  AList.insert ns (ops.foldl StoreOp.apply (db.records ns)) db

end

def storeError (text : String) : RuntimeError :=
  ⟨.backendFailed, "plugin database failed: " ++ text⟩

def notFound : RuntimeError := ⟨.storeNotFound, "plugin-store record was not found"⟩

def readCheck (turn : Turn) (after : Option StoreKey) : Except RuntimeError Unit :=
  match turn.readError after with
  | some text => .error (storeError text)
  | none => .ok ()

section

variable {Payload : Type} (core : Core Payload) (limits : Limits) (turn : Turn)
  (db : Database Payload) (pluginKey : PluginKey)

def namespaceOf : Except RuntimeError String :=
  match core.namespaceError (pluginNamespaceText pluginKey) with
  | some error =>
    .error ⟨.invalidRequest, "plugin key is not a valid plugin database namespace: " ++ error⟩
  | none => .ok (pluginNamespaceText pluginKey)

def checkRecordOwner (record : StoreRecord Payload) : Except RuntimeError Unit :=
  if record.pluginKey = pluginKey then .ok ()
  else
    .error ⟨.capabilityDenied, "plugin database namespace holds a record owned by plugin " ++
      record.pluginKey.quote ++ ", not " ++ pluginKey.quote⟩

def readRecord (ns : String) (key : StoreKey) :
    Except RuntimeError (Option (StoreRecord Payload)) := do
  readCheck turn none
  match (db.records ns).lookup key with
  | none => .ok none
  | some record =>
    checkRecordOwner pluginKey record
    .ok (some record)

def addPage (records : Records Payload) :
    List (StoreRecord Payload) → Except RuntimeError (Records Payload)
  | [] => .ok records
  | record :: rest => do
      checkRecordOwner pluginKey record
      addPage (records.insert record.key record) rest

/-- The loop of `read_records`, for at most `fuel` pages. -/
def readPages (ns : String) :
    ℕ → Option StoreKey → Records Payload → Except RuntimeError (Records Payload)
  | 0, _, records => .ok records
  | fuel + 1, after, records => do
      readCheck turn after
      let page := db.range ns after (turn.pageItems after)
      let records ← addPage pluginKey records page.1
      match page.2 with
      | some next => readPages ns fuel (some next) records
      | none => .ok records

/-- `read_records`. There are at most as many pages as records, and one. -/
def readRecords (ns : String) : Except RuntimeError (Records Payload) :=
  readPages turn db pluginKey ns (((db.records ns).keysAfter none).length + 1) none ∅

def revisionForWrite : Option (StoreRecord Payload) → Option ℕ → Except RuntimeError ℕ
  | some record, some expected =>
    if record.revision ≠ expected then
      .error ⟨.revisionConflict, "plugin-store revision did not match expected revision"⟩
    else .ok (record.revision + 1)
  | none, some expected =>
    if expected ≠ 0 then
      .error ⟨.revisionConflict, "plugin-store create expected revision must be 0"⟩
    else .ok 1
  | some record, none => .ok (record.revision + 1)
  | none, none => .ok 1

def recordBytes (record : StoreRecord Payload) : ℕ := core.payloadBytes record.payload

variable (records : Records Payload)

variable (key : StoreKey)

/-- `enforce_plugin_store_limits`, for a single write. -/
def enforcePluginStoreLimits (payload : Payload) : Except RuntimeError Unit :=
  if limits.maxRecordBytes < core.payloadBytes payload then
    .error ⟨.quotaExceeded, "plugin-store record exceeds max_record_bytes"⟩
  else if records.lookup key = none ∧ limits.maxPluginKeys < records.keys.length + 1 then
    .error ⟨.quotaExceeded, "plugin-store namespace exceeds max_plugin_keys"⟩
  else if limits.maxPluginBytes <
      (records.erase key).total (recordBytes core) + core.payloadBytes payload then
    .error ⟨.quotaExceeded, "plugin-store namespace exceeds max_plugin_bytes"⟩
  else .ok ()

/-- `enforce_plugin_store_snapshot_limits`, for what a batch leaves. -/
def enforcePluginStoreSnapshotLimits : Except RuntimeError Unit :=
  if limits.maxPluginKeys < records.keys.length then
    .error ⟨.quotaExceeded, "plugin-store namespace exceeds max_plugin_keys"⟩
  else if limits.maxPluginBytes < records.total (recordBytes core) then
    .error ⟨.quotaExceeded, "plugin-store namespace exceeds max_plugin_bytes"⟩
  else .ok ()

/-- What an operation writes to its namespace, and what it returns. -/
structure Plan (Payload : Type) where
  namespaceText : String
  ops : List (StoreOp Payload)
  result : Result Payload

/-- `get`, with the missing record of `execute_plugin_store`. -/
def get : Except RuntimeError (Plan Payload) := do
  let ns ← namespaceOf core pluginKey
  match ← readRecord turn db pluginKey ns key with
  | some record => .ok ⟨ns, [], .record record⟩
  | none => .error notFound

def set (schemaVersion : ℕ) (payload : Payload) (expectedRevision : Option ℕ) :
    Except RuntimeError (Plan Payload) := do
  let ns ← namespaceOf core pluginKey
  let records ← readRecords turn db pluginKey ns
  let revision ← revisionForWrite (records.lookup key) expectedRevision
  enforcePluginStoreLimits core limits records key payload
  let record : StoreRecord Payload := { pluginKey, key, schemaVersion, revision, payload }
  .ok ⟨ns, [.put record.key record], .written record⟩

def delete (key : StoreKey) : Except RuntimeError (Plan Payload) := do
  let ns ← namespaceOf core pluginKey
  match ← readRecord turn db pluginKey ns key with
  | some record => .ok ⟨ns, [.delete key], .deleted record.key record.revision⟩
  | none => .error notFound

def list (start : Option String) : Except RuntimeError (Plan Payload) := do
  let ns ← namespaceOf core pluginKey
  let records ← readRecords turn db pluginKey ns
  .ok ⟨ns, [], .list (((records.keysAfter none).filterMap fun key => records.lookup key).filter
    fun record => start.all fun text => text.toList.isPrefixOf record.key.toList)⟩

def patch (change : Payload) (expectedRevision : Option ℕ) :
    Except RuntimeError (Plan Payload) := do
  let ns ← namespaceOf core pluginKey
  let records ← readRecords turn db pluginKey ns
  match records.lookup key with
  | none => .error notFound
  | some current =>
    let revision ← revisionForWrite (some current) expectedRevision
    let payload ← core.applyMergePatch current.payload change
    enforcePluginStoreLimits core limits records key payload
    let record := { current with revision, payload }
    .ok ⟨ns, [.put record.key record], .written record⟩

def applyMutation :
    Mutation Payload → Except RuntimeError (Records Payload × MutationResult Payload)
  | .set key schemaVersion payload expected => do
      let revision ← revisionForWrite (records.lookup key) (some expected)
      let record : StoreRecord Payload := { pluginKey, key, schemaVersion, revision, payload }
      .ok (records.insert key record, .set record)
  | .patch key change expected =>
    match records.lookup key with
    | none => .error notFound
    | some current => do
        let revision ← revisionForWrite (some current) (some expected)
        let payload ← core.applyMergePatch current.payload change
        let record := { current with revision, payload }
        .ok (records.insert key record, .patch record)
  | .delete key expected =>
    match records.lookup key with
    | none => .error notFound
    | some current => do
        let _ ← revisionForWrite (some current) (some expected)
        .ok (records.erase key, .delete key current.revision)

def MutationResult.written : MutationResult Payload → Option (StoreRecord Payload)
  | .set record | .patch record => some record
  | .delete _ _ => none

def applyChecked (seen : List StoreKey) (records : Records Payload) (mutation : Mutation Payload) :
    Except RuntimeError (Records Payload × MutationResult Payload) := do
  if core.isValid mutation.key = false then throw ⟨.invalidRequest, "plugin-store key is invalid"⟩
  if mutation.key ∈ seen then throw ⟨.invalidRequest, "plugin-store batch contains duplicate keys"⟩
  let applied ← applyMutation core pluginKey records mutation
  if ∃ record ∈ applied.2.written, limits.maxRecordBytes < recordBytes core record then
    throw ⟨.quotaExceeded, "plugin-store record exceeds max_record_bytes"⟩
  .ok applied

/-- The loop of `apply_plugin_store_batch`. An error names its mutation. -/
def applyMutations : ℕ → List StoreKey → Records Payload → List (Mutation Payload) →
    Except Failure (Records Payload × List (MutationResult Payload))
  | _, _, records, [] => .ok (records, [])
  | index, seen, records, mutation :: rest =>
    match applyChecked core limits pluginKey seen records mutation with
    | .error error => .error ⟨error, some (index + 1), some mutation.key⟩
    | .ok applied => do
        let (candidate, results) ← applyMutations (index + 1) (mutation.key :: seen) applied.1 rest
        .ok (candidate, applied.2 :: results)

def applyPluginStoreBatch (mutations : List (Mutation Payload)) :
    Except Failure (Records Payload × List (MutationResult Payload)) := do
  if mutations = [] then
    throw (RuntimeError.whole
      ⟨.invalidRequest, "plugin-store batch requires at least one mutation"⟩)
  let applied ← applyMutations core limits pluginKey 0 [] records mutations
  match enforcePluginStoreSnapshotLimits core limits applied.1 with
  | .error error => .error (RuntimeError.whole error)
  | .ok () => .ok applied

def batchOp (candidate : Records Payload) (mutation : Mutation Payload) : StoreOp Payload :=
  match candidate.lookup mutation.key with
  | some record => .put mutation.key record
  | none => .delete mutation.key

def batch (mutations : List (Mutation Payload)) : Except Failure (Plan Payload) := do
  let ns ← (namespaceOf core pluginKey).mapError RuntimeError.whole
  let records ← (readRecords turn db pluginKey ns).mapError RuntimeError.whole
  let (candidate, results) ← applyPluginStoreBatch core limits pluginKey records mutations
  .ok ⟨ns, mutations.map (batchOp candidate), .batch results⟩

/-- `validate_store_operation`. The keys of a batch are checked one by one later. -/
def validateStoreOperation (operation : Operation Payload) : Except RuntimeError Unit :=
  let check (key : StoreKey) : Except RuntimeError Unit :=
    if core.isValid key then .ok () else .error ⟨.invalidRequest, "plugin-store key is invalid"⟩
  match operation with
  | .get key | .set key _ _ _ | .delete key | .patch key _ _ => check key
  | .list _ | .batch _ => .ok ()

def ensurePluginNamespaceGrant (granted : Bool) (ns : String) : Except RuntimeError Unit :=
  if ns ≠ pluginKey then
    .error ⟨.capabilityDenied, "plugin-store namespace must exactly match the plugin key"⟩
  else if granted then .ok ()
  else
    .error ⟨.capabilityDenied, "the plugin's package was not admitted with the required capability"⟩

/-- `execute_plugin_store`, and `batch`, up to the write. -/
def plan : Operation Payload → Except Failure (Plan Payload)
  | .get key => (get core turn db pluginKey key).mapError RuntimeError.whole
  | .set key schemaVersion payload expected =>
    (set core limits turn db pluginKey key schemaVersion payload expected).mapError
      RuntimeError.whole
  | .delete key => (delete core turn db pluginKey key).mapError RuntimeError.whole
  | .list start => (list core turn db pluginKey start).mapError RuntimeError.whole
  | .patch key change expected =>
    (patch core limits turn db pluginKey key change expected).mapError RuntimeError.whole
  | .batch mutations => batch core limits turn db pluginKey mutations

end

/-- A store operation. `namespaceText` is the namespace asked for, `granted` whether the package may
use it. -/
structure Request (Payload : Type) where
  pluginKey : PluginKey
  namespaceText : String
  granted : Bool
  operation : Operation Payload
  turn : Turn

section

variable {Payload : Type} (core : Core Payload) (limits : Limits)

/-- `prepare_plugin_store` and `prepare_plugin_store_batch`. -/
def prepare (request : Request Payload) : Except RuntimeError Unit := do
  ensurePluginNamespaceGrant request.pluginKey request.granted request.namespaceText
  validateStoreOperation core request.operation

/-- An operation that only reads has nothing to commit. -/
def commit (turn : Turn) (db : Database Payload) (plan : Plan Payload) :
    Database Payload × Except Failure (Result Payload) :=
  if plan.ops.isEmpty then (db, .ok plan.result)
  else
    match turn.writeError with
    | some text => (db, .error (RuntimeError.whole (storeError text)))
    | none => (db.batch plan.namespaceText plan.ops, .ok plan.result)

def execute (db : Database Payload) (request : Request Payload) :
    Database Payload × Except Failure (Result Payload) :=
  match prepare core request with
  | .error error => (db, .error (RuntimeError.whole error))
  | .ok () =>
    match plan core limits request.turn db request.pluginKey request.operation with
    | .error failure => (db, .error failure)
    | .ok plan => commit request.turn db plan

def run (db : Database Payload) (requests : List (Request Payload)) : Database Payload :=
  requests.foldl (fun db request => (execute core limits db request).1) db

end

end BotsterHub.Store
