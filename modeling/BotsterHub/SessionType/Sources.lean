import BotsterHub.Package.Registry

/-!
The session types that the Hub knows: where definitions come from, which of one id is in effect,
and which can be spawned at a target. A definition of a higher rank overrides those of a lower one:
package, then device, then repository.
-/

namespace BotsterHub.SessionType

open Package (PackageRecord PackageState)

structure DeviceSessionTypeSource where
  root : PathBuf
  sessionTypes : List PackageSessionType

/-- `SpawnTarget`, without the label, the kind and the metadata, which no function here reads. -/
structure SpawnTarget where
  targetId : String
  root : PathBuf
  enabled : Bool := true
  deriving DecidableEq

/-- The part of the Hub state that session types are read from. -/
structure HubState where
  deviceSessionTypeSources : List DeviceSessionTypeSource := []
  spawnTargets : List SpawnTarget := []

/-- What is found of the session type file of a repository. -/
inductive RepoFile where
  | missing
  | unreadable (error : String)
  | tooLarge
  | invalid (error : String)
  | definitions (sessionTypes : List PackageSessionType)

/-- The repositories on disk. -/
structure Repositories where
  file : PathBuf → RepoFile

def repoSessionTypesFileByteCapacity : ℕ := 4 * 1024 * 1024

def repoSessionTypes (repos : Repositories) (root : PathBuf) :
    SessionTypeResult (List PackageSessionType) :=
  match repos.file root with
  | .missing => .ok []
  | .unreadable error => .error ⟨.invalidRepoSessionTypes,
      "repo-local session type file could not be read: " ++ error⟩
  | .tooLarge => .error ⟨.repoSessionTypesTooLarge,
      s!"repo-local session type file exceeds {repoSessionTypesFileByteCapacity} bytes"⟩
  | .invalid error => .error ⟨.invalidRepoSessionTypes,
      "repo-local session type file is invalid: " ++ error⟩
  | .definitions sessionTypes => .ok sessionTypes

inductive SourceRank where
  | package
  | device
  | repo
  deriving DecidableEq

def SourceRank.toNat : SourceRank → ℕ
  | .package => 0
  | .device => 1
  | .repo => 2

def SourceRank.text : SourceRank → String
  | .package => "package"
  | .device => "device"
  | .repo => "repo"

structure SourceSessionType where
  rank : SourceRank
  source : String
  sourceName : String
  root : PathBuf
  sessionType : PackageSessionType
  available : Bool

/-- `DEVICE_SESSION_TYPE_SOURCE`. -/
def deviceSourceName : String := "device"

def packageSources (record : PackageRecord) : SessionTypeResult (List SourceSessionType) := do
  record.sessionTypes.forM validateSessionType
  match record.root? with
  | none => pure []
  | some root => pure <| record.sessionTypes.map fun sessionType =>
    { rank := .package
      source := SourceRank.package.text
      sourceName := record.manifest.name
      root
      sessionType
      available := record.state == .enabled }

def deviceSources (device : DeviceSessionTypeSource) :
    SessionTypeResult (List SourceSessionType) := do
  (validateSessionTypes device.sessionTypes).mapError (⟨.invalidDeviceSessionTypes, ·⟩)
  pure <| device.sessionTypes.map fun sessionType =>
    { rank := .device
      source := SourceRank.device.text
      sourceName := deviceSourceName
      root := device.root
      sessionType
      available := true }

section Repositories

variable (repos : Repositories)

/-- The definitions of one repository, or the staged ones in their place. -/
def repoSources (staged : Option (String × List PackageSessionType)) (target : SpawnTarget) :
    SessionTypeResult (List SourceSessionType) := do
  let sessionTypes ←
    match staged with
    | some (targetId, definitions) =>
      if target.targetId = targetId then pure definitions
      else repoSessionTypes repos target.root
    | none => repoSessionTypes repos target.root
  (validateSessionTypes sessionTypes).mapError (⟨.invalidRepoSessionTypes, ·⟩)
  pure <| sessionTypes.map fun sessionType =>
    { rank := .repo
      source := SourceRank.repo.text
      sourceName := target.targetId
      root := target.root
      sessionType
      available := true }

variable (records : List PackageRecord)

def sourceSessionTypesWithStagedRepo (state : HubState)
    (staged : Option (String × List PackageSessionType)) :
    SessionTypeResult (List SourceSessionType) := do
  let packages ← records.mapM packageSources
  let devices ← state.deviceSessionTypeSources.mapM deviceSources
  let repositories ← (state.spawnTargets.filter (·.enabled)).mapM (repoSources repos staged)
  pure (packages.flatten ++ devices.flatten ++ repositories.flatten)

def sourceSessionTypes (state : HubState) : SessionTypeResult (List SourceSessionType) :=
  sourceSessionTypesWithStagedRepo repos records state none

structure HubSessionTypeSource where
  kind : String
  name : String
  deriving DecidableEq

structure HubSessionType where
  sessionTypeId : String
  sourceName : String
  id : String
  source : String
  editable : Bool
  overriddenSources : List HubSessionTypeSource
  diagnostics : List String
  label : String
  description : Option String
  icon : Option String
  role : String
  interaction : String
  traits : List String
  lifecycle : String
  execution : Execution
  command : String
  args : List String
  workingDirectoryPolicy : String
  allowedEnvironmentOverrides : List String
  contextKeys : List String
  targetId : String
  available : Bool
  deriving DecidableEq

variable (source : SourceSessionType)

def SourceSessionType.qualifiedId : String := source.sourceName ++ "/" ++ source.sessionType.id

def packageTargetId (packageName : String) : String := "package:" ++ packageName

def defaultDeviceTargetId : String := "device:local"

def SourceSessionType.defaultTargetId : String :=
  source.sessionType.targetId.getD <|
    match source.rank with
    | .package => packageTargetId source.sourceName
    | .device => defaultDeviceTargetId
    | .repo => source.sourceName

def WorkingDirectory.policy : WorkingDirectory → String
  | .packageRoot => "package_root"
  | .relative _ => "relative"

def sessionTypeRowFromSource : HubSessionType :=
  { sessionTypeId := source.qualifiedId
    sourceName := source.sourceName
    id := source.sessionType.id
    source := source.source
    editable := source.rank ≠ .package
    overriddenSources := []
    diagnostics := []
    label := source.sessionType.label
    description := source.sessionType.description
    icon := source.sessionType.icon
    role := source.sessionType.role
    interaction := source.sessionType.interaction
    traits := source.sessionType.traits
    lifecycle := source.sessionType.lifecycle
    execution := source.sessionType.execution
    command := source.sessionType.command
    args := source.sessionType.args
    workingDirectoryPolicy := source.sessionType.workingDirectory.policy
    allowedEnvironmentOverrides := source.sessionType.allowedEnvironmentOverrides
    contextKeys := source.sessionType.context
    targetId := source.defaultTargetId
    available := source.available }

/-- The row of the definition in effect, which names the definitions that it overrides. -/
def effectiveSessionTypeRow (winner : SourceSessionType) (sources : List SourceSessionType) :
    HubSessionType :=
  let overridden := (sources.filter (·.rank.toNat < winner.rank.toNat)).map fun source =>
    (⟨source.source, source.sourceName⟩ : HubSessionTypeSource)
  { sessionTypeRowFromSource winner with
    overriddenSources := overridden
    diagnostics :=
      if overridden = [] then []
      else [s!"overrides {overridden.length} lower-precedence definition(s)"] }

def unknownSessionType : SessionTypeError := ⟨.unknownSessionType, "session type was not found"⟩

def ambiguousSessionType : SessionTypeError :=
  ⟨.ambiguousSessionType, "session type id matches more than one source at the same precedence"⟩

/-- `choose_effective_session_type_ref`. -/
def chooseEffective (candidates : List SourceSessionType) : SessionTypeResult SourceSessionType :=
  match (candidates.map (·.rank.toNat)).max? with
  | none => .error unknownSessionType
  | some best =>
    match candidates.filter (·.rank.toNat = best) with
    | [winner] => .ok winner
    -- The best rank came from one of the candidates, so that this branch is never taken.
    | [] => .error unknownSessionType
    | _ => .error ambiguousSessionType

def groupsById (sources : List SourceSessionType) : List (List SourceSessionType) :=
  (sources.map (·.sessionType.id)).toFinset.ascending.map fun id =>
    sources.filter (·.sessionType.id = id)

/-- `list_spawn_targets`: the targets in the order of their ids. -/
def listSpawnTargets (targets : List SpawnTarget) : List SpawnTarget :=
  targets.insertionSort (·.targetId ≤ ·.targetId)

def ensureEnabledAdmittedTarget (state : HubState) (targetId : String) :
    SessionTypeResult SpawnTarget :=
  match (listSpawnTargets state.spawnTargets).find? (·.targetId = targetId) with
  | some target =>
    if target.enabled then .ok target
    else .error ⟨.targetNotAdmitted, "spawn target is not enabled"⟩
  | none => .error ⟨.targetNotFound, "spawn target was not found"⟩

def isEligibleForTarget (targetId : String) (source : SourceSessionType) : Bool :=
  source.available &&
    match source.rank with
    | .device => source.sessionType.targetId.all (· = targetId)
    | .repo => source.sourceName = targetId
    | .package => source.defaultTargetId = targetId

/-- The definitions in effect at a target: eligibility comes before precedence. -/
def targetScopedEffectiveWinners (state : HubState)
    (targetId : String) : SessionTypeResult (List (SourceSessionType × HubSessionType)) := do
  let _ ← ensureEnabledAdmittedTarget state targetId
  let sources ← sourceSessionTypes repos records state
  (groupsById (sources.filter (isEligibleForTarget targetId))).mapM fun peers => do
    let winner ← chooseEffective peers
    pure (winner, { effectiveSessionTypeRow winner peers with targetId })

def HubSessionType.Matches (row : HubSessionType) (sessionTypeId : String) : Prop :=
  row.id = sessionTypeId ∨ row.sessionTypeId = sessionTypeId

instance (row : HubSessionType) (sessionTypeId : String) : Decidable (row.Matches sessionTypeId) :=
  inferInstanceAs (Decidable (_ ∨ _))

def findSourceSessionTypeForTarget (state : HubState)
    (sessionTypeId targetId : String) : SessionTypeResult (SourceSessionType × HubSessionType) := do
  let winners ← targetScopedEffectiveWinners repos records state targetId
  match winners.filter (·.2.Matches sessionTypeId) with
  | [] => throw unknownSessionType
  | [found] => pure found
  | _ => throw ambiguousSessionType

/-- The lookup of the management catalog: among all sources. -/
def findSourceSessionTypeWithRow (state : HubState)
    (sessionTypeId : String) : SessionTypeResult (SourceSessionType × HubSessionType) := do
  let sources ← sourceSessionTypes repos records state
  let winner ← chooseEffective <| sources.filter fun source =>
    source.sessionType.id = sessionTypeId ∨ source.qualifiedId = sessionTypeId
  let peers := sources.filter (·.sessionType.id = winner.sessionType.id)
  pure (winner, effectiveSessionTypeRow winner peers)

def targetNotAdmitted : SessionTypeError :=
  ⟨.targetNotAdmitted, "requested spawn target is not admitted for this session_type"⟩

/-- The branch of `resolve_materialization_source` without a requested target. -/
def resolveWithoutTarget (state : HubState) (sessionTypeId : String) :
    SessionTypeResult (SourceSessionType × HubSessionType × Option SpawnTarget) := do
  let (source, row) ← findSourceSessionTypeWithRow repos records state sessionTypeId
  let resolvedTargetId := source.sessionType.targetId.getD source.defaultTargetId
  match ensureEnabledAdmittedTarget state resolvedTargetId with
  | .ok target =>
    if isEligibleForTarget target.targetId source then pure (source, row, some target)
    else throw targetNotAdmitted
  | .error _ =>
    if resolvedTargetId ≠ source.defaultTargetId then throw targetNotAdmitted
    pure (source, row, none)

/-- The requested target is no admitted spawn point; it may be the pin of a source. -/
def resolveAtPin (state : HubState) (sessionTypeId targetId : String) :
    SessionTypeResult (SourceSessionType × HubSessionType × Option SpawnTarget) := do
  let (source, row) ← findSourceSessionTypeWithRow repos records state sessionTypeId
  if targetId ≠ source.defaultTargetId then throw targetNotAdmitted
  pure (source, row, none)

def resolveMaterializationSource (state : HubState)
    (sessionTypeId : String) (requestTargetId : Option String) :
    SessionTypeResult (SourceSessionType × HubSessionType × Option SpawnTarget) :=
  match requestTargetId with
  | none => resolveWithoutTarget repos records state sessionTypeId
  | some targetId =>
    match ensureEnabledAdmittedTarget state targetId with
    | .ok target => do
        let (source, row) ←
          findSourceSessionTypeForTarget repos records state sessionTypeId targetId
        pure (source, row, some target)
    | .error error =>
      if error.kind = .targetNotAdmitted then .error error
      else resolveAtPin repos records state sessionTypeId targetId

end Repositories

end BotsterHub.SessionType
