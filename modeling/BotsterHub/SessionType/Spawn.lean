import BotsterHub.SessionType.Sources

/-!
Materialization: from a session type and a request to the spawn request that Core gets. The
command is read below the root of the source, the working directory below the root of the target,
if there is one.
-/

namespace BotsterHub.SessionType

open Package (PackageRecord)

/-- `StartupMaterializationPaths`: what a spawn on the Host reads in place of the process. -/
structure StartupPaths where
  cwd : PathBuf
  dataDirectory : String
  sessionDirectory : String
  hubSocket : String
  hubBin : Option String
  inheritedNames : List String

/-- `MaterializationConfigView`. -/
structure MaterializationConfig where
  dataDirectory : PathBuf
  shell : String
  initialRows : ℕ
  initialCols : ℕ
  localSocket : Option PathBuf := none
  mcpUrl : Option String := none
  startup : Option StartupPaths := none

/-- What the process answers: its directory, its executable and the names in its environment. -/
structure Process where
  currentDir : PathBuf
  currentExe : Option String
  environmentNames : List String

section Config

variable (process : Process) (config : MaterializationConfig)

def absolutePath (path : PathBuf) : PathBuf :=
  if path.hasRoot then path else process.currentDir.join path

def hubSocketPath : String :=
  match config.startup with
  | some startup => startup.hubSocket
  | none => (config.localSocket.map fun socket => (absolutePath process socket).display).getD ""

def dataDirectoryText : String :=
  match config.startup with
  | some startup => startup.dataDirectory
  | none => (absolutePath process config.dataDirectory).display

def sessionDirectoryText : String :=
  match config.startup with
  | some startup => startup.sessionDirectory
  | none => ((absolutePath process config.dataDirectory).join (.ofText "sessions")).display

def hubBinText : Option String :=
  match config.startup with
  | some startup => startup.hubBin
  | none => process.currentExe

def botsterEnvironmentStart : String := "BOTSTER_"

def unsetNames : List String :=
  match config.startup with
  | some startup => startup.inheritedNames
  | none => process.environmentNames.filter (Text.startsWith · botsterEnvironmentStart)

end Config

/-- A relative source root is read in the directory that was captured at startup. -/
def anchoredRoot (config : MaterializationConfig) (root : PathBuf) : PathBuf :=
  match config.startup with
  | some startup => if root.hasRoot then root else startup.cwd.join root
  | none => root

structure SessionTypeContextInput where
  worktreePath : Option String := none
  repoPath : Option String := none
  branchName : Option String := none
  prompt : Option String := none
  ticketId : Option String := none
  workspaceId : Option String := none
  metadata : List (String × String) := []

structure SessionTypeRequest where
  targetId : Option String := none
  sessionId : Option String := none
  cwd : Option String := none
  environment : List (String × String) := []
  context : SessionTypeContextInput := {}

inductive Executable where
  | path (path : PathBuf)
  | shell (command : String)
  deriving DecidableEq

structure SpawnRequest where
  requestId : String
  sessionId : String
  executable : Executable
  arguments : List String
  workingDirectory : PathBuf
  environment : List (String × String)
  unset : List String
  rows : ℕ
  cols : ℕ

structure MaterializedSessionType where
  sessionType : HubSessionType
  spawnRequest : SpawnRequest
  contextId : String
  /-- The context that the Hub stores for the session. -/
  context : Dict String String
  metadata : Dict String String

/-- The secret and its digest, both in hex digits. -/
structure Credential where
  secret : String
  digest : String

def resolveWorkingDirectory (root : PathBuf) (sessionType : PackageSessionType) : PathBuf :=
  match sessionType.workingDirectory with
  | .packageRoot => root
  | .relative path => root.join (.ofText path)

def resolveExecution (config : MaterializationConfig) (commandRoot : PathBuf)
    (sessionType : PackageSessionType) : Executable × List String :=
  match sessionType.execution with
  | .relativeExecutable =>
    (.path (commandRoot.join (.ofText sessionType.command)), sessionType.args)
  | .shellCommand =>
    (.shell config.shell, ["-c", sessionType.command, "botster-session-type"] ++ sessionType.args)

/-- The directory that the session starts in, below `cwdRoot`. -/
def chooseWorkingDirectory (cwdRoot : PathBuf) (sessionType : PackageSessionType)
    (cwd : Option String) : SessionTypeResult PathBuf := do
  let workingDirectory ←
    match cwd with
    | none => pure (resolveWorkingDirectory cwdRoot sessionType)
    | some cwd =>
      let path := PathBuf.ofText cwd
      if ¬path.hasRoot ∨ ¬path.startsWith cwdRoot then
        throw ⟨.cwdNotAdmitted, "requested cwd is outside the admitted spawn target"⟩
      pure path
  if ¬workingDirectory.startsWith cwdRoot then
    throw ⟨.cwdNotAdmitted, "session_type working directory escapes the admitted spawn target"⟩
  pure workingDirectory

def overrideEnvironment (allowed : List String) :
    List (String × String) → Dict String String → SessionTypeResult (Dict String String)
  | [], environment => .ok environment
  | (name, value) :: overrides, environment => do
      validateEnvironmentName name
      if name ∉ allowed then
        throw ⟨.environmentNotAdmitted, "environment override is not admitted: " ++ name⟩
      overrideEnvironment allowed overrides (environment.insert name value)

def insertOptional (values : Dict String String) (key : String) : Option String → Dict String String
  | some value => values.insert key value
  | none => values

def isMetadataKey (key : String) : Bool := key.toList.all fun c => c == '_' || c.isAlphanum

section Spawn

variable (process : Process) (config : MaterializationConfig)

def injectContextEnvironment (environment : Dict String String) (sessionId contextId : String) :
    Dict String String :=
  let environment := environment.insert "BOTSTER_SESSION_ID" sessionId
  let environment := environment.insert "BOTSTER_CONTEXT_ID" contextId
  let environment := environment.insert "BOTSTER_HUB_DATA_DIR" (dataDirectoryText process config)
  let environment := environment.insert "BOTSTER_HUB_SOCKET" (hubSocketPath process config)
  insertOptional environment "BOTSTER_HUB_BIN" (hubBinText process config)

def assembleContext (sessionId contextId targetId : String) (packageRoot workingDirectory : PathBuf)
    (input : SessionTypeContextInput) (declaredKeys : List String) : Dict String String :=
  let values : Dict String String := ∅
  let values := values.insert "session_id" sessionId
  let values := values.insert "context_id" contextId
  let values := values.insert "target_id" targetId
  let values := values.insert "session_dir" (sessionDirectoryText process config)
  let values := values.insert "hub_socket" (hubSocketPath process config)
  let values := values.insert "repo_path" (input.repoPath.getD packageRoot.display)
  let values := values.insert "worktree_path" (input.worktreePath.getD workingDirectory.display)
  let values := insertOptional values "branch_name" input.branchName
  let values := insertOptional values "prompt" input.prompt
  let values := insertOptional values "ticket_id" input.ticketId
  let values := insertOptional values "workspace_id" input.workspaceId
  let values := (input.metadata.filter fun entry => isMetadataKey entry.1).foldl
    (fun values entry => values.insert ("metadata." ++ entry.1) entry.2) values
  declaredKeys.foldl (fun values key => values.orInsert key "") values

def traitsText (traits : List String) : String :=
  "[" ++ ",".intercalate (traits.map fun text => "\"" ++ text ++ "\"") ++ "]"

def sessionTypeMetadata (row : HubSessionType) : Dict String String :=
  [("botster.session_type.id", row.sessionTypeId), ("botster.session_type.source", row.source),
    ("botster.session_type.role", row.role),
    ("botster.session_type.interaction", row.interaction),
    ("botster.session_type.lifecycle", row.lifecycle),
    ("botster.session_type.traits", traitsText row.traits)].foldl
    (fun entries entry => entries.insert entry.1 entry.2) ∅

def mcpTokenEnvironment : String := "BOTSTER_MCP_TOKEN"

def mcpUrlEnvironment : String := "BOTSTER_MCP_URL"

def credentialVariables (sessionId : String) (credential : Credential)
    (environment : List (String × String)) : List (String × String) :=
  environment.filter (fun v => v.1 ≠ mcpTokenEnvironment ∧ v.1 ≠ mcpUrlEnvironment) ++
    [(mcpTokenEnvironment, sessionId ++ "." ++ credential.secret)] ++
    (config.mcpUrl.map fun url => (mcpUrlEnvironment, url)).toList

/-- `materialize_session_type_from_resolved`. `entropy` is the credential that the system gives, if
any. -/
def materializeFromResolved (entropy : Option Credential) (request : SessionTypeRequest)
    (source : SourceSessionType) (effectiveRow : HubSessionType)
    (spawnTarget : Option SpawnTarget) : SessionTypeResult MaterializedSessionType := do
  if ¬source.available then throw ⟨.sessionTypeUnavailable, "session type source is not enabled"⟩
  let sessionType := source.sessionType
  validateSessionType sessionType
  let commandRoot := anchoredRoot config source.root
  let cwdRoot := (spawnTarget.map (·.root)).getD commandRoot
  let targetId :=
    (((spawnTarget.map (·.targetId)).or request.targetId).or sessionType.targetId).getD
      source.defaultTargetId
  let workingDirectory ← chooseWorkingDirectory cwdRoot sessionType request.cwd
  let environment ← overrideEnvironment sessionType.allowedEnvironmentOverrides request.environment
    sessionType.environment
  let sessionId := request.sessionId.getD ("session-type-" ++ sessionType.id)
  let contextId := "ctx-" ++ sessionId
  let context := assembleContext process config sessionId contextId targetId commandRoot
    workingDirectory request.context sessionType.context
  let environment := injectContextEnvironment process config environment sessionId contextId
  let row := { effectiveRow with targetId }
  let (executable, arguments) := resolveExecution config commandRoot sessionType
  match entropy with
  | none =>
    throw ⟨.credentialUnavailable, "the OS entropy source could not produce a session credential"⟩
  | some credential =>
    pure
      { sessionType := row
        spawnRequest :=
          { requestId := "session-type-" ++ contextId
            sessionId
            executable
            arguments
            workingDirectory
            environment := credentialVariables config sessionId credential
              (environment.entries.map fun e => (e.1, e.2))
            unset := unsetNames process config
            rows := config.initialRows
            cols := config.initialCols }
        contextId
        context
        metadata := (sessionTypeMetadata row).insert "botster.caller_token_sha256"
          credential.digest }

def materializeSessionType (entropy : Option Credential) (repos : Repositories)
    (records : List PackageRecord) (state : HubState) (sessionTypeId : String)
    (request : SessionTypeRequest) : SessionTypeResult MaterializedSessionType := do
  let (source, row, target) ←
    resolveMaterializationSource repos records state sessionTypeId request.targetId
  materializeFromResolved process config entropy request source row target

end Spawn

end BotsterHub.SessionType
