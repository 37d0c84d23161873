import BotsterHub.Json
import BotsterHub.SessionType.Definition

/-!
Package manifests and the checks that the Hub makes on them.

Every check is a function of the manifest alone. Which of them an operation makes is for the
registry to say.
-/

namespace BotsterHub.Package

open SessionType (PackageSessionType)

inductive CapabilitySurface where
  | browserShell
  | clientAdmission
  | crypto
  | filesystem
  | hubPresence
  | mcp
  | network
  | pairingInvites
  | pluginDb
  | secrets
  | sessionActions
  | signalingRelay
  | surfaces
  | timers
  deriving DecidableEq

structure Capability where
  surface : CapabilitySurface
  scope : Option String := none
  deriving DecidableEq

inductive ExtensionKind where
  | plugin
  | provider
  deriving DecidableEq

inductive PackageSource where
  | path (path : PathBuf)
  | git (repo reference : String)
  deriving DecidableEq

/-- The metadata of a privileged provider; only Core reads what is in it. -/
structure HostProfileMetadata where
  profileId : String
  document : Json

structure AdmittedHostProfile where
  profileId : String
  document : Json

inductive HostProfileAdmissionError where
  | missingMetadata
  | rejected (reason : String)
  deriving DecidableEq

inductive ConfigurationFieldType where
  | string
  | number
  | integer
  | boolean
  | select
  | path
  | url
  | multilineText
  | secret
  deriving DecidableEq

inductive SecretValue where
  | unset
  | writeOnly
  | redacted
  deriving DecidableEq

/-- `PackageConfigurationValue`. A value is kept as its text. -/
inductive ConfigurationValue where
  | string (value : String)
  | number (value : String)
  | integer (value : ℤ)
  | boolean (value : Bool)
  | select (value : String)
  | path (value : String)
  | url (value : String)
  | multilineText (value : String)
  | secret (state : SecretValue)
  deriving DecidableEq

structure ConfigurationField where
  key : String
  fieldType : ConfigurationFieldType
  required : Bool := false
  default : Option ConfigurationValue := none
  /-- The values of the options of a select field. -/
  options : List String := []

structure ConfigurationSchema where
  fields : List ConfigurationField

inductive SurfaceOperation where
  | render
  | action
  deriving DecidableEq

/-- `PackageSurfaceDescriptor`, without the texts that only a client shows. -/
structure SurfaceDescriptor where
  id : String
  supports : List SurfaceOperation := []
  deriving DecidableEq

/-- `PackageNavigationEntry`; its target is always a surface. -/
structure NavigationEntry where
  id : String
  surfaceId : String
  deriving DecidableEq

structure HubEmittedEvent where
  name : String
  payloadSchema : Json
  audience : List String
  owner : Option String := none

/-- `PackageNoticeReactionDeclaration`, without the severity that only a client shows. -/
structure NoticeReaction where
  owner : Option String := none
  name : String
  textPointer : String
  ttlMs : ℕ
  deriving DecidableEq

structure HubPackageEvents where
  emitted : List HubEmittedEvent := []
  notices : List NoticeReaction := []

structure HubPackageManifest where
  name : String
  version : String := "0.1.0"
  kind : ExtensionKind := .plugin
  botster : String
  source : Option PackageSource := none
  capabilities : List Capability := []
  /-- The paths of the entrypoints. -/
  entrypoints : List String := []
  hostProfile : Option HostProfileMetadata := none
  configuration : Option ConfigurationSchema := none
  surfaces : List SurfaceDescriptor := []
  navigation : List NavigationEntry := []
  events : HubPackageEvents := {}

/-- Checks whose inside does not matter here: the schema subset, the names of Core's plugin
database, and Core's admission of a host profile, for a version of the Hub. -/
structure Checks where
  hubVersion : String
  compileSchema : Json → Except String Unit
  /-- The schema compiles and some string satisfies it. -/
  schemaAcceptsString : Json → Bool
  validatePackageNamespace : String → Except String Unit
  admitHostProfile : HubPackageManifest → Except HostProfileAdmissionError AdmittedHostProfile

/-- The first operation that stands before, among `seen` or in the list itself. -/
def repeatedOperation (seen : List SurfaceOperation) :
    List SurfaceOperation → Option SurfaceOperation
  | [] => none
  | operation :: operations =>
    if operation ∈ seen then some operation
    else repeatedOperation (operation :: seen) operations

def SurfaceOperation.text : SurfaceOperation → String
  | .render => "Render"
  | .action => "Action"

def validateSurfaces (seen : List String) : List SurfaceDescriptor → Except String (List String)
  | [] => .ok seen
  | surface :: surfaces => do
      if Text.isBlank surface.id then throw "surface identifier must be non-empty"
      if surface.id ∈ seen then throw s!"duplicate package surface identifier `{surface.id}`"
      match repeatedOperation [] surface.supports with
      | some operation =>
        throw s!"package surface `{surface.id}` declares duplicate `{operation.text}` support"
      | none => validateSurfaces (surface.id :: seen) surfaces

def validateNavigation (surfaceIds seen : List String) : List NavigationEntry → Except String Unit
  | [] => .ok ()
  | entry :: entries => do
      if Text.isBlank entry.id then throw "navigation identifier must be non-empty"
      if entry.id ∈ seen then throw s!"duplicate package navigation identifier `{entry.id}`"
      if Text.isBlank entry.surfaceId then
        throw "navigation surface target identifier must be non-empty"
      if entry.surfaceId ∉ surfaceIds then
        throw s!"package navigation `{entry.id}` targets undeclared surface `{entry.surfaceId}`"
      validateNavigation surfaceIds (entry.id :: seen) entries

def HubPackageManifest.validatePresentation (manifest : HubPackageManifest) :
    Except String Unit := do
  let surfaceIds ← validateSurfaces [] manifest.surfaces
  validateNavigation surfaceIds [] manifest.navigation

/-- The owner of the events that the Hub itself emits. -/
def hubEventOwner : String := "hub"

variable (checks : Checks)

def validateEmitted (package : String) (event : HubEmittedEvent) : Except String Unit := do
  if event.owner.any (fun owner => owner ≠ package || Text.contains owner '*' || owner = "*") then
    throw s!"event {event.name} owner must be the declaring package"
  if Text.isBlank event.name || Text.contains event.name '*' || Text.contains event.name '?' then
    throw s!"event name {event.name} is not an exact name"
  if event.audience = [] then throw s!"event {event.name} audience must not be empty"
  event.audience.forM fun audience =>
    if audience ≠ "plugins" ∧ audience ≠ "clients" then
      throw s!"event {event.name} has unsupported audience {audience}"
    else pure ()
  checks.compileSchema event.payloadSchema

def isExactIdentity (value : String) : Bool :=
  !Text.isBlank value && !Text.contains value '*' && !Text.contains value '?' && value ≠ "*"

def decodeEscapes (pointer : String) : List Char → Except String (List Char)
  | [] => .ok []
  | '~' :: '0' :: rest => ('~' :: ·) <$> decodeEscapes pointer rest
  | '~' :: '1' :: rest => ('/' :: ·) <$> decodeEscapes pointer rest
  | ['~'] => .error s!"notice text pointer `{pointer}` has a trailing `~`"
  | '~' :: _ :: _ => .error s!"notice text pointer `{pointer}` has an unknown `~` escape"
  | c :: rest => (c :: ·) <$> decodeEscapes pointer rest

def decodeNoticeTextPointer (pointer : String) : Except String String :=
  match pointer.toList with
  | '/' :: raw => do
      if '/' ∈ raw then throw s!"notice text pointer `{pointer}` must be one top-level segment"
      let decoded ← decodeEscapes pointer raw
      if decoded = [] then
        throw s!"notice text pointer `{pointer}` decodes to an empty property name"
      pure (String.ofList decoded)
  | _ => .error s!"notice text pointer `{pointer}` must start with `/`"

def noticeTtlMinMs : ℕ := 1000

def noticeTtlMaxMs : ℕ := 60000

def validateNoticeReactions (seen : List (String × String)) :
    List NoticeReaction → Except String Unit
  | [] => .ok ()
  | notice :: notices => do
      let owner := notice.owner.getD ""
      if !isExactIdentity notice.name then
        throw s!"notice reaction name `{notice.name}` is not an exact name"
      if notice.owner.any (!isExactIdentity ·) then
        throw s!"notice reaction owner `{owner}` is not an exact owner"
      let _ ← decodeNoticeTextPointer notice.textPointer
      if notice.ttlMs < noticeTtlMinMs ∨ noticeTtlMaxMs < notice.ttlMs then
        throw s!"notice reaction `{notice.name}` ttl_ms {notice.ttlMs} is outside 1000..=60000"
      if (owner, notice.name) ∈ seen then
        throw s!"duplicate notice reaction `{owner}/{notice.name}`"
      validateNoticeReactions ((owner, notice.name) :: seen) notices

def stringProperty (properties : List (String × Json)) (property : String) : Option Bool :=
  (properties.lookup property).map checks.schemaAcceptsString

def schemaProperties (schema : Json) : Option (List (String × Json)) :=
  match schema.get? "properties" with
  | some (.obj properties) => some properties
  | _ => none

def validateNotices (checks : Checks) (manifest : HubPackageManifest) (seen : List String) :
    List NoticeReaction → Except String Unit
  | [] => .ok ()
  | notice :: notices => do
      if notice.owner.any (· ≠ manifest.name) then
        throw s!"notice {notice.name} owner must be the declaring package"
      if notice.name ∈ seen then throw s!"duplicate notice reaction {notice.name}"
      match manifest.events.emitted.find? (·.name = notice.name) with
      | none => throw s!"notice {notice.name} does not name an admitted emitted event"
      | some event =>
        if "clients" ∉ event.audience then
          throw (s!"notice {notice.name} requires the matching event to include " ++
            "the clients audience")
        match schemaProperties event.payloadSchema with
        | none => throw s!"notice {notice.name} matching event has no payload properties"
        | some properties =>
          match stringProperty checks properties "subject" with
          | none =>
            throw (s!"notice {notice.name} matching event payload schema must declare " ++
              "subject")
          | some false =>
            throw s!"notice {notice.name} matching event subject must accept a string"
          | some true =>
            let property ← decodeNoticeTextPointer notice.textPointer
            match stringProperty checks properties property with
            | none =>
              throw (s!"notice {notice.name} text pointer property `{property}` is " ++
                "absent from the payload schema")
            | some false =>
              throw (s!"notice {notice.name} text pointer property `{property}` must " ++
                "accept a string")
            | some true => validateNotices checks manifest (notice.name :: seen) notices

def HubPackageManifest.validateEventContracts (manifest : HubPackageManifest) :
    Except String Unit := do
  if manifest.name = hubEventOwner then throw "package name hub is reserved"
  manifest.events.emitted.forM (validateEmitted checks manifest.name)
  validateNoticeReactions [] manifest.events.notices
  validateNotices checks manifest [] manifest.events.notices

inductive CompatibilityResult where
  | compatible
  | incompatible
  | invalidRequirement
  deriving DecidableEq

structure PackageCompatibility where
  botsterRequirement : String
  hubVersion : String
  result : CompatibilityResult
  diagnostics : List String
  deriving DecidableEq

def parsePointVersion (version : String) : Option (ℕ × ℕ × ℕ) :=
  match Text.split version '.' with
  | [major, minor, patch] => do
      pure (← Text.parseU64 major, ← Text.parseU64 minor, ← Text.parseU64 patch)
  | _ => none

def versionLe (a b : ℕ × ℕ × ℕ) : Bool :=
  a.1 < b.1 || (a.1 == b.1 && (a.2.1 < b.2.1 || (a.2.1 == b.2.1 && a.2.2 ≤ b.2.2)))

def compatibilityRequirementSatisfied (requirement hubVersion : String) : Except String Bool :=
  if requirement = "" then .error "botster requirement is empty"
  else
    let minimum := Text.strip? requirement ">="
    match parsePointVersion (minimum.getD requirement) with
    | none => .error (s!"botster requirement {requirement} must be MAJOR.MINOR.PATCH or " ++
        ">=MAJOR.MINOR.PATCH")
    | some required =>
      match parsePointVersion hubVersion with
      | none => .error s!"hub version {hubVersion} is not MAJOR.MINOR.PATCH"
      | some current =>
        .ok (if minimum.isSome then versionLe required current else current == required)

def PackageCompatibility.evaluate (requirement hubVersion : String) : PackageCompatibility :=
  let (result, diagnostic) :=
    match compatibilityRequirementSatisfied requirement hubVersion with
    | .ok true => (CompatibilityResult.compatible,
        s!"botster requirement {requirement} is satisfied by hub {hubVersion}")
    | .ok false => (.incompatible,
        s!"botster requirement {requirement} is not satisfied by hub {hubVersion}")
    | .error message => (.invalidRequirement, message)
  { botsterRequirement := requirement, hubVersion, result, diagnostics := [diagnostic] }

def PackageCompatibility.forManifest (manifest : HubPackageManifest) :
    PackageCompatibility :=
  evaluate manifest.botster checks.hubVersion

def PackageCompatibility.isCompatible (compatibility : PackageCompatibility) : Bool :=
  compatibility.result == .compatible

example : (PackageCompatibility.evaluate ">=0.1.0" "0.2.0").isCompatible = true ∧
    (PackageCompatibility.evaluate "0.1.0" "0.2.0").isCompatible = false := by
  decide +kernel

inductive RunnableWorkingDirectory where
  | packageRoot
  | entrypointDir
  | relative (path : String)
  deriving DecidableEq

inductive InjectionTarget where
  | environment (name : String)
  | argument (value : String)
  | other
  deriving DecidableEq

/-- `PackageRunnableEntrypoint`, without what only a launch reads. -/
structure RunnableEntrypoint where
  id : String
  command : String
  workingDirectory : RunnableWorkingDirectory := .packageRoot
  /-- The names of the required variables. -/
  environment : List String := []
  injections : List InjectionTarget := []
  deriving DecidableEq

def validateRunnablePath (value label : String) : Except String Unit :=
  if (PathBuf.ofText value).Descends then .ok ()
  else .error s!"runnable entrypoint {label} is unsafe: {value}"

def validateRunnableCommand (command : String) : Except String Unit := do
  if Text.isBlank command then throw "runnable entrypoint command is empty"
  validateRunnablePath command "command"

def validateInjection (id : String) : InjectionTarget → Except String Unit
  | .environment name =>
    if Text.isBlank name then
      .error s!"runnable entrypoint {id} has empty injection environment name"
    else .ok ()
  | .argument value =>
    if Text.isBlank value then
      .error s!"runnable entrypoint {id} has empty injection argument target"
    else .ok ()
  | .other => .ok ()

def validateRunnableFrom (seen : List String) : List RunnableEntrypoint → Except String Unit
  | [] => .ok ()
  | entrypoint :: entrypoints => do
      if Text.isBlank entrypoint.id then throw "runnable entrypoint id is empty"
      if entrypoint.id ∈ seen then throw s!"duplicate runnable entrypoint id {entrypoint.id}"
      validateRunnableCommand entrypoint.command
      match entrypoint.workingDirectory with
      | .relative path => validateRunnablePath path "working directory"
      | _ => pure ()
      if entrypoint.environment.any Text.isBlank then
        throw s!"runnable entrypoint {entrypoint.id} has empty environment requirement name"
      entrypoint.injections.forM (validateInjection entrypoint.id)
      validateRunnableFrom (entrypoint.id :: seen) entrypoints

def validateRunnableEntrypointContract (entrypoints : List RunnableEntrypoint) :
    Except String Unit :=
  validateRunnableFrom [] entrypoints

structure ConfigurationDiagnostic where
  kind : String
  field : Option String
  message : String
  deriving DecidableEq

def ConfigurationFieldType.label : ConfigurationFieldType → String
  | .string => "string"
  | .number => "number"
  | .integer => "integer"
  | .boolean => "boolean"
  | .select => "select"
  | .path => "path"
  | .url => "url"
  | .multilineText => "multiline_text"
  | .secret => "secret"

def ConfigurationValue.fieldType : ConfigurationValue → ConfigurationFieldType
  | .string _ => .string
  | .number _ => .number
  | .integer _ => .integer
  | .boolean _ => .boolean
  | .select _ => .select
  | .path _ => .path
  | .url _ => .url
  | .multilineText _ => .multilineText
  | .secret _ => .secret

def ConfigurationField.lacksOption (field : ConfigurationField) : ConfigurationValue → Bool
  | .select value => value ∉ field.options
  | _ => false

def ConfigurationValue.text : ConfigurationValue → String
  | .select value => value
  | _ => ""

/-- `validate_configuration_default`, with the diagnostics that it returns as an error. -/
def validateConfigurationDefault (package : String) (field : ConfigurationField) :
    List ConfigurationDiagnostic :=
  match field.default with
  | none => []
  | some default =>
    if default.fieldType ≠ field.fieldType then
      [⟨"default_type_mismatch", some field.key,
        s!"package {package} configuration field {field.key} default does not match " ++
          field.fieldType.label⟩]
    else if field.lacksOption default then
      [⟨"default_select_option_unknown", some field.key,
        s!"package {package} configuration field {field.key} default does not allow option " ++
          default.text⟩]
    else []

def validateConfigurationValue (package : String) (schema : ConfigurationSchema) (key : String)
    (value : ConfigurationValue) : List ConfigurationDiagnostic :=
  -- The last of several fields of one key counts.
  match schema.fields.reverse.find? (·.key = key) with
  | none => [⟨"unknown_field", some key, s!"package {package} has no configuration field {key}"⟩]
  | some field =>
    if value.fieldType ≠ field.fieldType then
      [⟨"value_type_mismatch", some key,
        s!"configuration field {key} expects " ++ field.fieldType.label⟩]
    else if field.lacksOption value then
      [⟨"select_option_unknown", some key,
        s!"configuration field {key} does not allow option " ++ value.text⟩]
    else []

def validateConfigurationValues (package : String) (schema : ConfigurationSchema)
    (values : List (String × ConfigurationValue)) : List ConfigurationDiagnostic :=
  schema.fields.flatMap (validateConfigurationDefault package) ++
    values.flatMap fun entry => validateConfigurationValue package schema entry.1 entry.2

/-- A secret is never stored. -/
def storedConfigurationValue : ConfigurationValue → ConfigurationValue
  | .secret .writeOnly => .secret .redacted
  | value => value

def effectiveConfigurationValue : ConfigurationValue → ConfigurationValue
  | .secret .writeOnly => .secret .redacted
  | value => value

/-- `PackageConfigurationView`, without the schema itself. -/
structure ConfigurationView where
  effectiveValues : Dict String ConfigurationValue
  missingRequired : List String
  diagnostics : List ConfigurationDiagnostic

/-- The value of a field that is in effect. A secret that is unset is none. -/
def effectiveValue (values : Dict String ConfigurationValue) (field : ConfigurationField) :
    Option ConfigurationValue :=
  (((values.lookup field.key).or field.default).map effectiveConfigurationValue).filter
    (· ≠ .secret .unset)

/-- `PackageConfigurationView::from_record`. -/
def configurationView (manifest : HubPackageManifest) (values : Dict String ConfigurationValue) :
    ConfigurationView :=
  let fields := (manifest.configuration.map (·.fields)).getD []
  { effectiveValues := fields.foldl (fun effective field =>
      match effectiveValue values field with
      | some value => effective.insert field.key value
      | none => effective) ∅
    missingRequired := fields.filterMap fun field =>
      if (effectiveValue values field).isNone ∧ field.required then some field.key else none
    diagnostics := fields.flatMap (validateConfigurationDefault manifest.name) }

end BotsterHub.Package
