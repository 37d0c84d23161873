import BotsterHub.Lib.Scan
import BotsterHub.Package.Manifest
import Mathlib.Data.String.Basic

/-!
The package registry: the records of the installed packages and the operations on them. An
operation gives its answer and the registry it leaves; what it reads from disk is an argument.
-/

namespace BotsterHub.Package

open SessionType (PackageSessionType validateSessionTypes)

inductive PackageState where
  | installed
  | enabled
  | disabled
  deriving DecidableEq

inductive PackageClassification where
  | plugin
  | provider
  deriving DecidableEq

def PackageClassification.fromKind : ExtensionKind → PackageClassification
  | .plugin => .plugin
  | .provider => .provider

inductive TrustClassification where
  | firstParty
  | localDevelopment
  | thirdParty
  deriving DecidableEq

structure PackageTrust where
  classification : TrustClassification
  firstParty : Bool
  deriving DecidableEq

def PackageTrust.ofFirstParty : PackageTrust := ⟨.firstParty, true⟩

def PackageTrust.localDevelopment : PackageTrust := ⟨.localDevelopment, false⟩

def PackageTrust.thirdParty : PackageTrust := ⟨.thirdParty, false⟩

structure PackageProvenance where
  source : String
  checksum : Option String := none
  deriving DecidableEq

inductive UpdatePolicy where
  | manual
  | trackSource
  deriving DecidableEq

structure PackagePin where
  revision : String
  branch : Option String := none
  tag : Option String := none
  rev : Option String := none
  checksum : Option String := none
  updatePolicy : UpdatePolicy := .manual
  deriving DecidableEq

inductive RegistrySourceKind where
  | localPath
  | staticFirstParty
  deriving DecidableEq

inductive EntrySourceKind where
  | localPath
  | git
  deriving DecidableEq

structure PackageSourceMetadata where
  registryId : String
  registryKind : RegistrySourceKind
  entryId : String
  sourceKind : EntrySourceKind
  sourceLabel : String
  gitRepo : Option String
  deriving DecidableEq

structure PackageQuarantine where
  original : String
  compensation : String
  quarantinedAtMs : ℕ
  deriving DecidableEq

structure PackageRecord where
  manifest : HubPackageManifest
  state : PackageState
  classification : PackageClassification
  trust : PackageTrust
  provenance : PackageProvenance
  sourceMetadata : Option PackageSourceMetadata
  pin : Option PackagePin
  updatePolicy : UpdatePolicy
  admittedCapabilities : List Capability
  compatibility : PackageCompatibility
  runnableEntrypoints : List RunnableEntrypoint
  sessionTypes : List PackageSessionType
  configuration : Dict String ConfigurationValue
  lastAuditReason : String
  admittedHostProfile : Option AdmittedHostProfile
  quarantine : Option PackageQuarantine

def PackageRecord.isEnabled (record : PackageRecord) : Bool := record.state == .enabled

def PackageRecord.configurationView (record : PackageRecord) : ConfigurationView :=
  Package.configurationView record.manifest record.configuration

def PackageRecord.root? (record : PackageRecord) : Option PathBuf :=
  match record.manifest.source with
  | some (.path path) => some path
  | _ => none

def isDirectLocalPathPackage (record : PackageRecord) : Bool :=
  record.root?.isSome && record.sourceMetadata.isNone &&
    Text.startsWith record.provenance.source "local:"

abbrev CapabilitySet := { capabilities : List Capability // capabilities.Nodup }

def CapabilitySet.collect (capabilities : List Capability) : CapabilitySet :=
  ⟨capabilities.dedup, capabilities.nodup_dedup⟩

structure PackageRegistry where
  records : Dict String PackageRecord
  grantedCapabilities : CapabilitySet
  governedSurfaces : List CapabilitySurface

/-- `PackageRegistry::new`; the governed surfaces are those of the host profile. -/
def PackageRegistry.new (grantedCapabilities : CapabilitySet)
    (governedSurfaces : List CapabilitySurface) : PackageRegistry :=
  { records := ∅, grantedCapabilities, governedSurfaces }

def PackageRegistry.insert (r : PackageRegistry) (name : String) (record : PackageRecord) :
    PackageRegistry :=
  { r with records := r.records.insert name record }

inductive PackageAction where
  | install
  | show
  | configure
  | reload
  | enable
  | disable
  | remove
  | pin
  deriving DecidableEq

inductive PackageAdmissionReason where
  | alreadyInstalled
  | packageNotInstalled
  | missingSource
  | missingProvenance
  | missingPinRevision
  | unsafeLocalPath (message : String)
  | invalidLocalManifest (message : String)
  | invalidPresentation (message : String)
  | unsafeEntrypoint (message : String)
  | unsafeSessionType (message : String)
  | ungovernedCapabilitySurface (surface : CapabilitySurface)
  | ungrantedCapability (capability : Capability)
  | providerMissingHostProfile
  | hostProfileAdmission (error : HostProfileAdmissionError)
  | botsterCompatibility (diagnostics : List String)
  | invalidConfiguration (diagnostics : List ConfigurationDiagnostic)
  | missingRequiredConfiguration (keys : List String)
  | reservedPackageName
  | invalidPluginNamespace (message : String)
  | invalidEventContract (message : String)
  deriving DecidableEq

structure PackageRegistryError where
  packageName : String
  action : PackageAction
  reason : PackageAdmissionReason
  state : Option PackageState
  classification : Option PackageClassification
  auditReason : String
  deriving DecidableEq

namespace PackageRegistryError

def withoutRecord (packageName : String) (action : PackageAction) (reason : PackageAdmissionReason)
    (auditReason : String) : PackageRegistryError :=
  { packageName, action, reason, state := none, classification := none, auditReason }

def withRecord (packageName : String) (action : PackageAction) (reason : PackageAdmissionReason)
    (record : PackageRecord) (auditReason : String) : PackageRegistryError :=
  { packageName, action, reason, state := some record.state,
    classification := some record.classification, auditReason }

end PackageRegistryError

open PackageRegistryError (withoutRecord withRecord)

abbrev PackageRegistryResult := Except PackageRegistryError

structure PackageDecision where
  packageName : String
  action : PackageAction
  state : PackageState
  classification : PackageClassification
  admittedHostProfile : Option AdmittedHostProfile
  auditReason : String

/-- A method that changes the registry only as its last act. -/
def PackageRegistry.commit {α : Type} (r : PackageRegistry)
    (outcome : PackageRegistryResult (α × PackageRegistry)) :
    PackageRegistryResult α × PackageRegistry :=
  match outcome with
  | .ok (answer, r') => (.ok answer, r')
  | .error error => (.error error, r)

def PackageRegistry.record (r : PackageRegistry) (name : String) (action : PackageAction)
    (auditReason : String) : PackageRegistryResult PackageRecord :=
  match r.records.lookup name with
  | some record => .ok record
  | none => .error (withoutRecord name action .packageNotInstalled auditReason)

structure InstallOptions where
  manifest : HubPackageManifest
  provenance : PackageProvenance
  trust : PackageTrust
  runnableEntrypoints : List RunnableEntrypoint := []
  sessionTypes : List PackageSessionType := []
  sourceMetadata : Option PackageSourceMetadata := none
  pin : Option PackagePin := none
  auditReason : String

section Install

variable (checks : Checks)

/-- The checks of `install_with_options`, and the record that it inserts. -/
def PackageRegistry.admitInstall (r : PackageRegistry) (options : InstallOptions) :
    PackageRegistryResult PackageRecord := do
  let manifest := options.manifest
  let refuse := fun reason => withoutRecord manifest.name .install reason options.auditReason
  if manifest.name ∈ r.records then throw (refuse .alreadyInstalled)
  if manifest.source.isNone then throw (refuse .missingSource)
  if options.provenance.source = "" then throw (refuse .missingProvenance)
  if manifest.name = hubEventOwner then throw (refuse .reservedPackageName)
  (checks.validatePackageNamespace manifest.name).mapError (refuse <| .invalidPluginNamespace ·)
  (manifest.validateEventContracts checks).mapError (refuse <| .invalidEventContract ·)
  manifest.validatePresentation.mapError (refuse <| .invalidPresentation ·)
  let compatibility := PackageCompatibility.forManifest checks manifest
  if ¬compatibility.isCompatible then
    throw (refuse (.botsterCompatibility compatibility.diagnostics))
  pure
    { manifest
      state := .installed
      classification := .fromKind manifest.kind
      trust := options.trust
      provenance := options.provenance
      sourceMetadata := options.sourceMetadata
      pin := options.pin
      updatePolicy := .manual
      admittedCapabilities := []
      compatibility
      runnableEntrypoints := options.runnableEntrypoints
      sessionTypes := options.sessionTypes
      configuration := ∅
      lastAuditReason := options.auditReason
      admittedHostProfile := none
      quarantine := none }

def PackageRegistry.installWithOptions (r : PackageRegistry) (options : InstallOptions) :
    PackageRegistryResult PackageRecord × PackageRegistry :=
  r.commit do
    let record ← r.admitInstall checks options
    pure (record, r.insert options.manifest.name record)

def PackageRegistry.installWithTrust (r : PackageRegistry) (manifest : HubPackageManifest)
    (provenance : PackageProvenance) (trust : PackageTrust) (auditReason : String) :
    PackageRegistryResult PackageRecord × PackageRegistry :=
  r.installWithOptions checks { manifest, provenance, trust, auditReason }

end Install

structure LocalPackageManifest where
  manifest : HubPackageManifest
  runnableEntrypoints : List RunnableEntrypoint := []
  sessionTypes : List PackageSessionType := []

inductive EntrySource where
  | localPath (path : String)
  | git (repo : String) (branch tag rev : Option String)
  deriving DecidableEq

structure RegistryEntry where
  id : String
  firstParty : Bool := false
  source : EntrySource
  manifest : Option HubPackageManifest := none
  runnableEntrypoints : List RunnableEntrypoint := []
  sessionTypes : List PackageSessionType := []

structure CatalogFile where
  sourceId : String
  sourceKind : RegistrySourceKind
  entries : List RegistryEntry

/-- What the file system answers. A failed read or parse is an error with its text. -/
structure Disk where
  canonicalize : PathBuf → Except String PathBuf
  isDir : PathBuf → Bool
  isFile : PathBuf → Bool
  readManifest : PathBuf → Except String LocalPackageManifest
  readCatalog : PathBuf → Except String CatalogFile

def localPackageManifestFile : PathBuf := .ofText "botster-package.json"

def localPackageRegistryFile : PathBuf := .ofText "botster-registry.json"

structure LocalPackageSource where
  packageRoot : PathBuf
  manifestPath : PathBuf
  deriving DecidableEq

namespace LocalPackageSource

def resolve (disk : Disk) (path : PathBuf) (auditReason : String) :
    PackageRegistryResult LocalPackageSource := do
  let refuse := fun name reason => withoutRecord name .install reason auditReason
  if path = .empty then
    throw (refuse "<local-package>" (.unsafeLocalPath "local package path is empty"))
  let canonical ← (disk.canonicalize path).mapError (refuse path.display <| .unsafeLocalPath ·)
  if disk.isDir canonical then
    let manifestPath ← (disk.canonicalize (canonical.join localPackageManifestFile)).mapError
      (refuse canonical.display <| .invalidLocalManifest ·)
    if ¬manifestPath.startsWith canonical then
      throw (refuse canonical.display
        (.unsafeLocalPath "directory manifest resolves outside package root"))
    pure ⟨canonical, manifestPath⟩
  else
    match canonical.parent? with
    | none =>
      throw (refuse canonical.display (.unsafeLocalPath "manifest path has no package directory"))
    | some packageRoot => pure ⟨packageRoot, canonical⟩

def readManifest (disk : Disk) (source : LocalPackageSource) (auditReason : String) :
    PackageRegistryResult LocalPackageManifest :=
  (disk.readManifest source.manifestPath).mapError fun message =>
    withoutRecord source.manifestPath.display .install (.invalidLocalManifest message) auditReason

end LocalPackageSource

def canonicalEntrypointPath (disk : Disk) (packageRoot : PathBuf) (packageName : String)
    (auditReason entrypoint : String) : PackageRegistryResult Unit := do
  let refuse := fun message =>
    withoutRecord packageName .install (.unsafeEntrypoint message) auditReason
  let relative := PathBuf.ofText entrypoint
  if entrypoint = "" ∨ ¬relative.Descends then throw (refuse entrypoint)
  let entrypointPath ← (disk.canonicalize (packageRoot.join relative)).mapError refuse
  if ¬entrypointPath.startsWith packageRoot then
    throw (refuse "entrypoint resolves outside package root")

def LocalPackageSource.validateManifestEntrypoints (disk : Disk) (source : LocalPackageSource)
    (manifest : HubPackageManifest) (auditReason : String) : PackageRegistryResult Unit :=
  manifest.entrypoints.forM
    (canonicalEntrypointPath disk source.packageRoot manifest.name auditReason)

def validateRunnableEntrypoints (packageName : String) (entrypoints : List RunnableEntrypoint)
    (action : PackageAction) (auditReason : String) : PackageRegistryResult Unit :=
  (validateRunnableEntrypointContract entrypoints).mapError fun reason =>
    withoutRecord packageName action (.unsafeEntrypoint reason) auditReason

def validateRunnableEntrypointOutputs (disk : Disk) (packageName : String) (packageRoot : PathBuf)
    (entrypoints : List RunnableEntrypoint) (auditReason : String) : PackageRegistryResult Unit :=
  entrypoints.forM fun entrypoint => do
    let command := PathBuf.ofText entrypoint.command
    let output := packageRoot.join command
    if ¬(command.hasRoot = false ∧ command.components.length = 1) ∧ ¬disk.isFile output then
      throw (withoutRecord packageName .reload (.unsafeEntrypoint
          (s!"declared build output {output.display} is missing for local package at " ++
            s!"{packageRoot.display}; rebuild the package before running `botster-hub up` or " ++
            "`packages reload`"))
        auditReason)

def localProvenance (packageRoot : PathBuf) : PackageProvenance :=
  { source := "local:" ++ packageRoot.display }

def HubPackageManifest.at (manifest : HubPackageManifest) (packageRoot : PathBuf) :
    HubPackageManifest :=
  { manifest with source := some (.path packageRoot) }

section LocalInstall

variable (checks : Checks) (disk : Disk)

def localInstallOptions (path : PathBuf) (auditReason : String) :
    PackageRegistryResult InstallOptions := do
  let source ← LocalPackageSource.resolve disk path auditReason
  let content ← source.readManifest disk auditReason
  let manifest := content.manifest
  source.validateManifestEntrypoints disk manifest auditReason
  validateRunnableEntrypoints manifest.name content.runnableEntrypoints .install auditReason
  (validateSessionTypes content.sessionTypes).mapError fun reason =>
    withoutRecord manifest.name .install (.unsafeSessionType reason) auditReason
  pure
    { manifest := manifest.at source.packageRoot
      provenance := localProvenance source.packageRoot
      trust := .localDevelopment
      runnableEntrypoints := content.runnableEntrypoints
      sessionTypes := content.sessionTypes
      auditReason }

def PackageRegistry.installLocalPath (r : PackageRegistry) (path : PathBuf)
    (auditReason : String) : PackageRegistryResult PackageRecord × PackageRegistry :=
  match localInstallOptions disk path auditReason with
  | .ok options => r.installWithOptions checks options
  | .error error => (.error error, r)

structure Catalog where
  root : PathBuf
  file : CatalogFile

def Catalog.load (path : PathBuf) : PackageRegistryResult Catalog := do
  let refuse := fun reason => withoutRecord "<registry>" .show reason "load package registry"
  let source := if disk.isDir path then path.join localPackageRegistryFile else path
  let canonical ← (disk.canonicalize source).mapError (refuse <| .invalidLocalManifest ·)
  match canonical.parent? with
  | none => throw (refuse (.unsafeLocalPath "registry path has no parent directory"))
  | some root =>
    let file ← (disk.readCatalog canonical).mapError (refuse <| .invalidLocalManifest ·)
    pure ⟨root, file⟩

def Catalog.entry (catalog : Catalog) (entryId : String) : PackageRegistryResult RegistryEntry :=
  match catalog.file.entries.find? (·.id = entryId) with
  | some entry => .ok entry
  | none =>
    .error (withoutRecord entryId .show .packageNotInstalled "inspect registry package")

def EntrySource.kind : EntrySource → EntrySourceKind
  | .localPath _ => .localPath
  | .git .. => .git

def EntrySource.label (entryId : String) : EntrySource → String
  | .localPath _ => "local:" ++ entryId
  | .git repo .. => repo

def EntrySource.gitRepo : EntrySource → Option String
  | .localPath _ => none
  | .git repo .. => some repo

def PackageSourceMetadata.fromCatalogEntry (catalog : Catalog) (entry : RegistryEntry) :
    PackageSourceMetadata :=
  { registryId := catalog.file.sourceId
    registryKind := catalog.file.sourceKind
    entryId := entry.id
    sourceKind := entry.source.kind
    sourceLabel := entry.source.label entry.id
    gitRepo := entry.source.gitRepo }

def safeRegistryRelativePath (root : PathBuf) (value : String) : PackageRegistryResult PathBuf :=
  if (PathBuf.ofText value).Descends then .ok (root.join (.ofText value))
  else .error (withoutRecord value .show
    (.unsafeLocalPath "registry entry path must stay inside registry directory")
    "load package registry")

def gitPinRevision (branch tag rev : Option String) : PackageRegistryResult String :=
  match (rev.or tag).or branch with
  | some revision => .ok revision
  | none => .error (withoutRecord "<git-registry-entry>" .pin .missingPinRevision
      "load registry git package")

structure PreparedRegistryEntry where
  manifest : HubPackageManifest
  provenance : PackageProvenance
  runnableEntrypoints : List RunnableEntrypoint
  sessionTypes : List PackageSessionType
  pin : Option PackagePin

def registryProvenance (catalog : Catalog) (entry : RegistryEntry) : PackageProvenance :=
  { source := "registry:" ++ catalog.file.sourceId ++ ":" ++ entry.id }

/-- The branch of `from_catalog_entry` for an entry beside the registry. -/
def prepareLocalEntry (catalog : Catalog) (entry : RegistryEntry) (path : String) :
    PackageRegistryResult PreparedRegistryEntry := do
  let auditReason := "load registry local package"
  let absolute ← safeRegistryRelativePath catalog.root path
  let source ← LocalPackageSource.resolve disk absolute auditReason
  let content ← source.readManifest disk auditReason
  let manifest := content.manifest
  source.validateManifestEntrypoints disk manifest auditReason
  let runnableEntrypoints :=
    if entry.runnableEntrypoints = [] then content.runnableEntrypoints
    else entry.runnableEntrypoints
  let sessionTypes :=
    if entry.sessionTypes.isEmpty then content.sessionTypes else entry.sessionTypes
  validateRunnableEntrypoints manifest.name runnableEntrypoints .install auditReason
  (validateSessionTypes sessionTypes).mapError fun reason =>
    withoutRecord manifest.name .install (.unsafeSessionType reason) auditReason
  pure
    { manifest := manifest.at source.packageRoot
      provenance := registryProvenance catalog entry
      runnableEntrypoints
      sessionTypes
      pin := none }

/-- `from_catalog_entry` for a git entry. Entrypoints and session types are taken as given. -/
def prepareGitEntry (catalog : Catalog) (entry : RegistryEntry) (repo : String)
    (branch tag rev : Option String) : PackageRegistryResult PreparedRegistryEntry := do
  match entry.manifest with
  | none =>
    throw (withoutRecord entry.id .show
      (.invalidLocalManifest "git registry entry must include an inline manifest")
      "load registry git package")
  | some manifest =>
    let revision ← gitPinRevision branch tag rev
    pure
      { manifest := { manifest with source := some (.git repo revision) }
        provenance := registryProvenance catalog entry
        runnableEntrypoints := entry.runnableEntrypoints
        sessionTypes := entry.sessionTypes
        pin := some { revision, branch, tag, rev } }

def PreparedRegistryEntry.fromCatalogEntry (catalog : Catalog) (entry : RegistryEntry) :
    PackageRegistryResult PreparedRegistryEntry :=
  match entry.source with
  | .localPath path => prepareLocalEntry disk catalog entry path
  | .git repo branch tag rev => prepareGitEntry catalog entry repo branch tag rev

def registryInstallOptions (registryPath : PathBuf) (entryId auditReason : String) :
    PackageRegistryResult InstallOptions := do
  let catalog ← Catalog.load disk registryPath
  let entry ← catalog.entry entryId
  let prepared ← PreparedRegistryEntry.fromCatalogEntry disk catalog entry
  pure
    { manifest := prepared.manifest
      provenance := prepared.provenance
      trust := if entry.firstParty then .ofFirstParty else .thirdParty
      runnableEntrypoints := prepared.runnableEntrypoints
      sessionTypes := prepared.sessionTypes
      sourceMetadata := some (.fromCatalogEntry catalog entry)
      pin := prepared.pin
      auditReason }

def PackageRegistry.installRegistryEntry (r : PackageRegistry) (registryPath : PathBuf)
    (entryId auditReason : String) : PackageRegistryResult PackageRecord × PackageRegistry :=
  match registryInstallOptions disk registryPath entryId auditReason with
  | .ok options => r.installWithOptions checks options
  | .error error => (.error error, r)

end LocalInstall

/-- A package may always hold the plugin database of its own name, and never another one's. -/
def capabilityGranted (granted : CapabilitySet) (packageName : String) (capability : Capability) :
    Bool :=
  if capability.surface = .pluginDb then capability.scope = some packageName
  else capability ∈ granted.val

inductive HostProfileRefusal where
  | missing
  | admission (error : HostProfileAdmissionError)
  deriving DecidableEq

section Enable

variable (checks : Checks)

def admitEnabledHostProfile (manifest : HubPackageManifest)
    (classification : PackageClassification) :
    Except HostProfileRefusal (Option AdmittedHostProfile) :=
  match classification, manifest.hostProfile with
  | .plugin, none => .ok none
  | .provider, none => .error .missing
  | _, some _ => ((checks.admitHostProfile manifest).mapError .admission).map some

def HostProfileRefusal.reason : HostProfileRefusal → PackageAdmissionReason
  | .missing => .providerMissingHostProfile
  | .admission error => .hostProfileAdmission error

def capabilityRefusal (granted : CapabilitySet) (governed : List CapabilitySurface)
    (manifest : HubPackageManifest) : Option PackageAdmissionReason :=
  match manifest.capabilities.find? (·.surface ∉ governed) with
  | some capability => some (.ungovernedCapabilitySurface capability.surface)
  | none =>
    (manifest.capabilities.find? (!capabilityGranted granted manifest.name ·)).map
      .ungrantedCapability

/-- The checks of `enable`, and the record that it leaves. -/
def PackageRegistry.admitEnable (r : PackageRegistry) (name auditReason : String) :
    PackageRegistryResult PackageRecord := do
  let record ← r.record name .enable auditReason
  let refuse := fun reason => withRecord name .enable reason record auditReason
  let configuration := record.configurationView
  if configuration.diagnostics ≠ [] then
    throw (refuse (.invalidConfiguration configuration.diagnostics))
  if configuration.missingRequired ≠ [] then
    throw (refuse (.missingRequiredConfiguration configuration.missingRequired))
  match capabilityRefusal r.grantedCapabilities r.governedSurfaces record.manifest with
  | some reason => throw (refuse reason)
  | none =>
    let admittedHostProfile ←
      (admitEnabledHostProfile checks record.manifest record.classification).mapError
        (refuse ·.reason)
    pure
      { record with
        state := .enabled
        admittedCapabilities := record.manifest.capabilities
        lastAuditReason := auditReason
        admittedHostProfile }

def PackageRecord.decision (record : PackageRecord) (name : String) (action : PackageAction)
    (auditReason : String) : PackageDecision :=
  { packageName := name, action, state := record.state, classification := record.classification,
    admittedHostProfile := record.admittedHostProfile, auditReason }

def PackageRegistry.enable (r : PackageRegistry) (name auditReason : String) :
    PackageRegistryResult PackageDecision × PackageRegistry :=
  r.commit do
    let record ← r.admitEnable checks name auditReason
    pure (record.decision name .enable auditReason, r.insert name record)

end Enable

def PackageRegistry.disable (r : PackageRegistry) (name auditReason : String) :
    PackageRegistryResult PackageDecision × PackageRegistry :=
  r.commit do
    let record ← r.record name .disable auditReason
    let record :=
      { record with
        state := .disabled
        admittedCapabilities := []
        lastAuditReason := auditReason
        admittedHostProfile := none }
    pure (record.decision name .disable auditReason, r.insert name record)

def PackageRegistry.remove (r : PackageRegistry) (name auditReason : String) :
    PackageRegistryResult PackageDecision × PackageRegistry :=
  r.commit do
    let record ← r.record name .remove auditReason
    pure ({ record.decision name .remove auditReason with admittedHostProfile := none },
      { r with records := r.records.erase name })

def PackageRegistry.setPin (r : PackageRegistry) (name : String) (pin : PackagePin)
    (auditReason : String) : PackageRegistryResult PackageRecord × PackageRegistry :=
  r.commit do
    if pin.revision = "" then throw (withoutRecord name .pin .missingPinRevision auditReason)
    let record ← r.record name .pin auditReason
    let record :=
      { record with
        updatePolicy := pin.updatePolicy, pin := some pin, lastAuditReason := auditReason }
    pure (record, r.insert name record)

def configurationSchema (record : PackageRecord) : PackageRegistryResult ConfigurationSchema :=
  match record.manifest.configuration with
  | some schema => .ok schema
  | none =>
    .error (withRecord record.manifest.name .configure (.invalidConfiguration
        [⟨"schema_missing", none, "package does not declare configuration schema"⟩])
      record "configure package")

def PackageRegistry.setConfiguration (r : PackageRegistry) (name : String)
    (values : List (String × ConfigurationValue)) (auditReason : String) :
    PackageRegistryResult ConfigurationView × PackageRegistry :=
  r.commit do
    let record ← r.record name .configure auditReason
    let schema ← configurationSchema record
    let diagnostics := validateConfigurationValues record.manifest.name schema values
    if diagnostics ≠ [] then
      throw (withRecord name .configure (.invalidConfiguration diagnostics) record auditReason)
    let record :=
      { record with
        configuration := values.foldl
          (fun stored entry => stored.insert entry.1 (storedConfigurationValue entry.2))
          record.configuration
        lastAuditReason := auditReason }
    pure (record.configurationView, r.insert name record)

/-- `set_quarantine`; the answer says whether the package is installed. -/
def PackageRegistry.setQuarantine (r : PackageRegistry) (name : String)
    (quarantine : Option PackageQuarantine) : Bool × PackageRegistry :=
  match r.records.lookup name with
  | some record => (true, r.insert name { record with quarantine })
  | none => (false, r)

section Reload

variable (checks : Checks) (disk : Disk)

def contextualizeRefreshError (error : PackageRegistryError) (current : PackageRecord)
    (packageRoot : PathBuf) (auditReason : String) : PackageRegistryError :=
  let path := packageRoot.display
  let reason :=
    match error.reason with
    | .unsafeLocalPath message => .unsafeLocalPath
        s!"local package path {path} could not be refreshed: {message}"
    | .invalidLocalManifest message => .invalidLocalManifest
        s!"local package manifest at {path} could not be refreshed: {message}"
    | .unsafeEntrypoint message => .unsafeEntrypoint
        (s!"declared package entrypoint under {path} is missing or invalid: {message}; rebuild " ++
          "the package before running `botster-hub up` or `packages reload`")
    | reason => reason
  withRecord current.manifest.name .reload reason current auditReason

/-- The checks of `refresh_local_package_record`, without event contracts and presentation, and the
record inserted before enabling again. -/
def PackageRegistry.admitRefresh (r : PackageRegistry) (name auditReason : String) :
    PackageRegistryResult PackageRecord := do
  let current ← r.record name .reload auditReason
  let refuse := fun reason => withRecord name .reload reason current auditReason
  match current.root? with
  | none => throw (refuse (.unsafeLocalPath "package source is not a local path"))
  | some packageRoot =>
    let contextualize := fun error =>
      contextualizeRefreshError error current packageRoot auditReason
    let source ← (LocalPackageSource.resolve disk packageRoot auditReason).mapError contextualize
    let content ← (source.readManifest disk auditReason).mapError contextualize
    let manifest := content.manifest
    if manifest.name ≠ name then
      throw (refuse (.invalidLocalManifest
        (s!"reloaded package name {manifest.name} does not match installed package {name}")))
    (checks.validatePackageNamespace name).mapError (refuse <| .invalidPluginNamespace ·)
    (source.validateManifestEntrypoints disk manifest auditReason).mapError contextualize
    validateRunnableEntrypoints manifest.name content.runnableEntrypoints .reload auditReason
    validateRunnableEntrypointOutputs disk manifest.name source.packageRoot
      content.runnableEntrypoints auditReason
    (validateSessionTypes content.sessionTypes).mapError (refuse <| .unsafeSessionType ·)
    let manifest := manifest.at source.packageRoot
    let compatibility := PackageCompatibility.forManifest checks manifest
    if ¬compatibility.isCompatible then
      throw (refuse (.botsterCompatibility compatibility.diagnostics))
    pure
      { current with
        manifest
        classification := .fromKind manifest.kind
        admittedCapabilities := []
        compatibility
        runnableEntrypoints := content.runnableEntrypoints
        sessionTypes := content.sessionTypes
        lastAuditReason := auditReason
        admittedHostProfile := none }

/-- `refresh_local_package_record`. It leaves the new record also when enabling it fails. -/
def PackageRegistry.refreshLocalPackageRecord (r : PackageRegistry) (name auditReason : String) :
    PackageRegistryResult PackageDecision × PackageRegistry :=
  match r.admitRefresh checks disk name auditReason with
  | .error error => (.error error, r)
  | .ok record =>
    -- The state is the current record's, so this is whether the package was enabled.
    if record.isEnabled then
      match (r.insert name record).enable checks name auditReason with
      | (.error error, r') => (.error error, r')
      | (.ok decision, r') => (.ok { decision with action := .reload }, r')
    else (.ok (record.decision name .reload auditReason), r.insert name record)

/-- Packages are refreshed one after the other in one candidate. -/
def PackageRegistry.refreshEach (auditReason : String) : List String → PackageRegistry →
      PackageRegistryResult (PackageRegistry × List PackageDecision)
  | [], candidate => .ok (candidate, [])
  | name :: names, candidate =>
    match candidate.refreshLocalPackageRecord checks disk name auditReason with
    | (.error error, _) => .error error
    | (.ok decision, candidate) => do
        let (candidate, decisions) ← refreshEach auditReason names candidate
        pure (candidate, decision :: decisions)

def PackageRegistry.packages (r : PackageRegistry) : List PackageRecord :=
  (r.records.entriesAfter none).map (·.2)

def PackageRegistry.refreshedLocalPackagesWhere (r : PackageRegistry) (auditReason : String)
    (selected : PackageRecord → Bool) :
    PackageRegistryResult (PackageRegistry × List PackageDecision) :=
  refreshEach checks disk auditReason
    ((r.packages.filter fun record => isDirectLocalPathPackage record && selected record).map
      (·.manifest.name)) r

def PackageRegistry.refreshedLocalPackages (r : PackageRegistry) (auditReason : String) :
    PackageRegistryResult (PackageRegistry × List PackageDecision) :=
  r.refreshedLocalPackagesWhere checks disk auditReason fun _ => true

def PackageRegistry.refreshedUnquarantinedLocalPackages (r : PackageRegistry)
    (auditReason : String) : PackageRegistryResult (PackageRegistry × List PackageDecision) :=
  r.refreshedLocalPackagesWhere checks disk auditReason (·.quarantine.isNone)

/-- A refreshed copy; the registry itself is only read. -/
def PackageRegistry.refreshedLocalPackage (r : PackageRegistry) (name auditReason : String) :
    PackageRegistryResult (PackageRegistry × PackageDecision) := do
  let current ← r.record name .reload auditReason
  if ¬isDirectLocalPathPackage current then
    throw (withRecord name .reload
      (.unsafeLocalPath "package is not a directly installed local path package") current
      auditReason)
  match r.refreshLocalPackageRecord checks disk name auditReason with
  | (.error error, _) => throw error
  | (.ok decision, candidate) => pure (candidate, decision)

def PackageRegistry.reloadLocalPackage (r : PackageRegistry) (name auditReason : String) :
    PackageRegistryResult PackageDecision × PackageRegistry :=
  match r.refreshedLocalPackage checks disk name auditReason with
  | .ok (candidate, decision) => (.ok decision, candidate)
  | .error error => (.error error, r)

end Reload

structure PackageRegistrySnapshot where
  grantedCapabilities : List Capability
  governedSurfaces : List CapabilitySurface
  records : List PackageRecord

def PackageRegistry.snapshot (r : PackageRegistry) : PackageRegistrySnapshot :=
  { grantedCapabilities := r.grantedCapabilities.val
    governedSurfaces := r.governedSurfaces
    records := r.packages }

inductive SnapshotError where
  | duplicatePackage (packageName : String)
  | presentation (packageName reason : String)
  | botsterCompatibility (packageName : String) (diagnostics : List String)
  | capabilityAdmission (packageName : String) (reason : PackageAdmissionReason)
  | hostProfileAdmission (packageName : String) (error : HostProfileAdmissionError)
  | runnableEntrypoint (packageName reason : String)
  | sessionType (packageName reason : String)
  deriving DecidableEq

section Snapshot

variable (checks : Checks)

def HostProfileRefusal.error : HostProfileRefusal → HostProfileAdmissionError
  | .missing => .missingMetadata
  | .admission error => error

def admittedHostProfileFromSnapshot (record : PackageRecord) :
    Except SnapshotError (Option AdmittedHostProfile) :=
  if record.isEnabled then
    (admitEnabledHostProfile checks record.manifest record.classification).mapError
      (.hostProfileAdmission record.manifest.name ·.error)
  else .ok none

def admittedCapabilitiesFromSnapshot (granted : CapabilitySet)
    (governed : List CapabilitySurface) (record : PackageRecord) :
    Except SnapshotError (List Capability) :=
  if record.isEnabled then
    match capabilityRefusal granted governed record.manifest with
    | some reason => .error (.capabilityAdmission record.manifest.name reason)
    | none => .ok record.manifest.capabilities
  else .ok []

/-- The loop body of `from_snapshot`: a persisted record, checked, with its admission derived again.
-/
def restoreRecord (granted : CapabilitySet) (governed : List CapabilitySurface)
    (record : PackageRecord) : Except SnapshotError PackageRecord := do
  let name := record.manifest.name
  record.manifest.validatePresentation.mapError (.presentation name ·)
  let compatibility := PackageCompatibility.forManifest checks record.manifest
  if ¬compatibility.isCompatible then throw (.botsterCompatibility name compatibility.diagnostics)
  (validateRunnableEntrypointContract record.runnableEntrypoints).mapError
    (.runnableEntrypoint name ·)
  (validateSessionTypes record.sessionTypes).mapError (.sessionType name ·)
  let admittedHostProfile ← admittedHostProfileFromSnapshot checks record
  let admittedCapabilities ← admittedCapabilitiesFromSnapshot granted governed record
  pure { record with compatibility, admittedHostProfile, admittedCapabilities }

def restoreRecords (granted : CapabilitySet) (governed : List CapabilitySurface) :
    List PackageRecord → Dict String PackageRecord →
      Except SnapshotError (Dict String PackageRecord)
  | [], records => .ok records
  | record :: rest, records => do
      let restored ← restoreRecord checks granted governed record
      if record.manifest.name ∈ records then throw (.duplicatePackage record.manifest.name)
      restoreRecords granted governed rest (records.insert record.manifest.name restored)

def PackageRegistry.fromSnapshot (snapshot : PackageRegistrySnapshot) :
    Except SnapshotError PackageRegistry := do
  let granted := CapabilitySet.collect snapshot.grantedCapabilities
  let records ← restoreRecords checks granted snapshot.governedSurfaces snapshot.records ∅
  pure
    { records
      grantedCapabilities := granted
      governedSurfaces := snapshot.governedSurfaces }

end Snapshot

inductive Operation where
  | install (manifest : HubPackageManifest) (provenance : PackageProvenance)
      (trust : PackageTrust) (auditReason : String)
  | installLocalPath (disk : Disk) (path : PathBuf) (auditReason : String)
  | installRegistryEntry (disk : Disk) (registryPath : PathBuf) (entryId auditReason : String)
  | reload (disk : Disk) (name auditReason : String)
  | refresh (disk : Disk) (auditReason : String)
  | refreshUnquarantined (disk : Disk) (auditReason : String)
  | enable (name auditReason : String)
  | disable (name auditReason : String)
  | pin (name : String) (pin : PackagePin) (auditReason : String)
  | configure (name : String) (values : List (String × ConfigurationValue)) (auditReason : String)
  | quarantine (name : String) (quarantine : Option PackageQuarantine)
  | remove (name auditReason : String)

def plain {α : Type} (outcome : PackageRegistryResult α × PackageRegistry) :
    PackageRegistryResult Unit × PackageRegistry :=
  (outcome.1.map fun _ => (), outcome.2)

def PackageRegistry.adopt {α : Type} (r : PackageRegistry)
    (outcome : PackageRegistryResult (PackageRegistry × α)) :
    PackageRegistryResult Unit × PackageRegistry :=
  match outcome with
  | .ok (candidate, _) => (.ok (), candidate)
  | .error error => (.error error, r)

section Run

variable (checks : Checks)

def PackageRegistry.apply (r : PackageRegistry) :
    Operation → PackageRegistryResult Unit × PackageRegistry
  | .install manifest provenance trust auditReason =>
    plain (r.installWithTrust checks manifest provenance trust auditReason)
  | .installLocalPath disk path auditReason =>
    plain (r.installLocalPath checks disk path auditReason)
  | .installRegistryEntry disk registryPath entryId auditReason =>
    plain (r.installRegistryEntry checks disk registryPath entryId auditReason)
  | .reload disk name auditReason => plain (r.reloadLocalPackage checks disk name auditReason)
  | .refresh disk auditReason => r.adopt (r.refreshedLocalPackages checks disk auditReason)
  | .refreshUnquarantined disk auditReason =>
    r.adopt (r.refreshedUnquarantinedLocalPackages checks disk auditReason)
  | .enable name auditReason => plain (r.enable checks name auditReason)
  | .disable name auditReason => plain (r.disable name auditReason)
  | .pin name pin auditReason => plain (r.setPin name pin auditReason)
  | .configure name values auditReason => plain (r.setConfiguration name values auditReason)
  | .quarantine name quarantine => (.ok (), (r.setQuarantine name quarantine).2)
  | .remove name auditReason => plain (r.remove name auditReason)

def PackageRegistry.step (r : PackageRegistry) (operation : Operation) : PackageRegistry :=
  (r.apply checks operation).2

def PackageRegistry.run (r : PackageRegistry) (operations : List Operation) : PackageRegistry :=
  operations.foldl (·.step checks) r

end Run

end BotsterHub.Package
