import BotsterHub.Lib.Dict
import BotsterHub.Lib.Fallible
import BotsterHub.Lib.Path
import BotsterHub.Lib.Text

/-!
Session type definitions and the rules that admit them.

A definition comes from a package, from the device or from a repository. It names a command and a
working directory, both below the root of its source.
-/

namespace BotsterHub.SessionType

inductive Execution where
  | relativeExecutable
  | shellCommand
  deriving DecidableEq

inductive WorkingDirectory where
  | packageRoot
  | relative (path : String)
  deriving DecidableEq

structure PackageSessionType where
  id : String
  label : String
  description : Option String := none
  icon : Option String := none
  role : String
  interaction : String
  traits : List String := []
  lifecycle : String
  execution : Execution := .relativeExecutable
  command : String
  args : List String := []
  workingDirectory : WorkingDirectory := .packageRoot
  environment : Dict String String := ∅
  allowedEnvironmentOverrides : List String := []
  context : List String := []
  targetId : Option String := none

inductive ErrorKind where
  | invalidSessionType
  | invalidSessionTypeRole
  | invalidSessionTypeSemantics
  | invalidSessionTypeTraits
  | invalidSessionTypeCommand
  | invalidSessionTypePath
  | invalidEnvironment
  | invalidSessionTypes
  | invalidDeviceSessionTypes
  | invalidRepoSessionTypes
  | repoSessionTypesTooLarge
  | repoSessionTypeWriteFailed
  | readOnlySessionTypeSource
  | sessionTypeAlreadyExists
  | unknownSessionType
  | ambiguousSessionType
  | sessionTypeNotEligible
  | sessionTypeUnavailable
  | targetNotAdmitted
  | targetNotFound
  | cwdNotAdmitted
  | environmentNotAdmitted
  | credentialUnavailable
  deriving DecidableEq

structure SessionTypeError where
  kind : ErrorKind
  message : String
  deriving DecidableEq

abbrev SessionTypeResult := Except SessionTypeError

/-- The letters of a token. A letter outside of ASCII has none of the admitted bytes. -/
def isTokenLetter (c : Char) : Bool := c.isAlphanum || c == '.' || c == '_' || c == '-'

def boundedToken (value : String) (maximum : ℕ) (requireNamespace : Bool) : Bool :=
  value ≠ "" && value.utf8ByteSize ≤ maximum &&
    (!requireNamespace || Text.contains value '.') && value.toList.all isTokenLetter

def validateRelativeManifestPath (value label : String) : SessionTypeResult Unit :=
  if Text.isBlank value ∨ ¬(PathBuf.ofText value).Descends then
    .error ⟨.invalidSessionTypePath, "session type " ++ label ++ " is unsafe"⟩
  else .ok ()

def validEnvironmentName (name : String) : Bool :=
  name.toList.all (fun c => c == '_' || c.isAlphanum) && name.toList.head?.any (fun c => !c.isDigit)

def validateEnvironmentName (name : String) : SessionTypeResult Unit :=
  if validEnvironmentName name then .ok ()
  else .error ⟨.invalidEnvironment, "invalid environment variable name"⟩

variable (sessionType : PackageSessionType)

def validateCommand : SessionTypeResult Unit :=
  match sessionType.execution with
  | .relativeExecutable => validateRelativeManifestPath sessionType.command "command"
  | .shellCommand =>
    if Text.isBlank sessionType.command then
      .error ⟨.invalidSessionTypeCommand, "session type shell command must not be empty"⟩
    else .ok ()

def validateWorkingDirectory : SessionTypeResult Unit :=
  match sessionType.workingDirectory with
  | .packageRoot => .ok ()
  | .relative path => validateRelativeManifestPath path "working directory"

def validateSessionType : SessionTypeResult Unit := do
  if !boundedToken sessionType.id 128 false then
    throw ⟨.invalidSessionType,
      "session type id must be a non-empty token of at most 128 characters"⟩
  if Text.isBlank sessionType.label || sessionType.label.utf8ByteSize > 120 then
    throw ⟨.invalidSessionType, "session type label must be between 1 and 120 characters"⟩
  if sessionType.description.any (·.utf8ByteSize > 1024) ||
      sessionType.icon.any (·.utf8ByteSize > 256) then
    throw ⟨.invalidSessionType, "session type presentation metadata exceeds its size limit"⟩
  if !boundedToken sessionType.role 128 true then
    throw ⟨.invalidSessionTypeRole, "session type role must be a namespaced token"⟩
  if !boundedToken sessionType.interaction 64 false ||
      !boundedToken sessionType.lifecycle 64 false then
    throw ⟨.invalidSessionTypeSemantics,
      "session type interaction and lifecycle must be bounded tokens"⟩
  if sessionType.traits.length > 32 || sessionType.traits.any (!boundedToken · 128 false) ||
      !decide sessionType.traits.Nodup then
    throw ⟨.invalidSessionTypeTraits, "session type traits must be unique bounded tokens"⟩
  validateCommand sessionType
  validateWorkingDirectory sessionType
  sessionType.environment.keys.forM validateEnvironmentName
  sessionType.allowedEnvironmentOverrides.forM validateEnvironmentName

def validateFrom (seen : List String) : List PackageSessionType → Except String Unit
  | [] => .ok ()
  | sessionType :: sessionTypes => do
      (validateSessionType sessionType).mapError (·.message)
      if sessionType.id ∈ seen then throw "duplicate session type id"
      validateFrom (sessionType.id :: seen) sessionTypes

def validateSessionTypes (sessionTypes : List PackageSessionType) : Except String Unit :=
  validateFrom [] sessionTypes

theorem validateRelativeManifestPath_ok
    (h : validateRelativeManifestPath v l = .ok u) : (PathBuf.ofText v).Descends := by
  rw [validateRelativeManifestPath] at h
  split at h
  · cases h
  · next hc => exact not_not.mp (not_or.mp hc).2

structure Safe (sessionType : PackageSessionType) : Prop where
  id : boundedToken sessionType.id 128 false = true
  command : sessionType.execution = .relativeExecutable →
    (PathBuf.ofText sessionType.command).Descends
  workingDirectory : ∀ path, sessionType.workingDirectory = .relative path →
    (PathBuf.ofText path).Descends

theorem validateSessionType_ok {s : PackageSessionType}
    (h : validateSessionType s = .ok u) : Safe s := by
  simp only [validateSessionType, Except.guard_eq_ok, Except.bind_eq_ok] at h
  obtain ⟨hid, -, -, -, -, -, _, hc, _, hd, -⟩ := h
  refine ⟨by simpa using hid, fun he => ?_, fun path hp => ?_⟩
  · rw [validateCommand, he] at hc
    exact validateRelativeManifestPath_ok hc
  · rw [validateWorkingDirectory, hp] at hd
    exact validateRelativeManifestPath_ok hd

end BotsterHub.SessionType
