import BotsterHub.SessionType.Spawn

/-!
Sessions start inside their roots.

The paths of a definition never go up. The directory that a request asks for is compared with the
root without resolving its components: one that goes up from the root passes.
-/

namespace BotsterHub.SessionType

open Package (PackageRecord)

/-- The root of the target a session is spawned at, or else of the source of its definition. -/
def admittedRoot (config : MaterializationConfig) (source : SourceSessionType)
    (target : Option SpawnTarget) : PathBuf :=
  (target.map (·.root)).getD (anchoredRoot config source.root)

/-- The session starts in or below its root, and a relative executable lies below its source's root.
-/
structure Contained (config : MaterializationConfig) (source : SourceSessionType)
    (target : Option SpawnTarget) (spawnRequest : SpawnRequest) : Prop where
  workingDirectory : (admittedRoot config source target).Inside spawnRequest.workingDirectory
  executable : source.sessionType.execution = .relativeExecutable →
    ∃ path, spawnRequest.executable = .path path ∧ (anchoredRoot config source.root).Below path

/-- A requested directory is below an absolute root and comes back to it behind every step up, and a
relative executable names something. -/
structure StaysInside (config : MaterializationConfig) (source : SourceSessionType)
    (target : Option SpawnTarget) (request : SessionTypeRequest) : Prop where
  cwd : ∀ cwd, request.cwd = some cwd → (admittedRoot config source target).hasRoot = true ∧
    (admittedRoot config source target).ReturnsTo (.ofText cwd)
  command : source.sessionType.execution = .relativeExecutable →
    (PathBuf.ofText source.sessionType.command).components.filterMap PathBuf.name? ≠ []

theorem inside_resolveWorkingDirectory (h : Safe sessionType)
    (root : PathBuf) : root.Inside (resolveWorkingDirectory root sessionType) := by
  rw [resolveWorkingDirectory]
  split
  · exact root.inside_self
  · next path hp => exact PathBuf.inside_join (h.workingDirectory path hp)

theorem chooseWorkingDirectory_default
    (h : chooseWorkingDirectory root sessionType none = .ok workingDirectory) :
    workingDirectory = resolveWorkingDirectory root sessionType := by
  simp only [chooseWorkingDirectory, pure_bind, Except.guard_eq_ok] at h
  exact (Except.ok.inj h.2).symm

theorem chooseWorkingDirectory_requested
    (h : chooseWorkingDirectory root sessionType (some cwd) = .ok workingDirectory) :
    workingDirectory = .ofText cwd ∧ workingDirectory.hasRoot = true ∧
      workingDirectory.startsWith root = true := by
  simp only [chooseWorkingDirectory, Except.bind_eq_ok, Except.guard_eq_ok] at h
  obtain ⟨hp, path, hpath, -, hd⟩ := h
  cases hpath
  cases hd
  simp only [not_or, not_not] at hp
  exact ⟨rfl, hp.1, hp.2⟩

theorem inside_chooseWorkingDirectory_iff (hsafe : Safe sessionType)
    (h : chooseWorkingDirectory root sessionType cwd = .ok workingDirectory) :
    root.Inside workingDirectory ↔
      ∀ text, cwd = some text → root.hasRoot = true ∧ root.ReturnsTo (.ofText text) := by
  cases cwd with
  | none =>
    obtain rfl := chooseWorkingDirectory_default h
    exact iff_of_true (inside_resolveWorkingDirectory hsafe root) nofun
  | some text =>
    obtain ⟨rfl, hroot, hs⟩ := chooseWorkingDirectory_requested h
    rw [PathBuf.inside_iff_of_startsWith hroot hs]
    constructor
    · rintro hr _ heq
      cases heq
      exact hr
    · exact fun ha => ha text rfl

theorem below_resolveExecution_iff (hs : Safe sessionType)
    (config : MaterializationConfig) (root : PathBuf)
    (he : sessionType.execution = .relativeExecutable) :
    (∃ path, (resolveExecution config root sessionType).1 = .path path ∧ root.Below path) ↔
      (PathBuf.ofText sessionType.command).components.filterMap PathBuf.name? ≠ [] := by
  rw [← PathBuf.below_join_iff (hs.command he), resolveExecution, he]
  constructor
  · rintro ⟨path, hp, hb⟩
    cases hp
    exact hb
  · exact fun hb => ⟨_, rfl, hb⟩

variable {process : Process} {config : MaterializationConfig} {entropy : Option Credential}
  {sessionType : PackageSessionType} {root workingDirectory : PathBuf}

theorem materializeFromResolved_ok {r : SessionTypeRequest} {s : SourceSessionType}
    {row : HubSessionType} {m : MaterializedSessionType}
    (h : materializeFromResolved process config entropy r s row t = .ok m) :
    Safe s.sessionType ∧ chooseWorkingDirectory (admittedRoot config s t) s.sessionType r.cwd =
        .ok m.spawnRequest.workingDirectory ∧
      m.spawnRequest.executable =
        (resolveExecution config (anchoredRoot config s.root) s.sessionType).1 := by
  simp only [materializeFromResolved, Except.guard_eq_ok, Except.bind_eq_ok] at h
  obtain ⟨-, _, hv, directory, hd, environment, -, h⟩ := h
  cases entropy with
  | none => cases h
  | some =>
    cases h
    exact ⟨validateSessionType_ok hv, hd, rfl⟩

/-- A materialized session stays inside its roots exactly if the requested directory comes back to
the root and the command names a file. -/
theorem materialize_contained_iff (process : Process) (config : MaterializationConfig)
    (entropy : Option Credential) (repos : Repositories) (records : List PackageRecord)
    (state : HubState) (sessionTypeId : String) (request : SessionTypeRequest)
    (materialized : MaterializedSessionType)
    (h : materializeSessionType process config entropy repos records state sessionTypeId request =
      .ok materialized) :
    ∃ source row target,
      resolveMaterializationSource repos records state sessionTypeId request.targetId =
        .ok (source, row, target) ∧
      (Contained config source target materialized.spawnRequest ↔
        StaysInside config source target request) := by
  obtain ⟨⟨source, row, target⟩, hresolve, hmaterialized⟩ := Except.bind_eq_ok.mp h
  obtain ⟨hsafe, hdirectory, hexecutable⟩ := materializeFromResolved_ok hmaterialized
  have hcwd := inside_chooseWorkingDirectory_iff hsafe hdirectory
  have hcommand := below_resolveExecution_iff hsafe config (anchoredRoot config source.root)
  refine ⟨source, row, target, hresolve, ?_⟩
  constructor
  · rintro ⟨hinside, hbelow⟩
    refine ⟨hcwd.mp hinside, fun hexec => (hcommand hexec).mp ?_⟩
    rw [← hexecutable]
    exact hbelow hexec
  · rintro ⟨hreturns, hnames⟩
    refine ⟨hcwd.mpr hreturns, fun hexec => ?_⟩
    rw [hexecutable]
    exact (hcommand hexec).mpr (hnames hexec)

def runSessionType : PackageSessionType :=
  { id := "run", label := "Run", role := "botster.run", interaction := "terminal",
    lifecycle := "task", command := "bin/run" }

def exampleState : HubState where
  deviceSessionTypeSources := [⟨.ofText "/var/hub/session-types", [runSessionType]⟩]
  spawnTargets := [{ targetId := "app", root := .ofText "/srv/app" }]

def emptyRepositories : Repositories where
  file _ := .missing

def exampleProcess : Process := ⟨.ofText "/", none, []⟩

def exampleConfig : MaterializationConfig :=
  { dataDirectory := .ofText "/var/hub", shell := "/bin/sh", initialRows := 24, initialCols := 80 }

def spawnIn (cwd : String) : SessionTypeResult MaterializedSessionType :=
  materializeSessionType exampleProcess exampleConfig (some ⟨"00", "ff"⟩) emptyRepositories []
    exampleState "run" { targetId := some "app", cwd := some cwd }

theorem spawnIn_contained_iff : ∃ materialized, spawnIn "/srv/app/logs" = .ok materialized ∧
      ∃ source row target,
        resolveMaterializationSource emptyRepositories [] exampleState "run" (some "app") =
          .ok (source, row, target) ∧
        (Contained exampleConfig source target materialized.spawnRequest ↔
          StaysInside exampleConfig source target
            { targetId := some "app", cwd := some "/srv/app/logs" }) := by
  have hsome : (spawnIn "/srv/app/logs").toOption.isSome = true := by decide +kernel
  cases h : spawnIn "/srv/app/logs" with
  | error =>
    rw [h] at hsome
    cases hsome
  | ok materialized =>
    exact ⟨materialized, rfl, materialize_contained_iff _ _ _ _ _ _ _ _ _ h⟩

/-- A directory that goes up from the root is admitted, and the session starts outside. -/
theorem spawn_leaves_root :
    (spawnIn "/srv/app/../../etc").toOption.map (·.spawnRequest.workingDirectory) =
        some (.ofText "/srv/app/../../etc") ∧
      ¬(PathBuf.ofText "/srv/app").Inside (.ofText "/srv/app/../../etc") := by
  refine ⟨by decide +kernel, fun hinside => ?_⟩
  exact absurd (hinside []) (by decide +kernel)

end BotsterHub.SessionType
