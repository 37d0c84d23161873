import BotsterHub.Lib.Machine
import BotsterHub.Package.Grants

/-!
A registry can be restored from its own snapshot.

Restoring repeats some checks of installing. A refresh does not check the event contracts and the
presentation of the manifest that it reads, and an install of a git entry not the runnable
entrypoints and the session types.
-/

namespace BotsterHub.Package

open List AList PackageRegistry CapabilitySet Except

open SessionType (PackageSessionType validateSessionTypes)

variable {checks : Checks} {r r' : PackageRegistry} {record : PackageRecord}

structure Clean (checks : Checks) (record : PackageRecord) : Prop where
  eventContracts : record.manifest.validateEventContracts checks = .ok ()
  presentation : record.manifest.validatePresentation = .ok ()
  runnableEntrypoints : validateRunnableEntrypointContract record.runnableEntrypoints = .ok ()
  sessionTypes : validateSessionTypes record.sessionTypes = .ok ()

structure Installable (checks : Checks) (record : PackageRecord) : Prop extends
    Clean checks record where
  source : record.manifest.source.isSome = true
  provenance : record.provenance.source ≠ ""
  reserved : record.manifest.name ≠ hubEventOwner
  packageNamespace : checks.validatePackageNamespace record.manifest.name = .ok ()
  compatibility : record.compatibility = .forManifest checks record.manifest
  compatible : record.compatibility.isCompatible = true

def Standing (checks : Checks) (r : PackageRegistry) : Prop :=
  ∀ name record, r.records.lookup name = some record → Installable checks record

theorem Installable.congr (h : Installable checks record) (hm : record'.manifest = record.manifest)
    (hr : record'.runnableEntrypoints = record.runnableEntrypoints)
    (hs : record'.sessionTypes = record.sessionTypes)
    (hp : record'.provenance = record.provenance)
    (hc : record'.compatibility = record.compatibility) :
    Installable checks record' where
  eventContracts := hm ▸ h.eventContracts
  presentation := hm ▸ h.presentation
  runnableEntrypoints := hr ▸ h.runnableEntrypoints
  sessionTypes := hs ▸ h.sessionTypes
  source := hm ▸ h.source
  provenance := hp ▸ h.provenance
  reserved := hm ▸ h.reserved
  packageNamespace := hm ▸ h.packageNamespace
  compatibility := by rw [hc, hm, h.compatibility]
  compatible := hc ▸ h.compatible

variable {options : InstallOptions}

theorem Installed.installable (h : Installed checks options record)
    (hc : Clean checks record) : Installable checks record where
  toClean := hc
  source := h.source
  provenance := h.provenance_ne
  reserved := h.reserved
  packageNamespace := h.packageNamespace
  compatibility := h.compatibility
  compatible := h.compatible

variable {name auditReason : String}

theorem Refreshed.installable (h : Refreshed checks name auditReason current source content record)
    (hclean : Clean checks record) (hc : Installable checks current)
    (hn : current.manifest.name = name) : Installable checks record := by
  obtain rfl := h.record_eq
  have hs : content.manifest.name = current.manifest.name := h.named.trans hn.symm
  exact
    { toClean := hclean
      source := rfl
      provenance := hc.provenance
      reserved := fun heq => hc.reserved (hs.symm.trans heq)
      packageNamespace := (congrArg _ hs).trans hc.packageNamespace
      compatibility := rfl
      compatible := h.compatible }

theorem Standing.insert (h : Standing checks r)
    (hr : Installable checks record) : Standing checks (r.insert name record) := by
  intro o record' hl
  rw [lookup_insert] at hl
  split at hl
  · cases hl
    exact hr
  · exact h o record' hl

theorem Change.standing (hchange : Change checks (Clean checks) r r') (hn : Named r)
    (h : Standing checks r) : Standing checks r' := by
  cases hchange with
  | install hinstall hclean =>
    exact h.insert ((admitInstall_ok hinstall).installable hclean)
  | refresh hr hclean =>
    obtain ⟨c, root, s, content, hc, -, -, hrecord⟩ := admitRefresh_ok hr
    exact h.insert (hrecord.installable hclean (h _ _ hc) (hn _ _ hc))
  | enableAgain hr hclean he =>
    obtain ⟨c, root, s, content, hc, -, -, hrecord⟩ := admitRefresh_ok hr
    obtain ⟨inserted, -, hi, -, -, rfl⟩ := admitEnable_ok he
    rw [lookup_insert, if_pos rfl] at hi
    cases hi
    exact h.insert ((hrecord.installable hclean (h _ _ hc) (hn _ _ hc)).congr rfl rfl rfl rfl rfl)
  | enable he =>
    obtain ⟨c, -, hc, -, -, rfl⟩ := admitEnable_ok he
    exact h.insert ((h _ _ hc).congr rfl rfl rfl rfl rfl)
  | disable hl => exact h.insert ((h _ _ hl).congr rfl rfl rfl rfl rfl)
  | keep hl hk =>
    exact h.insert ((h _ _ hl).congr hk.manifest hk.runnableEntrypoints
      hk.sessionTypes hk.provenance hk.compatibility)
  | remove => exact fun o record hl => h o record (lookup_of_erase hl)

theorem Changes.standing (hc : Changes checks (Clean checks) r r')
    (ha : Admitted checks r) (h : Standing checks r) : Standing checks r' := by
  induction hc with
  | refl => exact h
  | tail hb hchange ih =>
    exact hchange.standing (Changes.admitted hb ha).named ih

def ReadsClean (checks : Checks) (disk : Disk) (r : PackageRegistry) (name auditReason : String) :
    Prop :=
  ∀ current root source content, r.records.lookup name = some current →
    current.root? = some root → Reads disk root auditReason source content →
    content.manifest.validateEventContracts checks = .ok () ∧
      content.manifest.validatePresentation = .ok ()

/-- Of a reload or refresh: the manifests read have valid event contracts and presentations. Of an
install of a git entry: its runnable entrypoints and session types are valid. -/
def CleanInput (checks : Checks) (r : PackageRegistry) : Operation → Prop
  | .installRegistryEntry disk registryPath entryId _ =>
    ∀ catalog entry, Catalog.load disk registryPath = .ok catalog →
      catalog.entry entryId = .ok entry → entry.source.kind = .git →
      validateRunnableEntrypointContract entry.runnableEntrypoints = .ok () ∧
        validateSessionTypes entry.sessionTypes = .ok ()
  | .reload disk name auditReason => ReadsClean checks disk r name auditReason
  | .refresh disk auditReason =>
    ∀ current ∈ r.packages, isDirectLocalPathPackage current = true →
      ReadsClean checks disk r current.manifest.name auditReason
  | .refreshUnquarantined disk auditReason =>
    ∀ current ∈ r.packages, isDirectLocalPathPackage current = true →
      current.quarantine.isNone = true → ReadsClean checks disk r current.manifest.name auditReason
  | _ => True

theorem validateNotices_at (m : HubPackageManifest) (root : PathBuf) (seen : List String)
    (n : List NoticeReaction) : validateNotices checks (m.at root) seen n =
      validateNotices checks m seen n := by
  induction n generalizing seen with
  | nil => rfl
  | cons _ _ ih =>
    simp only [validateNotices, ih]
    rfl

theorem validateEventContracts_at (m : HubPackageManifest) (root : PathBuf) :
    (m.at root).validateEventContracts checks = m.validateEventContracts checks := by
  simp only [HubPackageManifest.validateEventContracts, validateNotices_at]
  rfl

variable {disk : Disk}

theorem ReadsClean.clean (h : ReadsClean checks disk r name auditReason)
    (hc : r.admitRefresh checks disk name auditReason = .ok record) : Clean checks record := by
  obtain ⟨c, root, s, content, hcurrent, hroot, hreads, hr⟩ := admitRefresh_ok hc
  obtain ⟨he, hp⟩ := h c root s content hcurrent hroot hreads
  obtain rfl := hr.record_eq
  exact ⟨(validateEventContracts_at _ _).trans he, hp, hr.runnableEntrypoints, hr.sessionTypes⟩

theorem Installed.clean (h : Installed checks options record)
    (hr : validateRunnableEntrypointContract options.runnableEntrypoints = .ok ())
    (hs : validateSessionTypes options.sessionTypes = .ok ()) : Clean checks record :=
  ⟨h.eventContracts, h.presentation, h.runnableEntrypoints ▸ hr, h.sessionTypes ▸ hs⟩

theorem localInstallOptions_ok (h : localInstallOptions disk path auditReason = .ok options) :
    validateRunnableEntrypointContract options.runnableEntrypoints = .ok () ∧
      validateSessionTypes options.sessionTypes = .ok () := by
  simp only [localInstallOptions, bind_eq_ok, validateRunnableEntrypoints, mapError_eq_ok] at h
  obtain ⟨source, -, content, -, _, -, _, hr, _, hs, ho⟩ := h
  cases ho
  exact ⟨hr, hs⟩

variable {prepared : PreparedRegistryEntry} {entry : RegistryEntry}

theorem prepareLocalEntry_ok (h : prepareLocalEntry disk c entry path = .ok prepared) :
    validateRunnableEntrypointContract prepared.runnableEntrypoints = .ok () ∧
      validateSessionTypes prepared.sessionTypes = .ok () := by
  simp only [prepareLocalEntry, bind_eq_ok, validateRunnableEntrypoints, mapError_eq_ok] at h
  obtain ⟨_, -, source, -, content, -, _, -, _, hr, _, hs, hp⟩ := h
  cases hp
  exact ⟨hr, hs⟩

theorem prepareGitEntry_ok (h : prepareGitEntry c entry repo b tag rev = .ok prepared) :
    prepared.runnableEntrypoints = entry.runnableEntrypoints ∧
      prepared.sessionTypes = entry.sessionTypes := by
  rw [prepareGitEntry] at h
  split at h
  · cases h
  obtain ⟨_, -, hp⟩ := bind_eq_ok.mp h
  cases hp
  exact ⟨rfl, rfl⟩

theorem registryInstallOptions_ok (hi : ∀ c entry, Catalog.load disk registryPath = .ok c →
      c.entry e = .ok entry → entry.source.kind = .git →
      validateRunnableEntrypointContract entry.runnableEntrypoints = .ok () ∧
        validateSessionTypes entry.sessionTypes = .ok ())
    (h : registryInstallOptions disk registryPath e auditReason = .ok options) :
    validateRunnableEntrypointContract options.runnableEntrypoints = .ok () ∧
      validateSessionTypes options.sessionTypes = .ok () := by
  simp only [registryInstallOptions, bind_eq_ok] at h
  obtain ⟨c, hc, entry, he, prepared, hp, ho⟩ := h
  cases ho
  have hs := hi c entry hc he
  rw [PreparedRegistryEntry.fromCatalogEntry] at hp
  split at hp
  · exact prepareLocalEntry_ok hp
  next hg =>
  obtain ⟨hr, hsessions⟩ := prepareGitEntry_ok hp
  rw [hg] at hs
  exact ⟨hr ▸ (hs rfl).1, hsessions ▸ (hs rfl).2⟩

theorem CleanInput.clean (h : CleanInput checks r o)
    (ha : Admits checks r record o) : Clean checks record := by
  cases o with
  | install =>
    exact (admitInstall_ok ha).clean rfl rfl
  | installLocalPath =>
    obtain ⟨options, ho, hr⟩ := ha
    obtain ⟨hrunnable, hs⟩ := localInstallOptions_ok ho
    exact (admitInstall_ok hr).clean hrunnable hs
  | installRegistryEntry =>
    obtain ⟨options, ho, hr⟩ := ha
    obtain ⟨hrunnable, hs⟩ := registryInstallOptions_ok h ho
    exact (admitInstall_ok hr).clean hrunnable hs
  | reload => exact ReadsClean.clean h ha
  | refresh =>
    obtain ⟨c, hm, hd, hr⟩ := ha
    exact (h c hm hd).clean hr
  | refreshUnquarantined =>
    obtain ⟨c, hm, hd, hq, hr⟩ := ha
    exact (h c hm hd hq).clean hr
  | enable | disable | pin | configure | quarantine | remove => exact ha.elim

variable {governed : List CapabilitySurface} {granted : CapabilitySet}

theorem restoreRecord_self
    (h : Installable checks record) (ha : Admission checks granted governed record) :
    restoreRecord checks granted governed record = .ok record := by
  have hcompatible : (PackageCompatibility.forManifest checks record.manifest).isCompatible := by
    rw [← h.compatibility]
    exact h.compatible
  simp only [restoreRecord, h.presentation, h.runnableEntrypoints, h.sessionTypes,
    hcompatible, admittedHostProfileFromSnapshot, admittedCapabilitiesFromSnapshot]
  cases hs : record.isEnabled with
  | true =>
    obtain ⟨hc, hr, hp⟩ := ha.enabled hs
    simp only [hp, hr, ← hc, ← h.compatibility]
    rfl
  | false =>
    obtain ⟨hc, hp⟩ := ha.inactive hs
    simp only [← hc, ← hp, ← h.compatibility]
    rfl

theorem restoreRecords_self
    (hself : ∀ record ∈ p, restoreRecord checks granted governed record = .ok record)
    (hn : (p.map (·.manifest.name)).Nodup)
    (hf : ∀ record ∈ p, record.manifest.name ∉ s) :
    ∃ records, restoreRecords checks granted governed p s = .ok records ∧
      ∀ name record, records.lookup name = some record ↔
        s.lookup name = some record ∨ record ∈ p ∧ record.manifest.name = name := by
  induction p generalizing s with
  | nil => exact ⟨s, rfl, by simp⟩
  | cons head p ih =>
    obtain ⟨hh, hn⟩ := nodup_cons.mp hn
    have hnew : ∀ record ∈ p, record.manifest.name ∉ s.insert head.manifest.name head := by
      intro record hm hin
      rcases mem_insert s |>.mp hin with heq | hin
      · exact hh (mem_map.mpr ⟨record, hm, heq⟩)
      · exact hf record (mem_cons_of_mem _ hm) hin
    obtain ⟨records, hr, hl⟩ := ih (fun record hm => hself record (mem_cons_of_mem _ hm)) hn hnew
    refine ⟨records, ?_, fun name record => ?_⟩
    · rw [restoreRecords, hself head mem_cons_self]
      exact (guard_eq_ok).mpr ⟨hf head mem_cons_self, hr⟩
    rw [hl, lookup_insert_eq, mem_cons]
    have hnone : s.lookup head.manifest.name = none := lookup_eq_none.mpr (hf head mem_cons_self)
    by_cases hname : name = head.manifest.name
    · subst hname
      simp only [if_pos, Option.some.injEq, hnone]
      constructor
      · rintro (rfl | ⟨hm, heq⟩)
        · exact .inr ⟨.inl rfl, rfl⟩
        · exact .inr ⟨.inr hm, heq⟩
      rintro (hnot | ⟨rfl | hm, heq⟩)
      · cases hnot
      · exact .inl rfl
      · exact .inr ⟨hm, heq⟩
    · rw [if_neg hname]
      constructor
      · rintro (hs | ⟨hm, heq⟩)
        · exact .inl hs
        · exact .inr ⟨.inr hm, heq⟩
      rintro (hs | ⟨rfl | hm, heq⟩)
      · exact .inl hs
      · exact absurd heq.symm hname
      · exact .inr ⟨hm, heq⟩

structure Same (r r' : PackageRegistry) : Prop where
  records : ∀ name, r.records.lookup name = r'.records.lookup name
  grantedCapabilities : r.grantedCapabilities = r'.grantedCapabilities
  governedSurfaces : r.governedSurfaces = r'.governedSurfaces

theorem CapabilitySet.collect_val (c : CapabilitySet) : collect c.val = c :=
  Subtype.ext (dedup_eq_self.mpr c.property)

theorem fromSnapshot_snapshot (ha : Admitted checks r) (h : Standing checks r) :
    ∃ restored, fromSnapshot checks r.snapshot = .ok restored ∧ Same restored r := by
  have hs : ∀ record ∈ r.packages,
      restoreRecord checks (.collect r.grantedCapabilities.val) r.governedSurfaces record =
        .ok record := by
    intro record hm
    obtain ⟨name, hl⟩ := mem_packages.mp hm
    rw [collect_val]
    exact restoreRecord_self (h name record hl) (ha name record hl).2
  have hf : ∀ record ∈ r.packages, record.manifest.name ∉ (∅ : Dict String PackageRecord) :=
    fun record _ => notMem_empty _
  obtain ⟨records, hrecords, hl⟩ := restoreRecords_self hs ha.named.packages_nodup hf
  refine ⟨⟨records, .collect r.grantedCapabilities.val, r.governedSurfaces⟩, ?_, ?_,
    collect_val _, rfl⟩
  · rw [fromSnapshot]
    exact bind_eq_ok.mpr ⟨records, hrecords, rfl⟩
  intro name
  refine Option.ext fun record => ?_
  rw [hl, lookup_empty, mem_packages]
  constructor
  · rintro (hnot | ⟨⟨o, ho⟩, hn⟩)
    · cases hnot
    · rwa [← hn, ha.named o record ho]
  · intro hr
    exact .inr ⟨⟨name, hr⟩, ha.named name record hr⟩

/-- The registry can be restored from its snapshot, its records pass the checks of an install, and a
failed operation leaves it unchanged. -/
structure Restorable (checks : Checks) (r : PackageRegistry) : Prop where
  restored : ∃ restored, PackageRegistry.fromSnapshot checks r.snapshot = .ok restored ∧
    Same restored r
  installable : ∀ name record, r.records.lookup name = some record → Installable checks record
  unchanged : ∀ operation error, (r.apply checks operation).1 = .error error →
    (r.apply checks operation).2 = r

abbrev CleanRun (checks : Checks) (r : PackageRegistry) (operations : List Operation) : Prop :=
  Machine.Along (fun r operation => some (r.step checks operation)) (CleanInput checks) r operations

theorem Standing.run (ha : Admitted checks r) (h : Standing checks r)
    (hclean : CleanRun checks r o) :
    Standing checks (r.run checks o) := by
  induction o generalizing r with
  | nil => exact h
  | cons operation _ ih =>
    obtain ⟨hi, hr⟩ := hclean
    have hc := step_changes ha.named operation fun _ => hi.clean
    exact ih (ha.step operation) (hc.standing ha h) (hr _ rfl)

/-- In every run with clean input, the registry that is reached can be restored. -/
theorem run_restorable (checks : Checks) (granted : CapabilitySet)
    (governed : List CapabilitySurface) (operations : List Operation)
    (h : CleanRun checks (.new granted governed) operations) :
    Restorable checks ((PackageRegistry.new granted governed).run checks operations) := by
  have hadmitted := (admitted_new checks granted governed).run operations
  have hstanding : Standing checks ((new granted governed).run checks operations) := by
    refine Standing.run (admitted_new checks granted governed) (fun name record hlookup => ?_) h
    rw [new, lookup_empty] at hlookup
    cases hlookup
  refine ⟨fromSnapshot_snapshot hadmitted hstanding, hstanding, fun operation error herror => ?_⟩
  have houtcome : Outcome checks (fun _ => True) _ _ :=
    apply_outcome hadmitted.named operation fun _ _ => trivial
  exact houtcome.unchanged herror

def plainReload : List Operation :=
  [.installLocalPath (diskOf { manifest := notesManifest [⟨.timers, none⟩] }) notesPath "install",
    .enable "notes" "enable",
    .reload (diskOf { manifest := notesManifest [⟨.timers, none⟩] }) "notes" "reload"]

theorem run_restorable_plainReload :
    CleanRun openChecks (.new (.collect [⟨.timers, none⟩]) [.timers]) plainReload ∧
      Restorable openChecks ((PackageRegistry.new (.collect [⟨.timers, none⟩]) [.timers]).run
        openChecks plainReload) := by
  have hclean : CleanRun openChecks (.new (.collect [⟨.timers, none⟩]) [.timers]) plainReload := by
    refine ⟨trivial, fun _ _ => ⟨trivial, fun _ _ => ⟨?_, fun _ _ => trivial⟩⟩⟩
    intro current root source content hcurrent hroot hreads
    cases hreads.2
    exact ⟨rfl, rfl⟩
  exact ⟨hclean, run_restorable openChecks _ _ _ hclean⟩

/-!
### Registries that cannot be restored

A reload takes a manifest that names one surface twice, and a git install a session type whose
command lies outside the package.
-/

def doubledSurface : List Operation :=
  [.installLocalPath (diskOf { manifest := notesManifest [] }) notesPath "install",
    .reload (diskOf { manifest := { notesManifest [] with
      surfaces := [{ id := "main" }, { id := "main" }] } }) "notes" "reload"]

def outsideCommand : PackageSessionType :=
  { id := "shell", label := "Shell", role := "botster.shell", interaction := "terminal",
    lifecycle := "task", command := "../outside" }

def gitEntry : RegistryEntry :=
  { id := "notes", source := .git "notes.git" none none (some "main"),
    manifest := some (notesManifest []), sessionTypes := [outsideCommand] }

def catalogDisk : Disk :=
  { diskOf { manifest := notesManifest [] } with
    readCatalog := fun _ => .ok ⟨"catalog", .localPath, [gitEntry]⟩ }

def gitInstall : List Operation :=
  [.installRegistryEntry catalogDisk (.ofText "/srv/registry") "notes" "install"]

theorem unrestorable_registries :
    (PackageRegistry.fromSnapshot openChecks ((PackageRegistry.new (.collect []) []).run openChecks
      doubledSurface).snapshot).toOption.isNone = true ∧
    (PackageRegistry.fromSnapshot openChecks ((PackageRegistry.new (.collect []) []).run openChecks
      gitInstall).snapshot).toOption.isNone = true := by
  decide +kernel

end BotsterHub.Package
