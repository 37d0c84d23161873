import BotsterHub.Package.Registry

/-!
What the operations of the registry do to its records. A success is a sequence of changes that
insert or remove one record each. A failure leaves the registry as it was, also where it has
worked on a copy before.
-/

namespace BotsterHub.Package

open List Option AList PackageRegistry Except

open SessionType (PackageSessionType validateSessionTypes)

variable {checks : Checks} {r r' : PackageRegistry}

theorem PackageRegistry.lookup_insert (r : PackageRegistry) (name o : String)
    (record : PackageRecord) : (r.insert name record).records.lookup o =
      if o = name then some record else r.records.lookup o :=
  lookup_insert_eq r.records name o record

variable {record : PackageRecord} {name auditReason : String}

theorem PackageRegistry.record_ok (h : r.record name a auditReason = .ok record) :
    r.records.lookup name = some record := by
  rw [PackageRegistry.record] at h
  split at h
  · next hl => rw [hl, ok.inj h]
  · cases h

structure Installed (checks : Checks) (options : InstallOptions) (record : PackageRecord) :
    Prop where
  manifest : record.manifest = options.manifest
  provenance : record.provenance = options.provenance
  runnableEntrypoints : record.runnableEntrypoints = options.runnableEntrypoints
  sessionTypes : record.sessionTypes = options.sessionTypes
  state : record.state = .installed
  admittedCapabilities : record.admittedCapabilities = []
  admittedHostProfile : record.admittedHostProfile = none
  source : record.manifest.source.isSome = true
  provenance_ne : record.provenance.source ≠ ""
  reserved : record.manifest.name ≠ hubEventOwner
  packageNamespace : checks.validatePackageNamespace record.manifest.name = .ok ()
  eventContracts : record.manifest.validateEventContracts checks = .ok ()
  presentation : record.manifest.validatePresentation = .ok ()
  compatibility : record.compatibility = .forManifest checks record.manifest
  compatible : record.compatibility.isCompatible = true

theorem PackageRegistry.admitInstall_ok
    (h : r.admitInstall checks o = .ok record) : Installed checks o record := by
  simp only [admitInstall, guard_eq_ok, bind_eq_ok, mapError_eq_ok] at h
  obtain ⟨-, hs, hprovenance, hr, _, hn, _, he, _, hp, hc, hrecord⟩ := h
  cases hrecord
  exact
    { manifest := rfl
      provenance := rfl
      runnableEntrypoints := rfl
      sessionTypes := rfl
      state := rfl
      admittedCapabilities := rfl
      admittedHostProfile := rfl
      source := by simpa [isSome_iff_ne_none] using hs
      provenance_ne := hprovenance
      reserved := hr
      packageNamespace := hn
      eventContracts := he
      presentation := hp
      compatibility := rfl
      compatible := not_not.mp hc }

theorem PackageRegistry.admitEnable_ok (h : r.admitEnable checks name auditReason = .ok record) :
    ∃ c p, r.records.lookup name = some c ∧
      capabilityRefusal r.grantedCapabilities r.governedSurfaces c.manifest = none ∧
      admitEnabledHostProfile checks c.manifest c.classification = .ok p ∧
      record = { c with
        state := .enabled
        admittedCapabilities := c.manifest.capabilities
        lastAuditReason := auditReason
        admittedHostProfile := p } := by
  simp only [admitEnable, guard_eq_ok, bind_eq_ok] at h
  obtain ⟨c, hc, -, -, h⟩ := h
  split at h
  · cases h
  next hr =>
  simp only [bind_eq_ok, mapError_eq_ok] at h
  obtain ⟨p, hp, hrecord⟩ := h
  exact ⟨c, p, record_ok hc, hr, hp, (ok.inj hrecord).symm⟩

def Reads (disk : Disk) (root : PathBuf) (auditReason : String) (source : LocalPackageSource)
    (content : LocalPackageManifest) : Prop :=
  LocalPackageSource.resolve disk root auditReason = .ok source ∧
    disk.readManifest source.manifestPath = .ok content

structure Refreshed (checks : Checks) (name auditReason : String) (current : PackageRecord)
    (source : LocalPackageSource) (content : LocalPackageManifest) (record : PackageRecord) :
    Prop where
  named : content.manifest.name = name
  packageNamespace : checks.validatePackageNamespace name = .ok ()
  runnableEntrypoints : validateRunnableEntrypointContract content.runnableEntrypoints = .ok ()
  sessionTypes : validateSessionTypes content.sessionTypes = .ok ()
  compatible : (PackageCompatibility.forManifest checks
    (content.manifest.at source.packageRoot)).isCompatible = true
  record_eq : record = { current with
    manifest := content.manifest.at source.packageRoot
    classification := .fromKind content.manifest.kind
    admittedCapabilities := []
    compatibility := .forManifest checks (content.manifest.at source.packageRoot)
    runnableEntrypoints := content.runnableEntrypoints
    sessionTypes := content.sessionTypes
    lastAuditReason := auditReason
    admittedHostProfile := none }

variable {disk : Disk}

theorem PackageRegistry.admitRefresh_ok
    (h : r.admitRefresh checks disk name auditReason = .ok record) :
    ∃ c root s content, r.records.lookup name = some c ∧
      c.root? = some root ∧ Reads disk root auditReason s content ∧
      Refreshed checks name auditReason c s content record := by
  simp only [admitRefresh, bind_eq_ok] at h
  obtain ⟨c, hcurrent, h⟩ := h
  split at h
  · cases h
  next root hroot =>
  simp only [bind_eq_ok, guard_eq_ok, mapError_eq_ok,
    LocalPackageSource.readManifest, validateRunnableEntrypoints] at h
  obtain ⟨s, hsource, content, hcontent, hname, _, hn, _, -, _, hr, _, -, _, hs, hc, hrecord⟩ := h
  exact ⟨c, root, s, content, record_ok hcurrent, hroot, ⟨hsource, hcontent⟩,
    { named := not_not.mp hname
      packageNamespace := hn
      runnableEntrypoints := hr
      sessionTypes := hs
      compatible := not_not.mp hc
      record_eq := (ok.inj hrecord).symm }⟩

theorem PackageRegistry.admitRefresh_congr (h : r.records.lookup name = r'.records.lookup name) :
    r.admitRefresh checks disk name auditReason = r'.admitRefresh checks disk name auditReason := by
  simp [admitRefresh, record, h]

/-- Only pin, update policy, configuration, quarantine and audit reason may differ. -/
structure Kept (record record' : PackageRecord) : Prop where
  manifest : record'.manifest = record.manifest
  state : record'.state = record.state
  classification : record'.classification = record.classification
  provenance : record'.provenance = record.provenance
  admittedCapabilities : record'.admittedCapabilities = record.admittedCapabilities
  compatibility : record'.compatibility = record.compatibility
  runnableEntrypoints : record'.runnableEntrypoints = record.runnableEntrypoints
  sessionTypes : record'.sessionTypes = record.sessionTypes
  admittedHostProfile : record'.admittedHostProfile = record.admittedHostProfile

inductive Change (checks : Checks) (clean : PackageRecord → Prop) (r : PackageRegistry) :
    PackageRegistry → Prop
  | install {options : InstallOptions} {record : PackageRecord}
      (h : r.admitInstall checks options = .ok record) (hclean : clean record) :
      Change checks clean r (r.insert options.manifest.name record)
  | refresh {disk : Disk} {name auditReason : String} {record : PackageRecord}
      (h : r.admitRefresh checks disk name auditReason = .ok record) (hclean : clean record)
      (hoff : record.isEnabled = false) : Change checks clean r (r.insert name record)
  | enableAgain {disk : Disk} {name auditReason : String} {record record' : PackageRecord}
      (h : r.admitRefresh checks disk name auditReason = .ok record) (hclean : clean record)
      (h' : (r.insert name record).admitEnable checks name auditReason = .ok record') :
      Change checks clean r (r.insert name record')
  | enable {name auditReason : String} {record : PackageRecord}
      (h : r.admitEnable checks name auditReason = .ok record) :
      Change checks clean r (r.insert name record)
  | disable {name auditReason : String} {record : PackageRecord}
      (h : r.records.lookup name = some record) :
      Change checks clean r (r.insert name { record with
        state := .disabled
        admittedCapabilities := []
        lastAuditReason := auditReason
        admittedHostProfile := none })
  | keep {name : String} {record record' : PackageRecord}
      (h : r.records.lookup name = some record) (hkept : Kept record record') :
      Change checks clean r (r.insert name record')
  | remove {name : String} : Change checks clean r { r with records := r.records.erase name }

abbrev Changes (checks : Checks) (clean : PackageRecord → Prop) :
    PackageRegistry → PackageRegistry → Prop :=
  Relation.ReflTransGen (Change checks clean)

def Outcome {α : Type} (checks : Checks) (clean : PackageRecord → Prop) (r : PackageRegistry)
    (outcome : PackageRegistryResult α × PackageRegistry) : Prop :=
  (∃ error, outcome = (.error error, r)) ∨
    ∃ answer r', outcome = (.ok answer, r') ∧ Changes checks clean r r'

variable {clean : PackageRecord → Prop}

section Operations

variable {α : Type} {outcome : PackageRegistryResult (α × PackageRegistry)}

theorem Outcome.commit (h : ∀ a r', outcome = .ok (a, r') → Changes checks clean r r') :
    Outcome checks clean r (r.commit outcome) := by
  cases ho : outcome with
  | error error => exact .inl ⟨error, rfl⟩
  | ok pair => exact .inr ⟨pair.1, pair.2, rfl, h _ _ ho⟩

theorem Outcome.plain {outcome : PackageRegistryResult α × PackageRegistry}
    (h : Outcome checks clean r outcome) : Outcome checks clean r (plain outcome) := by
  rcases h with ⟨e, rfl⟩ | ⟨answer, r', rfl, hc⟩
  · exact .inl ⟨e, rfl⟩
  · exact .inr ⟨(), r', rfl, hc⟩

theorem Outcome.adopt {outcome : PackageRegistryResult (PackageRegistry × α)}
    (h : ∀ r' a, outcome = .ok (r', a) → Changes checks clean r r') :
    Outcome checks clean r (r.adopt outcome) := by
  cases ho : outcome with
  | error error => exact .inl ⟨error, rfl⟩
  | ok pair => exact .inr ⟨(), pair.1, rfl, h _ _ ho⟩

theorem Outcome.replace (h : ∀ a r', outcome = .ok (a, r') → Change checks clean r r') :
    Outcome checks clean r (r.commit outcome) :=
  .commit fun a r' heq => .single (h a r' heq)

theorem installWithOptions_outcome
    (hc : ∀ record, r.admitInstall checks o = .ok record → clean record) :
    Outcome checks clean r (r.installWithOptions checks o) := by
  refine .replace fun answer r' h => ?_
  obtain ⟨record, hr, hp⟩ := bind_eq_ok.mp h
  cases hp
  exact .install hr (hc _ hr)

theorem prepared_outcome {options : PackageRegistryResult InstallOptions}
    (hc : ∀ o record, options = .ok o → r.admitInstall checks o = .ok record → clean record) :
    Outcome checks clean r (match options with
      | .ok options => r.installWithOptions checks options
      | .error e => (.error e, r)) := by
  cases ho : options with
  | error error => exact .inl ⟨error, rfl⟩
  | ok o => exact installWithOptions_outcome fun record => hc o record ho

section

variable (name auditReason : String)

theorem enable_outcome : Outcome checks clean r (r.enable checks name auditReason) := by
  refine .replace fun answer r' h => ?_
  obtain ⟨record, hr, hp⟩ := bind_eq_ok.mp h
  cases hp
  exact .enable hr

theorem disable_outcome : Outcome checks clean r (r.disable name auditReason) := by
  refine .replace fun answer r' h => ?_
  obtain ⟨record, hr, hp⟩ := bind_eq_ok.mp h
  cases hp
  exact .disable (record_ok hr)

theorem remove_outcome : Outcome checks clean r (r.remove name auditReason) := by
  refine .replace fun answer r' h => ?_
  obtain ⟨record, -, hp⟩ := bind_eq_ok.mp h
  cases hp
  exact .remove

end

theorem setPin_outcome (name : String) (pin : PackagePin) (auditReason : String) :
    Outcome checks clean r (r.setPin name pin auditReason) := by
  refine .replace fun answer r' h => ?_
  obtain ⟨-, h⟩ := guard_eq_ok.mp h
  obtain ⟨record, hr, hp⟩ := bind_eq_ok.mp h
  cases hp
  exact .keep (record_ok hr) (by constructor <;> rfl)

theorem setConfiguration_outcome (name : String) (v : List (String × ConfigurationValue))
    (auditReason : String) :
    Outcome checks clean r (r.setConfiguration name v auditReason) := by
  refine .replace fun answer r' h => ?_
  obtain ⟨record, hr, h⟩ := bind_eq_ok.mp h
  obtain ⟨_, -, h⟩ := bind_eq_ok.mp h
  obtain ⟨-, hp⟩ := guard_eq_ok.mp h
  cases hp
  exact .keep (record_ok hr) (by constructor <;> rfl)

theorem setQuarantine_changes (name : String) (q : Option PackageQuarantine) :
    Changes checks clean r (r.setQuarantine name q).2 := by
  rw [setQuarantine]
  split
  · next hr =>
    exact .single (.keep hr (by constructor <;> rfl))
  · exact .refl

variable {name auditReason : String}

theorem refreshLocalPackageRecord_ok
    (hc : ∀ record, r.admitRefresh checks disk name auditReason = .ok record → clean record)
    (h : r.refreshLocalPackageRecord checks disk name auditReason = (.ok d, r')) :
    Change checks clean r r' ∧ ∀ o, o ≠ name → r'.records.lookup o = r.records.lookup o := by
  rw [refreshLocalPackageRecord] at h
  split at h
  · cases h
  next record hr =>
  split at h
  · split at h
    · cases h
    next ha =>
    rw [enable] at ha
    cases he : (r.insert name record).admitEnable checks name auditReason with
    | error =>
      rw [he] at ha
      cases ha
    | ok record' =>
      rw [he] at ha
      cases ha
      cases h
      have ht : (r.insert name record).insert name record' = r.insert name record' := by
        simp [PackageRegistry.insert, insert_insert]
      refine ⟨ht ▸ .enableAgain hr (hc record hr) he, ?_⟩
      intro o ho
      rw [ht, PackageRegistry.lookup_insert, if_neg ho]
  · next hoff =>
    cases h
    refine ⟨.refresh hr (hc record hr) (by simpa using hoff), ?_⟩
    intro o ho
    rw [PackageRegistry.lookup_insert, if_neg ho]

theorem reloadLocalPackage_outcome
    (hc : ∀ record, r.admitRefresh checks disk name auditReason = .ok record → clean record) :
    Outcome checks clean r (r.reloadLocalPackage checks disk name auditReason) := by
  rw [reloadLocalPackage]
  split
  · next c d h =>
    refine .inr ⟨d, c, rfl, .single ?_⟩
    obtain ⟨_, -, h⟩ := bind_eq_ok.mp h
    obtain ⟨-, h⟩ := guard_eq_ok.mp h
    split at h
    · cases h
    next hr =>
    cases h
    exact (refreshLocalPackageRecord_ok hc hr).1
  · next e _ => exact .inl ⟨e, rfl⟩

theorem refreshEach_ok (hn : n.Nodup) (hclean : ∀ name ∈ n, ∀ record,
      candidate.admitRefresh checks disk name auditReason = .ok record → clean record)
    (h : refreshEach checks disk auditReason n candidate =
      .ok (candidate', d)) : Changes checks clean candidate candidate' := by
  induction n generalizing candidate d with
  | nil =>
    cases h
    exact .refl
  | cons name _ ih =>
    obtain ⟨hf, hn⟩ := nodup_cons.mp hn
    rw [refreshEach] at h
    split at h
    · cases h
    next hr =>
    obtain ⟨⟨final, rest⟩, hrest, hp⟩ := bind_eq_ok.mp h
    cases hp
    obtain ⟨hchange, hframe⟩ := refreshLocalPackageRecord_ok (hclean name mem_cons_self) hr
    refine .head hchange (ih hn ?_ hrest)
    intro o ho record hc
    have hne : o ≠ name := fun heq => hf (heq ▸ ho)
    rw [admitRefresh_congr (hframe o hne)] at hc
    exact hclean o (mem_cons_of_mem _ ho) record hc

end Operations

def Named (r : PackageRegistry) : Prop :=
  ∀ name record, r.records.lookup name = some record → record.manifest.name = name

theorem mem_packages : record ∈ r.packages ↔ ∃ name, r.records.lookup name = some record := by
  simp only [packages, entriesAfter, List.mem_map, List.mem_filterMap,
    mem_keysAfter, Option.map_eq_some_iff]
  constructor
  · rintro ⟨_, ⟨name, -, record', hl, rfl⟩, rfl⟩
    exact ⟨name, hl⟩
  rintro ⟨name, hl⟩
  exact ⟨(name, record), ⟨name, ⟨lookup_isSome.mp (by simp [hl]), past_none name⟩, record,
    hl, rfl⟩, rfl⟩

theorem Named.packages_nodup (h : Named r) : (r.packages.map (·.manifest.name)).Nodup := by
  have hk : r.packages.map (·.manifest.name) = (r.records.keysAfter none).filterMap fun name =>
        (r.records.lookup name).map fun _ => name := by
    simp only [packages, entriesAfter, map_filterMap]
    refine filterMap_congr fun name _ => ?_
    cases hl : r.records.lookup name with
    | none => rfl
    | some record => simp [h name record hl]
  rw [hk]
  refine Pairwise.filterMap _ ?_ ((keysAfter_pairwise r.records none).imp ne_of_lt)
  intro name name' hne other ho other' ho'
  obtain ⟨_, -, rfl⟩ := map_eq_some_iff.mp ho
  obtain ⟨_, -, rfl⟩ := map_eq_some_iff.mp ho'
  exact hne

theorem refreshedLocalPackagesWhere_changes (hn : Named r)
    (hclean : ∀ c ∈ r.packages, isDirectLocalPathPackage c = true → s c = true → ∀ record,
        r.admitRefresh checks disk c.manifest.name auditReason = .ok record → clean record)
    (h : r.refreshedLocalPackagesWhere checks disk auditReason s = .ok (r', d)) :
    Changes checks clean r r' := by
  refine refreshEach_ok ?_ ?_ h
  · exact hn.packages_nodup.sublist (filter_sublist.map _)
  intro name hname record hc
  obtain ⟨c, hcurrent, rfl⟩ := mem_map.mp hname
  obtain ⟨hm, hs⟩ := mem_filter.mp hcurrent
  obtain ⟨hd, hs⟩ := Bool.and_eq_true_iff.mp hs
  exact hclean c hm hd hs record hc

def Admits (checks : Checks) (r : PackageRegistry) (record : PackageRecord) : Operation → Prop
  | .install manifest provenance trust auditReason =>
    r.admitInstall checks { manifest, provenance, trust, auditReason } = .ok record
  | .installLocalPath disk path auditReason =>
    ∃ options, localInstallOptions disk path auditReason = .ok options ∧
      r.admitInstall checks options = .ok record
  | .installRegistryEntry disk registryPath entryId auditReason =>
    ∃ options, registryInstallOptions disk registryPath entryId auditReason = .ok options ∧
      r.admitInstall checks options = .ok record
  | .reload disk name auditReason => r.admitRefresh checks disk name auditReason = .ok record
  | .refresh disk auditReason =>
    ∃ current ∈ r.packages, isDirectLocalPathPackage current = true ∧
      r.admitRefresh checks disk current.manifest.name auditReason = .ok record
  | .refreshUnquarantined disk auditReason =>
    ∃ current ∈ r.packages, isDirectLocalPathPackage current = true ∧
      current.quarantine.isNone = true ∧
      r.admitRefresh checks disk current.manifest.name auditReason = .ok record
  | _ => False

theorem apply_outcome (hn : Named r) (operation : Operation)
    (hc : ∀ record, Admits checks r record operation → clean record) :
    Outcome checks clean r (r.apply checks operation) := by
  cases operation with
  | install =>
    exact (installWithOptions_outcome hc).plain
  | installLocalPath | installRegistryEntry =>
    exact (prepared_outcome fun o record ho h => hc record ⟨o, ho, h⟩).plain
  | reload => exact (reloadLocalPackage_outcome hc).plain
  | refresh =>
    exact .adopt fun r' decisions h => refreshedLocalPackagesWhere_changes hn
      (fun current hm hd _ record h => hc record ⟨current, hm, hd, h⟩) h
  | refreshUnquarantined =>
    exact .adopt fun r' decisions h => refreshedLocalPackagesWhere_changes hn
      (fun current hm hd hs record h => hc record ⟨current, hm, hd, hs, h⟩) h
  | enable name auditReason => exact (enable_outcome name auditReason).plain
  | disable name auditReason => exact (disable_outcome name auditReason).plain
  | pin name pin auditReason => exact (setPin_outcome name pin auditReason).plain
  | configure name values auditReason =>
    exact (setConfiguration_outcome name values auditReason).plain
  | quarantine name quarantine =>
    exact .inr ⟨(), _, rfl, setQuarantine_changes name quarantine⟩
  | remove name auditReason => exact (remove_outcome name auditReason).plain

theorem Outcome.unchanged {α : Type} {outcome : PackageRegistryResult α × PackageRegistry}
    (h : Outcome checks clean r outcome) {e : PackageRegistryError}
    (he : outcome.1 = .error e) : outcome.2 = r := by
  rcases h with ⟨_, rfl⟩ | ⟨answer, r', rfl, -⟩
  · rfl
  · cases he

/-- An operation changes the registry by the changes of `Change` only. -/
theorem step_changes (hn : Named r) (o : Operation)
    (hclean : ∀ record, Admits checks r record o → clean record) :
    Changes checks clean r (r.step checks o) := by
  rw [step]
  rcases apply_outcome hn o hclean with ⟨error, h⟩ | ⟨answer, r', h, hc⟩
  · rw [h]
  · rw [h]
    exact hc

end BotsterHub.Package
