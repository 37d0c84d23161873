import BotsterHub.Package.Records

/-!
No package holds a capability that it was not granted. What is admitted is decided at enabling, at
reading a manifest and at restoring; a manifest that asks for more is refused before it replaces
the old one.
-/

namespace BotsterHub.Package

open List AList PackageRegistry PackageRecord Except

open SessionType (PackageSessionType validateSessionTypes)

variable {checks : Checks} {r r' : PackageRegistry} {clean : PackageRecord → Prop}

/-- Its surface is governed, and it is a grant of the host or the package's own plugin database. -/
def MayHold (granted : CapabilitySet) (governed : List CapabilitySurface) (packageName : String)
    (capability : Capability) : Prop :=
  capability.surface ∈ governed ∧ (capability ∈ granted.val ∨
      capability.surface = .pluginDb ∧ capability.scope = some packageName)

variable {governed : List CapabilitySurface} {granted : CapabilitySet}

theorem capabilityRefusal_eq_none : capabilityRefusal granted governed m = none ↔
      ∀ capability ∈ m.capabilities, capability.surface ∈ governed ∧
        capabilityGranted granted m.name capability = true := by
  rw [capabilityRefusal]
  split
  · next capability hf =>
    refine iff_of_false (by simp) fun ha => ?_
    have hu := find?_some hf
    exact absurd (ha capability (mem_of_find?_eq_some hf)).1 (by simpa using hu)
  · next hf =>
    rw [find?_eq_none] at hf
    rw [Option.map_eq_none_iff, find?_eq_none]
    constructor
    · intro hg capability hm
      exact ⟨by simpa using hf capability hm, by simpa using hg capability hm⟩
    · intro ha capability hm
      simpa using (ha capability hm).2

variable {capability : Capability}

theorem MayHold.of_granted (hg : capability.surface ∈ governed)
    (h : capabilityGranted granted p capability = true) :
    MayHold granted governed p capability := by
  refine ⟨hg, ?_⟩
  rw [capabilityGranted] at h
  split at h
  · next hs => exact .inr ⟨hs, by simpa using h⟩
  · exact .inl (by simpa using h)

/-- What is admitted of an enabled package is what its manifest asks for, of another one nothing. -/
structure Admission (checks : Checks) (granted : CapabilitySet)
    (governed : List CapabilitySurface) (record : PackageRecord) : Prop where
  enabled : record.isEnabled = true → record.admittedCapabilities = record.manifest.capabilities ∧
      capabilityRefusal granted governed record.manifest = none ∧
      admitEnabledHostProfile checks record.manifest record.classification =
        .ok record.admittedHostProfile
  inactive : record.isEnabled = false →
    record.admittedCapabilities = [] ∧ record.admittedHostProfile = none

def Admitted (checks : Checks) (r : PackageRegistry) : Prop :=
  ∀ name record, r.records.lookup name = some record → record.manifest.name = name ∧
    Admission checks r.grantedCapabilities r.governedSurfaces record

theorem Admitted.named (h : Admitted checks r) : Named r :=
  fun name record hl => (h name record hl).1

variable {granted : CapabilitySet} {governed : List CapabilitySurface} {record : PackageRecord}

theorem Admission.of_inactive (ho : record.isEnabled = false)
    (hc : record.admittedCapabilities = [])
    (hp : record.admittedHostProfile = none) :
    Admission checks granted governed record :=
  ⟨fun hon => absurd hon (by simp [ho]), fun _ => ⟨hc, hp⟩⟩

theorem Admission.congr (h : Admission checks granted governed record)
    (hk : Kept record record') : Admission checks granted governed record' := by
  have hs : record'.isEnabled = record.isEnabled := by rw [isEnabled, isEnabled, hk.state]
  constructor
  · rw [hs, hk.admittedCapabilities, hk.manifest, hk.classification, hk.admittedHostProfile]
    exact h.enabled
  · rw [hs, hk.admittedCapabilities, hk.admittedHostProfile]
    exact h.inactive

theorem Admitted.insert (h : Admitted checks r) (hn : record.manifest.name = name)
    (hr : Admission checks r.grantedCapabilities r.governedSurfaces record) :
    Admitted checks (r.insert name record) := by
  intro o record' hl
  rw [lookup_insert] at hl
  split at hl
  · next heq =>
    cases hl
    exact ⟨hn.trans heq.symm, hr⟩
  · exact h o record' hl

variable {name auditReason : String}

theorem admitEnable_admission (h : r.admitEnable checks name auditReason = .ok record) :
    ∃ c, r.records.lookup name = some c ∧ record.manifest = c.manifest ∧
      Admission checks r.grantedCapabilities r.governedSurfaces record := by
  obtain ⟨c, profile, hc, hr, hp, rfl⟩ := admitEnable_ok h
  exact ⟨c, hc, rfl, fun _ => ⟨rfl, hr, hp⟩, nofun⟩

theorem Change.admitted (hchange : Change checks clean r r') (h : Admitted checks r) :
    Admitted checks r' := by
  cases hchange with
  | install hinstall =>
    have hr := admitInstall_ok hinstall
    refine h.insert (by rw [hr.manifest]) (.of_inactive ?_ hr.admittedCapabilities
      hr.admittedHostProfile)
    rw [isEnabled, hr.state]
    rfl
  | refresh hrefresh _ ho =>
    obtain ⟨c, root, s, content, -, -, -, hr⟩ := admitRefresh_ok hrefresh
    obtain rfl := hr.record_eq
    exact h.insert hr.named (.of_inactive ho rfl rfl)
  | enableAgain hrefresh _ he =>
    obtain ⟨c, root, s, content, -, -, -, hrefreshed⟩ := admitRefresh_ok hrefresh
    obtain ⟨inserted, hi, hm, ha⟩ := admitEnable_admission he
    rw [lookup_insert, if_pos rfl] at hi
    cases hi
    refine h.insert ?_ ha
    rw [hm, hrefreshed.record_eq]
    exact hrefreshed.named
  | enable he =>
    obtain ⟨c, hc, hm, ha⟩ := admitEnable_admission he
    exact h.insert (by rw [hm, (h _ c hc).1]) ha
  | disable hl =>
    exact h.insert (h _ _ hl).1 (.of_inactive rfl rfl rfl)
  | keep hl hk =>
    refine h.insert ?_ ((h _ _ hl).2.congr hk)
    rw [hk.manifest, (h _ _ hl).1]
  | remove => exact fun o record hl => h o record (lookup_of_erase hl)

theorem Changes.admitted (hc : Changes checks clean r r') (h : Admitted checks r) :
    Admitted checks r' := by
  induction hc with
  | refl => exact h
  | tail _ hchange ih => exact hchange.admitted ih

theorem Admitted.step (h : Admitted checks r) (o : Operation) :
    Admitted checks (r.step checks o) := by
  have hc : Changes checks (fun _ => True) r (r.step checks o) :=
    step_changes h.named o fun _ _ => trivial
  exact hc.admitted h

theorem admitted_new (checks : Checks) (granted : CapabilitySet)
    (governed : List CapabilitySurface) : Admitted checks (.new granted governed) := by
  intro name record hl
  rw [new, lookup_empty] at hl
  cases hl

theorem Admitted.run (h : Admitted checks r) (o : List Operation) :
    Admitted checks (r.run checks o) := by
  induction o generalizing r with
  | nil => exact h
  | cons operation _ ih => exact ih (h.step operation)

theorem admittedHostProfileFromSnapshot_ok
    (h : admittedHostProfileFromSnapshot checks record = .ok p) :
    (record.isEnabled = true →
      admitEnabledHostProfile checks record.manifest record.classification = .ok p) ∧
    (record.isEnabled = false → p = none) := by
  rw [admittedHostProfileFromSnapshot] at h
  split at h
  · next hon => exact ⟨fun _ => mapError_eq_ok.mp h, fun ho => by simp [ho] at hon⟩
  · next ho => exact ⟨fun hon => absurd hon ho, fun _ => (ok.inj h).symm⟩

theorem admittedCapabilitiesFromSnapshot_ok
    (h : admittedCapabilitiesFromSnapshot granted governed record = .ok c) :
    (record.isEnabled = true → c = record.manifest.capabilities ∧
      capabilityRefusal granted governed record.manifest = none) ∧
    (record.isEnabled = false → c = []) := by
  rw [admittedCapabilitiesFromSnapshot] at h
  split at h
  · next hon =>
    split at h
    · cases h
    · next hr =>
      exact ⟨fun _ => ⟨(ok.inj h).symm, hr⟩, fun ho => by simp [ho] at hon⟩
  · next ho => exact ⟨fun hon => absurd hon ho, fun _ => (ok.inj h).symm⟩

theorem restoreRecord_ok (h : restoreRecord checks granted governed record = .ok restored) :
    restored.manifest = record.manifest ∧ Admission checks granted governed restored := by
  simp only [restoreRecord, bind_eq_ok, guard_eq_ok, mapError_eq_ok] at h
  obtain ⟨_, -, -, _, -, _, -, profile, hp, capabilities, hc, hr⟩ := h
  cases hr
  obtain ⟨hon, ho⟩ := admittedHostProfileFromSnapshot_ok hp
  obtain ⟨hon', ho'⟩ := admittedCapabilitiesFromSnapshot_ok hc
  exact ⟨rfl, fun h => ⟨(hon' h).1, (hon' h).2, hon h⟩, fun h => ⟨ho' h, ho h⟩⟩

theorem restoreRecords_admission {p : List PackageRecord} {s records : Dict String PackageRecord}
    (hs : ∀ name record, s.lookup name = some record →
      record.manifest.name = name ∧ Admission checks granted governed record)
    (h : restoreRecords checks granted governed p s = .ok records) :
    ∀ name record, records.lookup name = some record →
      record.manifest.name = name ∧ Admission checks granted governed record := by
  induction p generalizing s with
  | nil =>
    cases h
    exact hs
  | cons _ _ ih =>
    obtain ⟨restored, hr, h⟩ := bind_eq_ok.mp h
    obtain ⟨-, h⟩ := guard_eq_ok.mp h
    obtain ⟨hm, ha⟩ := restoreRecord_ok hr
    refine ih ?_ h
    intro name f hl
    rw [lookup_insert_eq] at hl
    split at hl
    · next heq =>
      cases hl
      exact ⟨by rw [hm, heq], ha⟩
    · exact hs name f hl

theorem fromSnapshot_admitted {s : PackageRegistrySnapshot}
    (h : fromSnapshot checks s = .ok r) : Admitted checks r := by
  obtain ⟨records, hrecords, hr⟩ := bind_eq_ok.mp h
  cases hr
  refine restoreRecords_admission (fun name record hl => ?_) hrecords
  rw [lookup_empty] at hl
  cases hl

/-- A reload of an enabled package that asks for a capability it may not hold fails and leaves it as
it was. -/
theorem reload_refused (hc : r.records.lookup name = some current) (hon : current.isEnabled = true)
    (hroot : current.root? = some root) (hreads : Reads disk root auditReason source content)
    (hmem : capability ∈ content.manifest.capabilities)
    (hm : ¬MayHold r.grantedCapabilities r.governedSurfaces name capability) :
    ∃ error, r.reloadLocalPackage checks disk name auditReason = (.error error, r) := by
  rw [reloadLocalPackage]
  split
  · next h =>
    obtain ⟨_, -, h⟩ := bind_eq_ok.mp h
    obtain ⟨-, h⟩ := guard_eq_ok.mp h
    split at h
    · cases h
    next hr =>
    rw [refreshLocalPackageRecord] at hr
    split at hr
    · cases hr
    next record hrecord =>
    obtain ⟨current', root', source', content', hc', hroot', hreads', hrefreshed⟩ :=
      admitRefresh_ok hrecord
    cases hc.symm.trans hc'
    cases hroot.symm.trans hroot'
    cases hreads.1.symm.trans hreads'.1
    cases hreads.2.symm.trans hreads'.2
    have hrecordOn : record.isEnabled = true := by
      rw [hrefreshed.record_eq]
      exact hon
    rw [if_pos hrecordOn] at hr
    split at hr
    · cases hr
    next he =>
    -- The enable that follows has found every capability granted.
    cases hchecked : (r.insert name record).admitEnable checks name auditReason with
    | error =>
      rw [enable, hchecked] at he
      cases he
    | ok =>
      obtain ⟨inserted, -, hi, hrefusal, -, -⟩ := admitEnable_ok hchecked
      rw [lookup_insert, if_pos rfl] at hi
      cases hi
      rw [hrefreshed.record_eq] at hrefusal
      have hh := capabilityRefusal_eq_none.mp hrefusal capability hmem
      exact absurd (.of_granted hh.1 (hrefreshed.named ▸ hh.2)) hm
  · next error _ => exact ⟨error, rfl⟩

inductive Event where
  | operation (operation : Operation)
  | restore (snapshot : PackageRegistrySnapshot)

def PackageRegistry.handle (checks : Checks) (r : PackageRegistry) : Event → PackageRegistry
  | .operation operation => r.step checks operation
  | .restore snapshot =>
    match fromSnapshot checks snapshot with
    | .ok restored => restored
    | .error _ => r

theorem Admitted.handle (h : Admitted checks r) (event : Event) :
    Admitted checks (r.handle checks event) := by
  cases event with
  | operation operation => exact h.step operation
  | restore =>
    rw [PackageRegistry.handle]
    split
    · next hr => exact fromSnapshot_admitted hr
    · exact h

theorem Admitted.foldl_handle (h : Admitted checks r) (e : List Event) :
    Admitted checks (e.foldl (·.handle checks) r) := by
  induction e generalizing r with
  | nil => exact h
  | cons event _ ih => exact ih (h.handle event)

structure Grants (checks : Checks) (r : PackageRegistry) : Prop where
  enabled : ∀ name record, r.records.lookup name = some record → record.isEnabled = true →
    record.admittedCapabilities = record.manifest.capabilities ∧
      ∀ capability ∈ record.admittedCapabilities,
        MayHold r.grantedCapabilities r.governedSurfaces name capability
  inactive : ∀ name record, r.records.lookup name = some record → record.isEnabled = false →
    record.admittedCapabilities = [] ∧ record.admittedHostProfile = none
  reload : ∀ disk name auditReason current root source content,
    r.records.lookup name = some current → current.isEnabled = true →
    current.root? = some root → Reads disk root auditReason source content →
    (∃ capability ∈ content.manifest.capabilities,
      ¬MayHold r.grantedCapabilities r.governedSurfaces name capability) →
    ∃ error, r.reloadLocalPackage checks disk name auditReason = (.error error, r)

/-- Whatever is done and restored, no package holds a capability that it was not granted. -/
theorem run_grants (checks : Checks) (granted : CapabilitySet) (governed : List CapabilitySurface)
    (events : List Event) :
    Grants checks (events.foldl (·.handle checks) (.new granted governed)) := by
  have h := (admitted_new checks granted governed).foldl_handle events
  refine ⟨fun name record hlookup hon => ?_, fun name record hlookup hoff => ?_, ?_⟩
  · obtain ⟨hname, hadmission⟩ := h name record hlookup
    obtain ⟨hcapabilities, hrefusal, -⟩ := hadmission.enabled hon
    refine ⟨hcapabilities, fun capability hmem => ?_⟩
    obtain ⟨hgoverned, hgranted⟩ :=
      capabilityRefusal_eq_none.mp hrefusal capability (hcapabilities ▸ hmem)
    exact .of_granted hgoverned (hname ▸ hgranted)
  · exact (h name record hlookup).2.inactive hoff
  · rintro disk name auditReason current root source content hcurrent hon hroot hreads
      ⟨capability, hmem, hmore⟩
    exact reload_refused hcurrent hon hroot hreads hmem hmore

/-! ### A refused reload

The reload fails, and the package goes on with the manifest and the capabilities that it had.
-/

def openChecks : Checks where
  hubVersion := "0.1.0"
  compileSchema _ := .ok ()
  schemaAcceptsString _ := true
  validatePackageNamespace _ := .ok ()
  admitHostProfile manifest := .ok ⟨manifest.name, .null⟩

def diskOf (content : LocalPackageManifest) : Disk where
  canonicalize path := .ok path
  isDir _ := true
  isFile _ := true
  readManifest _ := .ok content
  readCatalog _ := .error "no such file"

def notesPath : PathBuf := .ofText "/srv/notes"

def notesManifest (capabilities : List Capability) : HubPackageManifest :=
  { name := "notes", botster := ">=0.1.0", capabilities }

def greedyReload : List Operation :=
  [.installLocalPath (diskOf { manifest := notesManifest [⟨.timers, none⟩] }) notesPath "install",
    .enable "notes" "enable",
    .reload (diskOf { manifest := notesManifest [⟨.timers, none⟩, ⟨.network, none⟩] }) "notes"
      "reload"]

/-- After such a reload the package is still enabled with the old capabilities. -/
theorem refused_reload_stays_enabled :
    (((PackageRegistry.new (.collect [⟨.timers, none⟩]) [.timers, .network]).run openChecks
      greedyReload).records.lookup "notes").map
        (fun record => (record.isEnabled, record.admittedCapabilities)) =
      some (true, [⟨.timers, none⟩]) := by
  decide +kernel

end BotsterHub.Package
