import BotsterHub.Lib.Fallible
import BotsterHub.Store.Keyed

/-!
Whose records an operation on the plugin store deals with.

Every record that is read is checked for its owner. So whatever the database holds, an operation
writes to the namespace of its plugin only and returns only records of this plugin.
-/

namespace BotsterHub.Store

open List Option AList Except

open Capability

def Result.returned {Payload : Type} : Result Payload → List (StoreRecord Payload)
  | .record found | .written found => [found]
  | .deleted _ _ => []
  | .list found => found
  | .batch results => results.filterMap MutationResult.written

variable {Payload : Type} {core : Core Payload} {limits : Limits} {turn : Turn}
  {db : Database Payload} {pluginKey : PluginKey} {ns : String} {key : StoreKey}
  {records result : Records Payload} {record : StoreRecord Payload}

theorem namespaceOf_ok (h : namespaceOf core pluginKey = .ok ns) :
    ns = pluginNamespaceText pluginKey := by
  unfold namespaceOf at h
  split at h
  · cases h
  · exact (ok.inj h).symm

theorem readRecord_ok (h : readRecord turn db pluginKey ns key = .ok f) :
    f = (db.records ns).lookup key := by
  simp only [readRecord, bind_eq_ok] at h
  obtain ⟨-, -, h⟩ := h
  split at h
  · next hn => rw [hn, ok.inj h]
  next hs =>
  rw [bind_eq_ok] at h
  obtain ⟨-, -, h⟩ := h
  rw [hs, ok.inj h]

theorem records_insert (db : Database Payload) (ns o : String) (records : Records Payload) :
    Database.records (insert ns records db) o =
      if o = ns then records else db.records o := by
  unfold Database.records
  rw [lookup_insert_eq]
  split <;> rfl

def Owned (pluginKey : PluginKey) (records : Records Payload) : Prop :=
  ∀ key, ∀ record ∈ records.lookup key, record.pluginKey = pluginKey

theorem checkRecordOwner_ok (h : checkRecordOwner pluginKey record = .ok u) :
    record.pluginKey = pluginKey := by
  unfold checkRecordOwner at h
  split at h
  · assumption
  · cases h

theorem owner_readRecord (h : readRecord turn db pluginKey ns key = .ok (some record)) :
    record.pluginKey = pluginKey := by
  simp only [readRecord, bind_eq_ok] at h
  obtain ⟨-, -, h⟩ := h
  split at h
  · cases h
  rw [bind_eq_ok] at h
  obtain ⟨_, howner, h⟩ := h
  cases h
  exact checkRecordOwner_ok howner

section

variable (h : Owned pluginKey records)
include h

theorem Owned.insert (hr : record.pluginKey = pluginKey) :
    Owned pluginKey (records.insert key record) := by
  intro other stored hs
  rw [mem_def, lookup_insert_eq] at hs
  split at hs
  · rwa [← some.inj hs]
  · exact h other stored hs

theorem Owned.addPage (hp : addPage pluginKey records page = .ok result) :
    Owned pluginKey result := by
  induction page generalizing records with
  | nil =>
    cases hp
    exact h
  | cons _ _ ih =>
    simp only [Store.addPage, bind_eq_ok] at hp
    obtain ⟨_, howner, hp⟩ := hp
    exact ih (h.insert (checkRecordOwner_ok howner)) hp

theorem Owned.readPages (hp : readPages turn db pluginKey ns fuel start records = .ok result) :
    Owned pluginKey result := by
  induction fuel generalizing start records with
  | zero =>
    cases hp
    exact h
  | succ _ ih =>
    simp only [Store.readPages, bind_eq_ok] at hp
    obtain ⟨_, -, _, hpage, hp⟩ := hp
    have hm := h.addPage hpage
    split at hp
    · exact ih hm hp
    · cases hp
      exact hm

theorem Owned.applyMutation (ha : applyMutation core pluginKey records m = .ok applied) :
    Owned pluginKey applied.1 ∧ ∀ record ∈ applied.2.written, record.pluginKey = pluginKey := by
  cases m with
  | set =>
    simp only [Store.applyMutation, bind_eq_ok] at ha
    obtain ⟨_, -, ha⟩ := ha
    cases ha
    exact ⟨h.insert rfl, by simp [MutationResult.written]⟩
  | patch key =>
    simp only [Store.applyMutation] at ha
    split at ha
    · cases ha
    next current hc =>
    simp only [bind_eq_ok] at ha
    obtain ⟨_, -, _, -, ha⟩ := ha
    cases ha
    have howner := h key current hc
    exact ⟨h.insert howner, by simpa [MutationResult.written] using howner⟩
  | delete =>
    simp only [Store.applyMutation] at ha
    split at ha
    · cases ha
    simp only [bind_eq_ok] at ha
    obtain ⟨_, -, ha⟩ := ha
    cases ha
    exact ⟨fun other stored hs => h other stored (lookup_of_erase hs), nofun⟩

theorem Owned.applyMutations
    (ha : applyMutations core limits pluginKey i seen records mutations = .ok (c, results)) :
    ∀ record ∈ results.filterMap MutationResult.written, record.pluginKey = pluginKey := by
  induction mutations generalizing i seen records results with
  | nil =>
    cases ha
    exact nofun
  | cons m rest ih =>
    rw [Store.applyMutations] at ha
    split at ha
    · cases ha
    next hc =>
    simp only [bind_eq_ok] at ha
    obtain ⟨⟨middle, later⟩, hr, ha⟩ := ha
    cases ha
    simp only [applyChecked, guard_eq_ok, bind_eq_ok] at hc
    obtain ⟨-, -, _, hm, -, hc⟩ := hc
    cases hc
    obtain ⟨hmiddle, hw⟩ := h.applyMutation hm
    intro record hrecord
    obtain ⟨result, hresult, hwritten⟩ := mem_filterMap.mp hrecord
    rcases mem_cons.mp hresult with rfl | hresult
    · exact hw record hwritten
    · exact ih hmiddle hr record (mem_filterMap.mpr ⟨result, hresult, hwritten⟩)

end

theorem owned_readRecords (h : readRecords turn db pluginKey ns = .ok result) :
    Owned pluginKey result :=
  Owned.readPages (fun _ _ hr => absurd hr (not_mem_none _)) h

/-- What an operation may write and return, whatever the database holds. -/
theorem owned_plan {p : Plan Payload} (h : plan core limits turn db pluginKey operation = .ok p) :
    p.namespaceText = pluginNamespaceText pluginKey ∧
      ∀ record ∈ p.result.returned, record.pluginKey = pluginKey := by
  cases operation with
  | get =>
    simp only [plan, get, mapError_eq_ok, bind_eq_ok] at h
    obtain ⟨ns, hns, found, hf, h⟩ := h
    split at h
    · cases h
      exact ⟨namespaceOf_ok hns, by simpa [Result.returned] using owner_readRecord hf⟩
    · cases h
  | delete =>
    simp only [plan, delete, mapError_eq_ok, bind_eq_ok] at h
    obtain ⟨ns, hns, found, -, h⟩ := h
    split at h
    · cases h
      exact ⟨namespaceOf_ok hns, fun _ hm => absurd hm not_mem_nil⟩
    · cases h
  | set =>
    simp only [plan, set, mapError_eq_ok, bind_eq_ok] at h
    obtain ⟨ns, hns, _, -, _, -, _, -, h⟩ := h
    cases h
    exact ⟨namespaceOf_ok hns, by simp [Result.returned]⟩
  | list =>
    simp only [plan, list, mapError_eq_ok, bind_eq_ok] at h
    obtain ⟨ns, hns, records, hr, h⟩ := h
    cases h
    refine ⟨namespaceOf_ok hns, fun record hrecord => ?_⟩
    obtain ⟨key, -, hk⟩ := mem_filterMap.mp (mem_filter.mp hrecord).1
    exact owned_readRecords hr key record hk
  | patch =>
    simp only [plan, patch, mapError_eq_ok, bind_eq_ok] at h
    obtain ⟨ns, hns, records, hr, h⟩ := h
    split at h
    · cases h
    next current hc =>
    simp only [bind_eq_ok] at h
    obtain ⟨_, -, _, -, _, -, h⟩ := h
    cases h
    have howner := owned_readRecords hr _ current hc
    exact ⟨namespaceOf_ok hns, by simpa [Result.returned] using howner⟩
  | batch =>
    simp only [plan, batch, mapError_eq_ok, bind_eq_ok] at h
    obtain ⟨ns, hns, records, hr, ⟨c, results⟩, ha, h⟩ := h
    cases h
    simp only [applyPluginStoreBatch, guard_eq_ok, bind_eq_ok] at ha
    obtain ⟨-, applied, ha, hl⟩ := ha
    split at hl
    · cases hl
    cases hl
    exact ⟨namespaceOf_ok hns, (owned_readRecords hr).applyMutations ha⟩

/-- An operation fails and leaves everything, or commits a plan of its own plugin. -/
theorem execute_cases (core : Core Payload) (limits : Limits) (db : Database Payload)
    (r : Request Payload) :
    (∃ failure, execute core limits db r = (db, .error failure)) ∨
      ∃ p, execute core limits db r = commit r.turn db p ∧
        p.namespaceText = pluginNamespaceText r.pluginKey ∧
        ∀ record ∈ p.result.returned, record.pluginKey = r.pluginKey := by
  unfold execute
  split
  · exact .inl ⟨_, rfl⟩
  split
  · exact .inl ⟨_, rfl⟩
  · next p hp => exact .inr ⟨p, rfl, owned_plan hp⟩

variable (core limits) in
theorem records_execute (r : Request Payload) (ho : pluginKey ≠ r.pluginKey) :
    (execute core limits db r).1.records (pluginNamespaceText pluginKey) =
      db.records (pluginNamespaceText pluginKey) := by
  rcases execute_cases core limits db r with ⟨_, h⟩ | ⟨p, h, hns, -⟩
  · rw [h]
  rw [h, commit]
  split
  · rfl
  split
  · rfl
  · rw [Database.batch, records_insert, hns,
      if_neg fun heq => ho (pluginNamespaceText_injective heq)]

theorem returned_execute {request : Request Payload} {result : Result Payload}
    (h : (execute core limits db request).2 = .ok result) (hr : record ∈ result.returned) :
    record.pluginKey = request.pluginKey := by
  rcases execute_cases core limits db request with ⟨_, he⟩ | ⟨p, he, -, hreturned⟩
  · rw [he] at h
    cases h
  rw [he, commit] at h
  split at h
  · cases h
    exact hreturned record hr
  split at h
  · cases h
  · cases h
    exact hreturned record hr

end BotsterHub.Store
