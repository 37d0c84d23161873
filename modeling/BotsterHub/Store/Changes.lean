import BotsterHub.Store.Ownership

/-!
What an operation on the plugin store does.

`Changed` says it once for every operation that succeeds with a change: which keys of the namespace
are written or deleted, with which revisions, and that the limits still hold.
-/

namespace BotsterHub.Store

open List Option AList Except

open Capability

inductive Touch (Payload : Type) where
  | written (record : StoreRecord Payload)
  | deleted (key : StoreKey) (revision : ℕ)
deriving DecidableEq

def Touch.key {Payload : Type} : Touch Payload → StoreKey
  | .written record => record.key
  | .deleted key _ => key

def MutationResult.touch {Payload : Type} : MutationResult Payload → Touch Payload
  | .set record | .patch record => .written record
  | .delete key revision => .deleted key revision

/-- What an operation says that it has done. -/
def touches {Payload : Type} : Except Failure (Result Payload) → List (Touch Payload)
  | .ok (.written record) => [.written record]
  | .ok (.deleted key revision) => [.deleted key revision]
  | .ok (.batch results) => results.map MutationResult.touch
  | _ => []

def Operation.Expects {Payload : Type} : Operation Payload → StoreKey → ℕ → Prop
  | .set key _ _ expected, other, revision | .patch key _ expected, other, revision =>
    key = other ∧ expected = some revision
  | .batch mutations, other, revision =>
    ∃ mutation ∈ mutations, mutation.key = other ∧ mutation.expectedRevision = revision
  | .get _, _, _ | .delete _, _, _ | .list _, _, _ => False

variable {Payload : Type} {core : Core Payload} {limits : Limits} {turn : Turn}
  {db : Database Payload} {pluginKey : PluginKey} {ns : String} {key : StoreKey}
  {records stored result before middle after : Records Payload}

def Tidy (records : Records Payload) : Prop :=
  ∀ key, ∀ record ∈ records.lookup key, record.key = key

abbrev Database.own (db : Database Payload) (pluginKey : PluginKey) : Records Payload :=
  db.records (pluginNamespaceText pluginKey)

theorem lookup_addPage (hkeys : ∀ key, ∀ record ∈ stored.lookup key, record.key = key)
    {page : List StoreKey}
    (h : addPage pluginKey records (page.filterMap stored.lookup) = .ok result)
    (key : StoreKey) :
    result.lookup key =
      if key ∈ page then (stored.lookup key).or (records.lookup key) else records.lookup key := by
  induction page generalizing records with
  | nil =>
    cases h
    simp
  | cons f _ ih =>
    cases hf : stored.lookup f with
    | none =>
      simp only [filterMap_cons, hf] at h
      rw [ih h]
      by_cases hk : key = f
      · subst hk
        simp [hf]
      · simp [hk]
    | some record =>
      simp only [filterMap_cons, hf, addPage, bind_eq_ok] at h
      obtain ⟨-, -, h⟩ := h
      rw [ih h, hkeys f record hf, lookup_insert_eq]
      by_cases hk : key = f
      · subst hk
        simp [hf]
      · simp [hk]

theorem lookup_readPages
    (hk : ∀ key, ∀ record ∈ (db.records ns).lookup key, record.key = key) {fuel : ℕ}
    {after : Option StoreKey} (hf : ((db.records ns).keysAfter after).length < fuel)
    (h : readPages turn db pluginKey ns fuel after records = .ok result) (key : StoreKey) :
    result.lookup key = if key ∈ (db.records ns).keysAfter after then
      ((db.records ns).lookup key).or (records.lookup key) else records.lookup key := by
  induction fuel generalizing after records with
  | zero => exact absurd hf (Nat.not_lt_zero _)
  | succ _ ih =>
    rw [readPages, bind_eq_ok] at h
    obtain ⟨-, -, h⟩ := h
    rw [bind_eq_ok] at h
    obtain ⟨middle, hpage, h⟩ := h
    have hm := lookup_addPage hk hpage key
    have hs := (take_append_drop (turn.pageItems after + 1) ((db.records ns).keysAfter after)).symm
    have hmem : key ∈ (db.records ns).keysAfter after ↔
        key ∈ ((db.records ns).keysAfter after).take (turn.pageItems after + 1) ∨
          key ∈ ((db.records ns).keysAfter after).drop (turn.pageItems after + 1) := by
      rw [← mem_append, ← hs]
    by_cases hl : ((db.records ns).keysAfter after).length ≤ turn.pageItems after + 1
    · -- The last page: nothing is left behind it.
      simp only [Database.range, hl, if_true] at h
      cases h
      rw [take_of_length_le hl] at hm
      exact hm
    · have hn := getLast?_eq_some_getLast (l := ((db.records ns).keysAfter after).take
        (turn.pageItems after + 1)) (by
          rw [ne_eq, ← length_eq_zero_iff, length_take]
          omega)
      have hr := keysAfter_resume hs
      rw [resume, hn, some_or] at hr
      simp only [Database.range, hl, if_false, hn] at h
      have hrest := ih (by rw [hr, length_drop]; omega) h
      rw [hrest, hr, hm]
      -- A key is on this page or on a later one.
      by_cases hp : key ∈ ((db.records ns).keysAfter after).take (turn.pageItems after + 1)
      · simp only [hmem, hp, true_or, if_true, ← Option.or_assoc, Option.or_self, ite_self]
      · simp only [hmem, hp, false_or, if_false]

theorem lookup_readRecords (ht : Tidy (db.records ns))
    (h : readRecords turn db pluginKey ns = .ok result) (key : StoreKey) :
    result.lookup key = (db.records ns).lookup key := by
  rw [lookup_readPages ht (Nat.lt_succ_self _) h]
  by_cases hm : key ∈ db.records ns
  · simp [mem_keysAfter, hm]
  · simp [mem_keysAfter, hm, lookup_eq_none.mpr hm]

structure Within (core : Core Payload) (limits : Limits) (records : Records Payload) : Prop where
  each : ∀ key, ∀ record ∈ records.lookup key, recordBytes core record ≤ limits.maxRecordBytes
  keys : records.keys.length ≤ limits.maxPluginKeys
  bytes : records.total (recordBytes core) ≤ limits.maxPluginBytes

theorem length_keys (records : Records Payload) :
    records.keys.length = records.total fun _ => 1 := by
  simp [AList.total, AList.keys, List.keys]

theorem Within.congr (h : Within core limits records)
    (hs : ∀ key, stored.lookup key = records.lookup key) : Within core limits stored where
  each key record hr := h.each key record (hs key ▸ hr)
  keys := by
    rw [length_keys, total_eq_of_lookup_eq _ records _ fun key => by rw [hs key], ← length_keys]
    exact h.keys
  bytes := by
    rw [total_eq_of_lookup_eq _ records _ fun key => by rw [hs key]]
    exact h.bytes

theorem Within.erase (h : Within core limits records) (key : StoreKey) :
    Within core limits (records.erase key) := by
  have hle : ∀ f : StoreRecord Payload → ℕ, (records.erase key).total f ≤ records.total f :=
    fun f => total_le_of_lookup_le _ _ f fun o => by
      rw [lookup_erase_eq]
      split <;> simp
  refine ⟨fun o record hr => h.each o record (lookup_of_erase hr), ?_, (hle _).trans h.bytes⟩
  · rw [length_keys]
    exact (hle _).trans (length_keys records ▸ h.keys)

variable {u : Unit} {record : StoreRecord Payload}

theorem Within.insert (h : Within core limits records)
    (hc : enforcePluginStoreLimits core limits records key record.payload = .ok u) :
    Within core limits (records.insert key record) := by
  unfold enforcePluginStoreLimits at hc
  split at hc
  · cases hc
  split at hc
  · cases hc
  split at hc
  · cases hc
  next hr hk hb =>
  refine ⟨fun o stored hs => ?_, ?_, ?_⟩
  · rw [lookup_insert_eq] at hs
    split at hs
    · rw [← some.inj hs]
      exact Nat.le_of_not_lt hr
    · exact h.each o stored hs
  · rw [length_keys]
    cases hl : records.lookup key with
    | none =>
      rw [total_insert_of_none _ _ _ hl, ← length_keys]
      have := not_and.mp hk hl
      omega
    | some =>
      have ht := total_insert_of_some records (fun _ => 1) record hl
      have := h.keys
      rw [length_keys] at this
      omega
  · rw [total_insert_eq]
    have hp : recordBytes core record = core.payloadBytes record.payload := rfl
    omega

def revisionAt (records : Records Payload) (key : StoreKey) : ℕ :=
  ((records.lookup key).map StoreRecord.revision).getD 0

variable {expected : Option ℕ}

theorem revisionForWrite_ok (h : revisionForWrite (records.lookup key) expected = .ok r) :
    r = revisionAt records key + 1 ∧ ∀ e ∈ expected, revisionAt records key = e := by
  unfold revisionAt
  cases hl : records.lookup key <;> cases expected <;>
    simp only [hl, revisionForWrite] at h
  case none.none => simp_all
  case some.none => simp_all
  all_goals
    split at h
    · cases h
    · simp_all

/-- The namespace moves from `before` to `after` by what is reported, each key once. -/
structure Change (core : Core Payload) (limits : Limits)
    (before after : Records Payload) (touches : List (Touch Payload)) : Prop where
  nodup : (touches.map Touch.key).Nodup
  outside : ∀ key, key ∉ touches.map Touch.key → after.lookup key = before.lookup key
  written : ∀ record, .written record ∈ touches → after.lookup record.key = some record ∧
    record.revision = revisionAt before record.key + 1 ∧
    recordBytes core record ≤ limits.maxRecordBytes
  deleted : ∀ key revision, .deleted key revision ∈ touches →
    (before.lookup key).map StoreRecord.revision = some revision ∧ after.lookup key = none

theorem Change.refl (records : Records Payload) :
    Change core limits records records [] where
  nodup := nodup_nil
  outside _ _ := rfl
  written _ h := absurd h not_mem_nil
  deleted _ _ h := absurd h not_mem_nil

theorem Change.cons (hf : Change core limits before middle [touch])
    (hr : Change core limits middle after t)
    (hn : touch.key ∉ t.map Touch.key) :
    Change core limits before after (touch :: t) := by
  -- Where the later changes look, the first has changed nothing.
  have hs : ∀ l ∈ t, middle.lookup l.key = before.lookup l.key := by
    intro l hlater
    refine hf.outside _ fun hmem => hn ?_
    rw [← mem_singleton.mp hmem]
    exact mem_map_of_mem hlater
  refine ⟨nodup_cons.mpr ⟨hn, hr.nodup⟩, fun key hk => ?_, fun record hrecord => ?_,
    fun key r hd => ?_⟩
  · rw [map_cons, mem_cons, not_or] at hk
    rw [hr.outside key hk.2, hf.outside key (by simpa using hk.1)]
  · rcases mem_cons.mp hrecord with rfl | hrecord
    · obtain ⟨hl, hfacts⟩ := hf.written record mem_cons_self
      exact ⟨(hr.outside _ hn).trans hl, hfacts⟩
    have hm : middle.lookup record.key = before.lookup record.key := hs _ hrecord
    have hw := hr.written record hrecord
    rw [revisionAt, hm] at hw
    exact hw
  · rcases mem_cons.mp hd with rfl | hd
    · obtain ⟨hl, hg⟩ := hf.deleted key r mem_cons_self
      exact ⟨hl, (hr.outside _ hn).trans hg⟩
    have hm : middle.lookup key = before.lookup key := hs _ hd
    rw [← hm]
    exact hr.deleted key r hd

theorem Change.congr (h : Change core limits before after t)
    (hb : ∀ key, stored.lookup key = before.lookup key)
    (ha : ∀ key, result.lookup key = after.lookup key) :
    Change core limits stored result t := by
  refine ⟨h.nodup, fun key hk => ?_, fun record hr => ?_, fun key r hd => ?_⟩
  · rw [ha, hb, h.outside key hk]
  · rw [ha, revisionAt, hb]
    exact h.written record hr
  · rw [ha, hb]
    exact h.deleted key r hd

theorem Change.forall {touches : List (Touch Payload)} {p : StoreKey → StoreRecord Payload → Prop}
    (h : Change core limits before after touches)
    (hb : ∀ key, ∀ record ∈ before.lookup key, p key record)
    (hw : ∀ record, .written record ∈ touches → p record.key record) :
    ∀ key, ∀ record ∈ after.lookup key, p key record := by
  intro key record hr
  by_cases hk : key ∈ touches.map Touch.key
  · obtain ⟨touch, ht, rfl⟩ := mem_map.mp hk
    cases touch with
    | written written =>
      rw [← some.inj ((h.written written ht).1.symm.trans hr)]
      exact hw written ht
    | deleted key revision =>
      rw [Touch.key, (h.deleted key revision ht).2] at hr
      cases hr
  · rw [h.outside key hk] at hr
    exact hb key record hr

theorem Change.tidy {t : List (Touch Payload)}
    (h : Change core limits before after t) (hb : Tidy before) :
    Tidy after :=
  h.forall hb fun _ _ => rfl

theorem change_insert (record : StoreRecord Payload)
    (hr : record.revision = revisionAt records record.key + 1)
    (hb : recordBytes core record ≤ limits.maxRecordBytes) :
    Change core limits records (records.insert record.key record) [.written record] where
  nodup := nodup_singleton _
  outside other ho := by rw [lookup_insert_eq, if_neg (by simpa [Touch.key] using ho)]
  written other ho := by
    obtain rfl : other = record := Touch.written.inj (mem_singleton.mp ho)
    exact ⟨lookup_insert _, hr, hb⟩
  deleted _ _ ho := by cases mem_singleton.mp ho

theorem change_erase (hc : records.lookup key = some c) :
    Change core limits records (records.erase key) [.deleted key c.revision] where
  nodup := nodup_singleton _
  outside other ho := by rw [lookup_erase_eq, if_neg (by simpa [Touch.key] using ho)]
  written _ ho := by cases mem_singleton.mp ho
  deleted other revision ho := by
    obtain ⟨rfl, rfl⟩ := Touch.deleted.inj (mem_singleton.mp ho)
    rw [hc, lookup_erase]
    exact ⟨rfl, rfl⟩

/-- A checked change: the expected revisions were current, and the limits still hold. -/
structure Changed (core : Core Payload) (limits : Limits)
    (expects : StoreKey → ℕ → Prop) (before after : Records Payload)
    (touches : List (Touch Payload)) : Prop
    extends Change core limits before after touches where
  expected : ∀ key revision, expects key revision → revisionAt before key = revision
  within : Within core limits before → Within core limits after

theorem recordBytes_of_limits (h : enforcePluginStoreLimits core limits records key p = .ok u) :
    core.payloadBytes p ≤ limits.maxRecordBytes := by
  unfold enforcePluginStoreLimits at h
  split at h
  · cases h
  · next hle => exact Nat.le_of_not_lt hle

theorem changed_insert (record : StoreRecord Payload)
    (hr : ∀ key, records.lookup key = stored.lookup key)
    (hrevision : revisionForWrite (records.lookup record.key) expected = .ok record.revision)
    (hc : enforcePluginStoreLimits core limits records record.key record.payload = .ok u) :
    Changed core limits (fun key r => record.key = key ∧ expected = some r) stored
      (stored.insert record.key record) [.written record] := by
  obtain ⟨hn, he⟩ := revisionForWrite_ok hrevision
  rw [revisionAt, hr] at hn
  refine ⟨change_insert record hn (recordBytes_of_limits hc), ?_, fun hw => ?_⟩
  · rintro key r ⟨rfl, hs⟩
    rw [revisionAt, ← hr]
    exact he r hs
  · refine ((hw.congr hr).insert hc).congr fun key => ?_
    rw [lookup_insert_eq, lookup_insert_eq, hr]

variable {plan : Plan Payload}

theorem set_ok (ht : Tidy (db.own pluginKey))
    (h : set core limits turn db pluginKey key s p expected = .ok plan) :
    ∃ record, plan = ⟨pluginNamespaceText pluginKey, [.put record.key record], .written record⟩ ∧
      Changed core limits (Operation.set key s p expected).Expects
        (db.own pluginKey) ((db.own pluginKey).insert record.key record) [.written record] := by
  simp only [set, bind_eq_ok] at h
  obtain ⟨ns, hns, records, hrecords, r, hr, _, hl, hp⟩ := h
  obtain rfl := namespaceOf_ok hns
  have hread := lookup_readRecords ht hrecords
  exact ⟨⟨pluginKey, key, s, r, p⟩, (ok.inj hp).symm,
    changed_insert ⟨pluginKey, key, s, r, p⟩ hread hr hl⟩

theorem patch_ok (ht : Tidy (db.own pluginKey))
    (h : patch core limits turn db pluginKey key change expected = .ok plan) :
    ∃ record, plan = ⟨pluginNamespaceText pluginKey, [.put record.key record], .written record⟩ ∧
      Changed core limits (Operation.patch key change expected).Expects
        (db.own pluginKey) ((db.own pluginKey).insert record.key record) [.written record] := by
  simp only [patch, bind_eq_ok] at h
  obtain ⟨ns, hns, records, hrecords, h⟩ := h
  obtain rfl := namespaceOf_ok hns
  have hread := lookup_readRecords ht hrecords
  split at h
  · cases h
  next current hc =>
  simp only [bind_eq_ok] at h
  obtain ⟨revision, hr, payload, -, _, hl, hp⟩ := h
  obtain rfl := ht key current ((hread key).symm.trans hc)
  rw [← hc] at hr
  exact ⟨{ current with revision, payload }, (ok.inj hp).symm,
    changed_insert { current with revision, payload } hread hr hl⟩

theorem delete_ok (ht : Tidy (db.own pluginKey))
    (h : delete core turn db pluginKey key = .ok plan) :
    ∃ revision, plan = ⟨pluginNamespaceText pluginKey, [.delete key], .deleted key revision⟩ ∧
      Changed core limits (.delete key : Operation Payload).Expects
        (db.own pluginKey) ((db.own pluginKey).erase key) [.deleted key revision] := by
  simp only [delete, bind_eq_ok] at h
  obtain ⟨ns, hns, found, hf, h⟩ := h
  obtain rfl := namespaceOf_ok hns
  split at h
  · next record =>
    have hr := (readRecord_ok hf).symm
    rw [ht key record hr] at h
    exact ⟨record.revision, (ok.inj h).symm, change_erase hr, fun _ _ => False.elim,
      fun hw => hw.erase key⟩
  · cases h

variable {seen : List StoreKey}

theorem applyChecked_ok (ht : Tidy records)
    (h : applyChecked core limits pluginKey seen records mutation = .ok applied) :
    mutation.key ∉ seen ∧ applied.2.touch.key = mutation.key ∧
      revisionAt records mutation.key = mutation.expectedRevision ∧
      Change core limits records applied.1 [applied.2.touch] := by
  simp only [applyChecked, guard_eq_ok, bind_eq_ok] at h
  obtain ⟨-, hnew, _, ha, hb, happlied⟩ := h
  rw [ok.inj happlied] at ha hb
  refine ⟨hnew, ?_⟩
  have hs : ∀ record ∈ applied.2.written, recordBytes core record ≤ limits.maxRecordBytes :=
    fun record hrecord => Nat.le_of_not_lt fun hlt => hb ⟨record, hrecord, hlt⟩
  cases mutation with
  | set _ _ _ expected =>
    simp only [applyMutation, bind_eq_ok] at ha
    obtain ⟨revision, hr, ha⟩ := ha
    obtain ⟨hn, he⟩ := revisionForWrite_ok hr
    cases ha
    exact ⟨rfl, he expected rfl, change_insert _ hn (hs _ rfl)⟩
  | patch key _ expected =>
    simp only [applyMutation] at ha
    split at ha
    · cases ha
    next current hc =>
    simp only [bind_eq_ok] at ha
    obtain ⟨revision, hr, payload, -, ha⟩ := ha
    obtain rfl := ht key current hc
    rw [← hc] at hr
    obtain ⟨hn, he⟩ := revisionForWrite_ok hr
    cases ha
    exact ⟨rfl, he expected rfl, change_insert { current with revision, payload } hn (hs _ rfl)⟩
  | delete _ expected =>
    simp only [applyMutation] at ha
    split at ha
    · cases ha
    next hc =>
    simp only [bind_eq_ok] at ha
    obtain ⟨revision, hr, ha⟩ := ha
    rw [← hc] at hr
    obtain ⟨-, he⟩ := revisionForWrite_ok hr
    cases ha
    exact ⟨rfl, he expected rfl, change_erase hc⟩

structure Applied (core : Core Payload) (limits : Limits)
    (seen : List StoreKey) (records candidate : Records Payload)
    (mutations : List (Mutation Payload)) (results : List (MutationResult Payload)) : Prop where
  new : ∀ mutation ∈ mutations, mutation.key ∉ seen
  keys : (results.map MutationResult.touch).map Touch.key = mutations.map Mutation.key
  expected : ∀ mutation ∈ mutations, revisionAt records mutation.key = mutation.expectedRevision
  change : Change core limits records candidate (results.map MutationResult.touch)

variable {results : List (MutationResult Payload)} {mutations : List (Mutation Payload)}

theorem applyMutations_ok (ht : Tidy records)
    (h : applyMutations core limits pluginKey i seen records mutations = .ok (c, results)) :
    Applied core limits seen records c mutations results := by
  induction mutations generalizing i seen records results with
  | nil =>
    obtain ⟨rfl, rfl⟩ := Prod.mk.inj (ok.inj h)
    exact ⟨nofun, rfl, nofun, .refl _⟩
  | cons m rest ih =>
    rw [applyMutations] at h
    split at h
    · cases h
    next ha =>
    simp only [bind_eq_ok] at h
    obtain ⟨⟨middle, l⟩, hr, h⟩ := h
    obtain ⟨rfl, rfl⟩ := Prod.mk.inj (ok.inj h)
    obtain ⟨hn, hk, he, hf⟩ := applyChecked_ok ht ha
    have ha := ih (hf.tidy ht) hr
    -- The later mutations have other keys, so the first has not touched their records.
    have ho : ∀ l ∈ rest, l.key ≠ m.key := fun l hl heq =>
      ha.new l hl (heq ▸ mem_cons_self)
    refine ⟨?_, ?_, ?_, hf.cons ha.change ?_⟩
    · rintro o hm
      rcases mem_cons.mp hm with rfl | hm
      · exact hn
      · exact fun hs => ha.new o hm (mem_cons_of_mem _ hs)
    · simp [map_cons, hk, ← ha.keys]
    · rintro o hm
      rcases mem_cons.mp hm with rfl | hm
      · exact he
      · rw [← ha.expected o hm, revisionAt, revisionAt, hf.outside]
        simpa [hk] using ho o hm
    · rw [ha.keys, hk]
      intro hm
      obtain ⟨l, hl, heq⟩ := mem_map.mp hm
      exact ho l hl heq

theorem apply_batchOp (c : Records Payload) (m : Mutation Payload) (records : Records Payload) :
    StoreOp.apply records (batchOp c m) = records.put m.key (c.lookup m.key) := by
  unfold batchOp
  split <;> simp_all [StoreOp.apply, put]

theorem lookup_foldl_batchOp (c : Records Payload) (mutations : List (Mutation Payload))
    (records : Records Payload) (key : StoreKey) :
    ((mutations.map (batchOp c)).foldl StoreOp.apply records).lookup key =
      if key ∈ mutations.map Mutation.key then c.lookup key else records.lookup key := by
  induction mutations generalizing records with
  | nil => simp
  | cons m _ ih =>
    rw [map_cons, foldl_cons, ih, apply_batchOp, lookup_put]
    by_cases hk : key = m.key
    · subst hk
      simp
    · simp [hk]

theorem Change.each {t : List (Touch Payload)} (h : Change core limits before after t)
    (hb : ∀ key, ∀ record ∈ before.lookup key, recordBytes core record ≤ limits.maxRecordBytes) :
    ∀ key, ∀ record ∈ after.lookup key, recordBytes core record ≤ limits.maxRecordBytes :=
  h.forall hb fun record hw => (h.written record hw).2.2

theorem within_of_snapshot (he : ∀ key, ∀ record ∈ records.lookup key,
      recordBytes core record ≤ limits.maxRecordBytes)
    (h : enforcePluginStoreSnapshotLimits core limits records = .ok u) :
    Within core limits records := by
  unfold enforcePluginStoreSnapshotLimits at h
  split at h
  · cases h
  split at h
  · cases h
  next hk hb => exact ⟨he, Nat.le_of_not_lt hk, Nat.le_of_not_lt hb⟩

theorem batch_ok (ht : Tidy (db.own pluginKey))
    (h : batch core limits turn db pluginKey mutations = .ok plan) :
    ∃ c results, mutations ≠ [] ∧
      plan = ⟨pluginNamespaceText pluginKey, mutations.map (batchOp c), .batch results⟩ ∧
      Changed core limits (Operation.batch mutations).Expects (db.own pluginKey)
        ((mutations.map (batchOp c)).foldl StoreOp.apply (db.own pluginKey))
        (results.map MutationResult.touch) := by
  simp only [batch, bind_eq_ok, mapError_eq_ok] at h
  obtain ⟨ns, hns, records, hrecords, ⟨c, results⟩, ha, hp⟩ := h
  obtain rfl := namespaceOf_ok hns
  have hr := lookup_readRecords ht hrecords
  simp only [applyPluginStoreBatch, guard_eq_ok, bind_eq_ok] at ha
  obtain ⟨hn, _, happlied, hl⟩ := ha
  split at hl
  · cases hl
  next hs =>
  cases hl
  have ht' : Tidy records := fun key record hrecord => ht key record (hr key ▸ hrecord)
  have h := applyMutations_ok ht' happlied
  -- What is written is the candidate.
  have hc : ∀ key, ((mutations.map (batchOp c)).foldl StoreOp.apply
      (db.own pluginKey)).lookup key = c.lookup key := by
    intro key
    rw [lookup_foldl_batchOp]
    split
    · rfl
    · rw [h.change.outside key (by rwa [h.keys]), hr]
  refine ⟨c, results, hn, (ok.inj hp).symm,
    h.change.congr (fun key => (hr key).symm) hc, ?_, fun hw => ?_⟩
  · rintro key revision ⟨m, hm, rfl, rfl⟩
    rw [revisionAt, ← hr]
    exact h.expected m hm
  · exact (within_of_snapshot (h.change.each (hw.congr hr).each) hs).congr hc

theorem get_ok (h : get core turn db pluginKey key = .ok plan) :
    ∃ record, plan = ⟨pluginNamespaceText pluginKey, [], .record record⟩ ∧
      (db.own pluginKey).lookup key = some record := by
  simp only [get, bind_eq_ok] at h
  obtain ⟨ns, hns, found, hf, h⟩ := h
  obtain rfl := namespaceOf_ok hns
  split at h
  · next record => exact ⟨record, (ok.inj h).symm, (readRecord_ok hf).symm⟩
  · cases h

/-- Nothing is changed, or the plugin's namespace by what is reported. -/
inductive Outcome (core : Core Payload) (limits : Limits) (db : Database Payload)
    (request : Request Payload) : Prop where
  | failed (failure : Failure) (h : execute core limits db request = (db, .error failure))
  | read (result : Result Payload) (h : execute core limits db request = (db, .ok result))
      (hreads : ∀ key revision, ¬request.operation.Expects key revision)
      (htouches : touches (.ok result) = [])
  | changed (after : Records Payload) (result : Result Payload)
      (h : execute core limits db request =
        (AList.insert (pluginNamespaceText request.pluginKey) after db, .ok result))
      (hchanged : Changed core limits request.operation.Expects
        (db.records (pluginNamespaceText request.pluginKey)) after (touches (.ok result)))

variable {e : StoreKey → ℕ → Prop}

theorem commit_changed (turn : Turn)
    (hns : plan.namespaceText = pluginNamespaceText pluginKey) (ho : plan.ops ≠ [])
    (hc : Changed core limits e (db.own pluginKey)
      (plan.ops.foldl StoreOp.apply (db.own pluginKey)) (touches (.ok plan.result))) :
    (∃ failure, commit turn db plan = (db, .error failure)) ∨
      ∃ after, commit turn db plan = (insert (pluginNamespaceText pluginKey) after db,
        .ok plan.result) ∧ Changed core limits e (db.own pluginKey) after
          (touches (.ok plan.result)) := by
  have he : plan.ops.isEmpty = false := by simpa using ho
  unfold commit
  rw [he]
  cases turn.writeError with
  | some => exact .inl ⟨_, rfl⟩
  | none =>
    refine .inr ⟨_, ?_, hc⟩
    rw [Database.own, ← hns]
    rfl

variable (core limits) in
theorem execute_outcome (r : Request Payload) (ht : Tidy (db.own r.pluginKey)) :
    Outcome core limits db r := by
  cases hprepare : prepare core r with
  | error => exact .failed _ (by rw [execute, hprepare])
  | ok =>
  cases hp : plan core limits r.turn db r.pluginKey r.operation with
  | error f => exact .failed f (by rw [execute, hprepare, hp])
  | ok plan =>
  have he : execute core limits db r = commit r.turn db plan := by
    rw [execute, hprepare, hp]
  -- The operations that write.
  have hw {e : StoreKey → ℕ → Prop} (hexpects : r.operation.Expects = e)
      (hns : plan.namespaceText = pluginNamespaceText r.pluginKey) (hops : plan.ops ≠ [])
      (hc : Changed core limits e (db.own r.pluginKey)
        (plan.ops.foldl StoreOp.apply (db.own r.pluginKey)) (touches (.ok plan.result))) :
      Outcome core limits db r := by
    rcases commit_changed r.turn hns hops hc with ⟨f, hcommit⟩ | ⟨after, hcommit, ha⟩
    · exact .failed f (he.trans hcommit)
    · exact .changed after plan.result (he.trans hcommit) (hexpects ▸ ha)
  cases ho : r.operation with
  | get =>
    rw [ho, Store.plan, mapError_eq_ok] at hp
    obtain ⟨record, rfl, -⟩ := get_ok hp
    exact .read _ he (by rw [ho]; exact fun _ _ => not_false) rfl
  | list =>
    simp only [ho, Store.plan, mapError_eq_ok, list, bind_eq_ok] at hp
    obtain ⟨_, -, _, -, hp⟩ := hp
    cases hp
    exact .read _ he (by rw [ho]; exact fun _ _ => not_false) rfl
  | set =>
    rw [ho, Store.plan, mapError_eq_ok] at hp
    obtain ⟨record, rfl, hc⟩ := set_ok ht hp
    exact hw (by rw [ho]) rfl (cons_ne_nil _ _) hc
  | patch =>
    rw [ho, Store.plan, mapError_eq_ok] at hp
    obtain ⟨record, rfl, hc⟩ := patch_ok ht hp
    exact hw (by rw [ho]) rfl (cons_ne_nil _ _) hc
  | delete =>
    rw [ho, Store.plan, mapError_eq_ok] at hp
    obtain ⟨revision, rfl, hc⟩ := delete_ok ht hp
    exact hw (by rw [ho]) rfl (cons_ne_nil _ _) hc
  | batch =>
    rw [ho, Store.plan] at hp
    obtain ⟨candidate, results, hn, rfl, hc⟩ := batch_ok ht hp
    exact hw (by rw [ho]) rfl (by simpa using hn) hc

variable (core limits) in
theorem change_execute (r : Request Payload)
    (htidy : Tidy (db.records (pluginNamespaceText r.pluginKey))) :
    Change core limits (db.records (pluginNamespaceText r.pluginKey))
      ((execute core limits db r).1.records (pluginNamespaceText r.pluginKey))
      (touches (execute core limits db r).2) := by
  cases execute_outcome core limits r htidy with
  | failed _ heq =>
    rw [heq]
    exact .refl _
  | read _ heq _ ht =>
    rw [heq, ht]
    exact .refl _
  | changed _ _ heq hc =>
    rw [heq, records_insert, if_pos rfl]
    exact hc.toChange

/-- A namespace holds its records under their keys, with revisions from one on and within the
limits. -/
structure Healthy (core : Core Payload) (limits : Limits) (records : Records Payload) : Prop where
  tidy : Tidy records
  positive : ∀ key, ∀ record ∈ records.lookup key, 1 ≤ record.revision
  within : Within core limits records

def Sound (core : Core Payload) (limits : Limits) (db : Database Payload) : Prop :=
  ∀ pluginKey, Healthy core limits (db.records (pluginNamespaceText pluginKey))

theorem sound_empty (core : Core Payload) (limits : Limits) :
    Sound core limits (∅ : Database Payload) := fun _ =>
  { tidy := fun _ _ h => absurd h (not_mem_none _)
    positive := fun _ _ h => absurd h (not_mem_none _)
    within := ⟨fun _ _ h => absurd h (not_mem_none _), Nat.zero_le _, Nat.zero_le _⟩ }

theorem Healthy.changed {t : List (Touch Payload)} (h : Healthy core limits before)
    (hc : Changed core limits e before after t) :
    Healthy core limits after where
  tidy := hc.tidy h.tidy
  positive := hc.forall h.positive fun record hw => by
    obtain ⟨-, hr, -⟩ := hc.written record hw
    omega
  within := hc.within h.within

theorem Sound.execute (h : Sound core limits db) (r : Request Payload) :
    Sound core limits (execute core limits db r).1 := by
  intro pluginKey
  by_cases ho : pluginKey = r.pluginKey
  · subst ho
    cases execute_outcome core limits r (h _).tidy with
    | failed _ heq | read _ heq => rw [heq]; exact h _
    | changed _ _ heq hc =>
      rw [heq, records_insert, if_pos rfl]
      exact (h _).changed hc
  · rw [records_execute core limits r ho]
    exact h pluginKey

theorem Sound.run (h : Sound core limits db) (r : List (Request Payload)) :
    Sound core limits (run core limits db r) := by
  induction r generalizing db with
  | nil => exact h
  | cons request _ ih => exact ih (h.execute request)

end BotsterHub.Store
