import BotsterHub.Store.Changes

/-!
Compare and set.

A revision that a caller has read guards its write: the write succeeds only at that revision. A
deleted key starts again at revision one, so the caller cannot tell a record from a later one with
the same revision.
-/

namespace BotsterHub.Store

open Capability RuntimeError

section

variable {Payload : Type} (core : Core Payload) (limits : Limits) (pluginKey : PluginKey)
  (key : StoreKey)

def currentRevision (db : Database Payload) : ℕ :=
  revisionAt (db.records (pluginNamespaceText pluginKey)) key

def Writes (db : Database Payload) (request : Request Payload) : Prop :=
  request.pluginKey = pluginKey ∧
    ∃ record, .written record ∈ touches (execute core limits db request).2 ∧ record.key = key

def Deletes (db : Database Payload) (request : Request Payload) : Prop :=
  request.pluginKey = pluginKey ∧
    ∃ revision, .deleted key revision ∈ touches (execute core limits db request).2

def During (kind : Database Payload → Request Payload → Prop) :
    Database Payload → List (Request Payload) → Prop
  | _, [] => False
  | db, request :: rest => kind db request ∨ During kind (execute core limits db request).1 rest

/-- The revision that an answer to a `get` shows: that of the record, or zero for no record. -/
def observed : Except Failure (Result Payload) → Option ℕ
  | .ok (.record record) => some record.revision
  | .error failure => if failure.error = notFound then some 0 else none
  | _ => none

end

section

variable {Payload : Type} {core : Core Payload} {limits : Limits} {pluginKey : PluginKey}
  {key : StoreKey} {db : Database Payload} {request : Request Payload}

variable {b after : Records Payload}

theorem Change.revisionAt_written (h : Change core limits b after t) (hw : .written r ∈ t) :
    revisionAt after r.key = revisionAt b r.key + 1 := by
  obtain ⟨hl, hr, -⟩ := h.written r hw
  rw [revisionAt, hl]
  exact hr

theorem Change.revisionAt_le (h : Change core limits b after t) (hd : ∀ r, .deleted key r ∉ t) :
    revisionAt b key ≤ revisionAt after key := by
  by_cases hk : key ∈ t.map Touch.key
  · obtain ⟨touch, ht, rfl⟩ := List.mem_map.mp hk
    cases touch with
    | written =>
      rw [Touch.key, h.revisionAt_written ht]
      exact Nat.le_succ _
    | deleted _ r => exact absurd ht (hd r)
  · rw [revisionAt, revisionAt, h.outside key hk]

theorem currentRevision_execute (h : Sound core limits db)
    (hd : ¬Deletes core limits pluginKey key db request) :
    currentRevision pluginKey key db ≤
        currentRevision pluginKey key (execute core limits db request).1 ∧
      (Writes core limits pluginKey key db request →
        currentRevision pluginKey key (execute core limits db request).1 =
          currentRevision pluginKey key db + 1) := by
  by_cases ho : request.pluginKey = pluginKey
  · subst ho
    have hc := change_execute core limits request (h _).tidy
    refine ⟨hc.revisionAt_le fun r hdeleted => hd ⟨rfl, r, hdeleted⟩, ?_⟩
    rintro ⟨-, record, hw, rfl⟩
    exact hc.revisionAt_written hw
  · unfold currentRevision
    rw [records_execute core limits request (Ne.symm ho)]
    exact ⟨le_rfl, fun hwrites => absurd hwrites.1 ho⟩

theorem currentRevision_run (h : Sound core limits db)
    (hd : ¬During core limits (Deletes core limits pluginKey key) db r) :
    currentRevision pluginKey key db ≤ currentRevision pluginKey key (run core limits db r) ∧
      (During core limits (Writes core limits pluginKey key) db r →
        currentRevision pluginKey key db <
          currentRevision pluginKey key (run core limits db r)) := by
  induction r generalizing db with
  | nil => exact ⟨le_rfl, nofun⟩
  | cons request _ ih =>
    obtain ⟨hf, hr⟩ := not_or.mp hd
    obtain ⟨hle, hw⟩ := currentRevision_execute h hf
    obtain ⟨hle', hw'⟩ := ih (h.execute request) hr
    refine ⟨hle.trans hle', ?_⟩
    rintro (hwrite | hwrite)
    · exact Nat.lt_of_lt_of_le (by rw [hw hwrite]; exact Nat.lt_succ_self _) hle'
    · exact Nat.lt_of_le_of_lt hle (hw' hwrite)

theorem currentRevision_of_ok (h : Sound core limits db) (he : request.operation.Expects key r)
    (hok : (execute core limits db request).2 = .ok result) :
    currentRevision request.pluginKey key db = r := by
  cases execute_outcome core limits request (h _).tidy with
  | failed _ heq =>
    rw [heq] at hok
    cases hok
  | read _ _ hr => exact absurd he (hr key r)
  | changed _ _ _ hc => exact hc.expected key r he

theorem prepare_ne_notFound (request : Request Payload) :
    prepare core request ≠ .error notFound := by
  unfold prepare ensurePluginNamespaceGrant validateStoreOperation
  intro h
  rcases Except.bind_eq_error.mp h with hg | ⟨-, -, hv⟩
  · split at hg
    · cases hg
    · split at hg <;> cases hg
  dsimp only at hv
  split at hv
  all_goals first
    | cases hv
    | (split at hv <;> cases hv)

theorem readRecord_ne_notFound (turn : Turn) (db : Database Payload) (pluginKey : PluginKey)
    (ns : String) (key : StoreKey) : readRecord turn db pluginKey ns key ≠ .error notFound := by
  unfold readRecord readCheck checkRecordOwner
  intro h
  rcases Except.bind_eq_error.mp h with hr | ⟨-, -, h⟩
  · split at hr <;> cases hr
  split at h
  · cases h
  rcases Except.bind_eq_error.mp h with ho | ⟨-, -, h⟩
  · split at ho <;> cases ho
  · cases h

theorem lookup_of_get_notFound (h : get core turn db pluginKey key = .error notFound) :
    (db.records (pluginNamespaceText pluginKey)).lookup key = none := by
  rcases Except.bind_eq_error.mp h with hns | ⟨ns, hns, h⟩
  · unfold namespaceOf at hns
    split at hns <;> cases hns
  obtain rfl := namespaceOf_ok hns
  rcases Except.bind_eq_error.mp h with hr | ⟨found, hf, h⟩
  · exact absurd hr (readRecord_ne_notFound _ _ _ _ _)
  split at h
  · cases h
  · exact (readRecord_ok hf).symm

theorem currentRevision_of_observed (hg : request.operation = .get key)
    (ho : observed (execute core limits db request).2 = some r) :
    currentRevision request.pluginKey key db = r := by
  cases hp : prepare core request with
  | error error =>
    have hne : error ≠ notFound := fun heq => prepare_ne_notFound request (heq ▸ hp)
    simp [execute, hp, observed, whole, hne] at ho
  | ok =>
    have hplan : plan core limits request.turn db request.pluginKey request.operation =
        (get core request.turn db request.pluginKey key).mapError whole := by
      rw [hg, plan]
    cases hr : get core request.turn db request.pluginKey key with
    | error =>
      simp only [execute, hp, hplan, hr, Except.mapError, observed, whole] at ho
      split at ho
      · next heq =>
        subst heq
        rw [← Option.some.inj ho, currentRevision, revisionAt, lookup_of_get_notFound hr]
        rfl
      · cases ho
    | ok =>
      obtain ⟨record, rfl, hl⟩ := get_ok hr
      simp only [execute, hp, hplan, hr, Except.mapError, commit, List.isEmpty_nil,
        if_true, observed] at ho
      rw [currentRevision, revisionAt, hl]
      exact Option.some.inj ho

/-- A write that expects a revision read by a caller succeeds only while the key has that revision,
and after another write only if the key was deleted as well. Each write raises the revision of its
key by one. Namespaces are within the limits. -/
structure Contract (core : Core Payload) (limits : Limits) (db : Database Payload) : Prop where
  guarded : ∀ (read : Request Payload) (between : List (Request Payload)) (write : Request Payload)
    (key : StoreKey) (revision : ℕ) (result : Result Payload), read.operation = .get key →
    observed (execute core limits db read).2 = some revision →
    write.pluginKey = read.pluginKey → write.operation.Expects key revision →
    (execute core limits (run core limits db between) write).2 = .ok result →
    currentRevision read.pluginKey key (run core limits db between) = revision ∧
      (During core limits (Writes core limits read.pluginKey key) db between →
        During core limits (Deletes core limits read.pluginKey key) db between)
  raises : ∀ (request : Request Payload) (record : StoreRecord Payload),
    .written record ∈ touches (execute core limits db request).2 →
    ((execute core limits db request).1.records
      (pluginNamespaceText request.pluginKey)).lookup record.key = some record ∧
    record.revision = currentRevision request.pluginKey record.key db + 1
  within : ∀ pluginKey, Within core limits (db.records (pluginNamespaceText pluginKey))

/-- Compare and set holds in every database that requests reach. -/
theorem run_compare_and_set (core : Core Payload) (limits : Limits)
    (requests : List (Request Payload)) : Contract core limits (run core limits ∅ requests) := by
  have hsound := (sound_empty core limits).run requests
  refine ⟨fun read between write key revision result hget hobserved hplugin hexpects hok =>
    ?_, fun request record hwritten => ?_, fun pluginKey => (hsound pluginKey).within⟩
  · have hthen := currentRevision_of_observed hget hobserved
    have hnow := currentRevision_of_ok (hsound.run between) hexpects hok
    rw [hplugin] at hnow
    refine ⟨hnow, fun hwrites => by_contra fun hdeletes => ?_⟩
    have hrose := (currentRevision_run hsound hdeletes).2 hwrites
    omega
  · obtain ⟨hlookup, hrevision, -⟩ :=
      (change_execute core limits request (hsound _).tidy).written record hwritten
    exact ⟨hlookup, hrevision⟩

end

def textCore : Core String where
  payloadBytes := String.length
  applyMergePatch _ change := .ok change
  isValid key := key != ""
  namespaceError _ := none

def defaultLimits : Limits := ⟨65536, 1024, 4194304⟩

def calm (operation : Operation String) : Request String :=
  { pluginKey := "pipelines", namespaceText := "pipelines", granted := true, operation
    turn := ⟨fun _ => none, fun _ => 999, none⟩ }

def create (payload : String) : Request String := calm (.set "ticket" 1 payload (some 0))

/-- The key is deleted and created again after it was read; the write that expects revision one
succeeds. -/
theorem recreated_key_matches :
    observed (execute textCore defaultLimits (run textCore defaultLimits ∅ [create "open"])
      (calm (.get "ticket"))).2 = some 1 ∧
    During textCore defaultLimits (Deletes textCore defaultLimits "pipelines" "ticket")
      (run textCore defaultLimits ∅ [create "open"]) [calm (.delete "ticket"), create "new"] ∧
    ∃ result, (execute textCore defaultLimits
      (run textCore defaultLimits ∅ [create "open", calm (.delete "ticket"), create "new"])
      (calm (.set "ticket" 1 "stale" (some 1)))).2 = .ok result := by
  refine ⟨by decide +kernel, .inl ⟨rfl, 1, by decide +kernel⟩, ?_⟩
  exact ⟨.written ⟨"pipelines", "ticket", 1, 2, "stale"⟩, by decide +kernel⟩

end BotsterHub.Store
