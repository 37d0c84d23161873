import BotsterHub.Session.Projection

/-!
Patches of session rows (`SessionProjection::entity_patch`). A subscriber that holds a
row already is sent the fields that changed, and merges them into its row.
-/

namespace BotsterHub

open List

namespace Json

/-- A client applies a patch: its fields take the place of those with the same keys. -/
def mergePatch : Json → Json → Json
  | obj fields, obj patch => obj (patch ++ fields.filter fun field => (patch.lookup field.1).isNone)
  | _, patch => patch

theorem lookup_field (key : String) (field : String × Json) (fields : List (String × Json)) :
    (field :: fields).lookup key = if key = field.1 then some field.2 else fields.lookup key := by
  rw [lookup_cons]
  by_cases h : key = field.1
  · simp [h]
  · simp [h, beq_eq_false_iff_ne.mpr h]

/-- With one field to a key, a filter takes the field or leaves the key without a value. -/
theorem lookup_filter (p : String × Json → Bool) {fields : List (String × Json)}
    (h : (fields.map Prod.fst).Nodup) (key : String) :
    (fields.filter p).lookup key = (fields.lookup key).filter fun value => p (key, value) := by
  induction fields with
  | nil => rfl
  | cons field fields ih =>
    rw [map_cons, nodup_cons] at h
    have hrest := ih h.2
    rw [lookup_field, filter_cons]
    by_cases hk : key = field.1
    · have hn : fields.lookup key = none := by
        rw [lookup_eq_none_iff]
        intro other ho
        have hne : key ≠ other.1 := fun he => h.1 (hk ▸ he ▸ mem_map_of_mem ho)
        simpa using hne
      rw [hn] at hrest
      subst hk
      split <;> simp [lookup_field, Option.filter, *]
    · split <;> simp [lookup_field, hk, hrest]

theorem get?_mergePatch {fields : List (String × Json)} (h : (fields.map Prod.fst).Nodup)
    (patch : List (String × Json)) (key : String) :
    ((obj fields).mergePatch (obj patch)).get? key = (patch.lookup key).or (fields.lookup key) := by
  refine lookup_append.trans ?_
  rw [lookup_filter _ h]
  cases hp : patch.lookup key <;> cases fields.lookup key <;> simp [hp, Option.filter]

end Json

namespace Session

namespace DaemonSessionEntity

theorem optional_keys (key : String) (value : Option String) :
    (optional key value).map Prod.fst <+ [key] := by
  cases value <;> simp [optional]

theorem fields_nodup (entity : DaemonSessionEntity) : (entity.fields.map Prod.fst).Nodup := by
  have hcode : (entity.exitCode.toList.map fun code => ("exit_code", Json.num code)).map
      Prod.fst <+ ["exit_code"] := by cases entity.exitCode <;> simp
  have hs := (((((((((((Sublist.refl ["cols"]).append hcode).append
    (optional_keys "failure_reason" entity.failureReason)).append
    (optional_keys "interaction" entity.interaction)).append
    (optional_keys "lifecycle" entity.lifecycle)).append
    (Sublist.refl ["lifecycle_class", "registry_state"])).append
    (optional_keys "role" entity.role)).append (Sublist.refl ["rows"])).append
    (optional_keys "session_type_id" entity.sessionTypeId)).append
    (optional_keys "session_type_lifecycle" entity.sessionTypeLifecycle)).append
    (optional_keys "session_type_source" entity.sessionTypeSource)).append
    (Sublist.refl ["session_uuid", "traits", "updated_at"])
  rw [fields]
  simp only [map_append]
  exact hs.nodup (by decide)

end DaemonSessionEntity

/-- `SessionProjection::entity_patch`: the fields that the old encoding has not, or has with another
value. -/
def entityPatch (previous current : DaemonSessionEntity) : Json :=
  .obj (current.fields.filter fun field => previous.fields.lookup field.1 ≠ some field.2)

/-- A merged row has the new value of every key of the new encoding. Of the others it keeps the old
value, since a patch names no field that is gone. -/
theorem get?_merge_entityPatch (p c : DaemonSessionEntity) :
    (∀ key, (p.toJson.mergePatch (entityPatch p c)).get? key =
      (c.toJson.get? key).or (p.toJson.get? key)) ∧
    ((∀ key, (p.toJson.get? key).isSome → (c.toJson.get? key).isSome) →
      ∀ key, (p.toJson.mergePatch (entityPatch p c)).get? key = c.toJson.get? key) := by
  have hmerged : ∀ key, (p.toJson.mergePatch (entityPatch p c)).get? key =
      (c.toJson.get? key).or (p.toJson.get? key) := by
    intro key
    refine (Json.get?_mergePatch p.fields_nodup ..).trans ?_
    rw [Json.lookup_filter _ c.fields_nodup]
    change _ = (c.fields.lookup key).or (p.fields.lookup key)
    cases c.fields.lookup key with
    | none => rfl
    | some value => by_cases hv : p.fields.lookup key = some value <;> simp [Option.filter, hv]
  refine ⟨hmerged, fun hkeys key => (hmerged key).trans ?_⟩
  cases hc : c.toJson.get? key with
  | some value => rfl
  | none =>
    cases hp : p.toJson.get? key with
    | none => rfl
    | some value => simpa [hp, hc] using hkeys key

/-- A session ends, later its row is stale without a lifecycle: the merged row still says that it
exited. -/
theorem merge_keeps_lifecycle :
    let row registryState lifecycle := projectEntity (fun _ => none)
      ⟨"session", registryState, 24, 80, 1, ∅, lifecycle⟩
    let p := row .exited (some (.exited none))
    let c := row .stale none
    p.sessionUuid = c.sessionUuid ∧
      (p.toJson.mergePatch (entityPatch p c)).get? "lifecycle" = some (.str "exited") ∧
      c.toJson.get? "lifecycle" = none := by
  decide

end Session

end BotsterHub
