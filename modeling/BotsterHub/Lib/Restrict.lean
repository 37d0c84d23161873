import BotsterHub.Lib.Dict

/-!
Restricting a map to the entries of one owner. A change at a key moves the restriction to its
owner's entries as it moves the map, and leaves the others alone, unless the key holds somebody
else's entry.
-/

namespace AList

open AList

variable {κ ν : Type*} [DecidableEq κ]

section

variable {l : List (Sigma fun _ : κ => ν)} {q : (Sigma fun _ : κ => ν) → Bool}

private theorem kerase_filter (hl : l.NodupKeys) (k : κ) :
    (l.filter q).kerase k = (l.kerase k).filter q := by
  induction l with
  | nil => rfl
  | cons e l ih =>
    have hl' := List.nodupKeys_cons.mp hl
    by_cases hk : k = e.1
    · have hr : k ∉ (l.filter q).keys := fun hm => by
        obtain ⟨v, hv⟩ := List.mem_keys.mp hm
        exact hl'.1 (hk ▸ List.mem_keys.mpr ⟨v, (List.mem_filter.mp hv).1⟩)
      rw [List.kerase_cons_eq hk, List.filter_cons]
      split
      · exact List.kerase_cons_eq hk
      · exact List.kerase_of_notMem_keys hr
    · rw [List.kerase_cons_ne hk, List.filter_cons, List.filter_cons]
      split
      · rw [List.kerase_cons_ne hk, ih hl'.2]
      · exact ih hl'.2

end

variable (m : Dict κ ν) (p : κ → ν → Bool)

omit [DecidableEq κ] in
theorem entries_retain : (m.retain p).entries = m.entries.filter fun e => p e.1 e.2 := by
  simp only [retain, filterMapVal]
  induction m.entries with
  | nil => rfl
  | cons e l ih =>
    rw [List.filterMap_cons, List.filter_cons, ← ih]
    cases h : p e.1 e.2 <;> simp

theorem retain_erase (k : κ) : (m.erase k).retain p = (m.retain p).erase k := by
  apply ext
  rw [entries_retain]
  show (m.entries.kerase k).filter _ = ((m.retain p).entries).kerase k
  rw [entries_retain, kerase_filter m.nodupKeys]

theorem retain_insert {k : κ} {v : ν} (h : p k v = true) :
    (m.insert k v).retain p = (m.retain p).insert k v := by
  apply ext
  rw [entries_retain, entries_insert, entries_insert, entries_retain,
    List.filter_cons_of_pos (by exact h), kerase_filter m.nodupKeys]

theorem retain_erase_of_not {k : κ} (h : ∀ v ∈ m.lookup k, p k v = false) :
    (m.erase k).retain p = m.retain p := by
  rw [retain_erase]
  apply ext
  apply List.kerase_of_notMem_keys
  show k ∉ (m.retain p).keys
  rw [← mem_keys, ← lookup_eq_none, lookup_retain, Option.filter_eq_none_iff]
  intro v hv
  simp [h v hv]

theorem retain_insert_of_not {k : κ} {v : ν} (h : p k v = false)
    (hold : ∀ w ∈ m.lookup k, p k w = false) : (m.insert k v).retain p = m.retain p := by
  rw [← retain_erase_of_not m p hold]
  apply ext
  rw [entries_retain, entries_insert, List.filter_cons_of_neg (by simp [h]), entries_retain]
  rfl

end AList
