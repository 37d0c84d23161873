import Mathlib.Algebra.GroupWithZero.Nat
import Mathlib.Algebra.Order.BigOperators.Group.Finset
import Mathlib.Data.Finmap

/-!
Finite maps with unique keys, and sums over them.

A hash map is an `AList` of Mathlib. Added here are totals of a measure over the values, in any
commutative monoid, and how an insertion or removal moves them.
-/

abbrev Dict (κ : Type*) (ν : Type*) := AList (fun _ : κ => ν)

namespace AList

open scoped BigOperators AList

variable {κ ν ν' M : Type*} [DecidableEq κ] [AddCommMonoid M]

theorem lookup_insert_eq (m : Dict κ ν) (k j : κ) (v : ν) :
    (m.insert k v).lookup j = if j = k then some v else m.lookup j := by
  by_cases h : j = k
  · subst h
    simp
  · simp [h]

variable {m : Dict κ ν} {v : ν}

theorem forall_lookup_insert {k : κ} {P : κ → ν → Prop} (hn : P k v)
    (hold : ∀ j w, j ≠ k → m.lookup j = some w → P j w) (j : κ) (w : ν)
    (h : (m.insert k v).lookup j = some w) : P j w := by
  rw [lookup_insert_eq] at h
  split at h
  next heq =>
    cases h
    rwa [heq]
  next hne => exact hold j w hne h

theorem lookup_erase_eq (m : Dict κ ν) (k j : κ) :
    (m.erase k).lookup j = if j = k then none else m.lookup j := by
  by_cases h : j = k
  · subst h
    simp
  · simp [h]

theorem lookup_of_erase {k j : κ} (h : (m.erase k).lookup j = some v) : m.lookup j = some v := by
  rw [lookup_erase_eq] at h
  split at h
  · cases h
  · exact h

def total (m : Dict κ ν) (f : ν → M) : M := (m.entries.map fun e => f e.2).sum

omit [DecidableEq κ] in
@[simp] theorem total_empty (f : ν → M) : total (∅ : Dict κ ν) f = 0 := rfl

private theorem sum_map_kerase (l : List (Sigma fun _ : κ => ν)) (f : ν → M) (k : κ) (v : ν)
    (h : l.dlookup k = some v) :
    (l.map fun e => f e.2).sum = f v + ((l.kerase k).map fun e => f e.2).sum := by
  induction l with
  | nil => simp at h
  | cons e l ih =>
    by_cases hk : k = e.1
    · obtain ⟨j, w⟩ := e
      obtain rfl : k = j := hk
      obtain rfl : w = v := by simpa using h
      simp
    · rw [List.dlookup_cons_ne _ _ hk] at h
      rw [List.kerase_cons_ne hk, List.map_cons, List.map_cons, List.sum_cons, List.sum_cons,
        ih h, add_left_comm]

variable {k : κ}

section

variable (m : Dict κ ν)

section

variable (f : ν → M)

theorem total_erase {v : ν} (h : m.lookup k = some v) : m.total f = f v + (m.erase k).total f :=
  sum_map_kerase m.entries f k v h

theorem total_erase_of_none (h : m.lookup k = none) : (m.erase k).total f = m.total f := by
  have hk : k ∉ m.entries.keys := lookup_eq_none.mp h
  simp [total, erase, List.kerase_of_notMem_keys hk]

theorem total_insert_eq (k : κ) (v : ν) : (m.insert k v).total f = f v + (m.erase k).total f := by
  simp [total, erase]

theorem total_insert_of_none (v : ν)
    (h : m.lookup k = none) : (m.insert k v).total f = f v + m.total f := by
  rw [total_insert_eq, total_erase_of_none m f h]

theorem total_insert_of_some {v : ν} (w : ν)
    (h : m.lookup k = some v) : (m.insert k w).total f + f v = m.total f + f w := by
  rw [total_insert_eq, total_erase m f h, add_comm (f v), add_comm (f w), add_assoc, add_assoc,
    add_comm (f v)]

theorem total_insert_getD (k : κ) (w d : ν) (hd : f d = 0) :
    (m.insert k w).total f + f ((m.lookup k).getD d) = m.total f + f w := by
  cases h : m.lookup k with
  | none => simp [total_insert_of_none m f w h, hd, add_comm]
  | some => exact total_insert_of_some m f w h

end

end

omit [DecidableEq κ] in
theorem map_total {N : Type*} [AddCommMonoid N] (φ : M →+ N) (m : Dict κ ν) (f : ν → M) :
    φ (m.total f) = m.total (φ ∘ f) := by
  rw [total, total, map_list_sum, List.map_map]
  rfl

theorem mem_entries_of_lookup (h : m.lookup k = some v) :
    (⟨k, v⟩ : Sigma fun _ : κ => ν) ∈ m.entries :=
  mem_lookup_iff.mp h

theorem lookup_of_mem_entries {e : Sigma fun _ : κ => ν} (h : e ∈ m.entries) :
    m.lookup e.1 = some e.2 :=
  mem_lookup_iff.mpr h

theorem le_total (m : Dict κ ν) (f : ν → ℕ) (h : m.lookup k = some v) : f v ≤ m.total f := by
  rw [total_erase m f h]
  exact Nat.le_add_right _ _

theorem total_eq_sum (m : Dict κ ν) (f : ν → M) :
    m.total f = ∑ k ∈ m.keys.toFinset, (m.lookup k).elim 0 f := by
  rw [List.sum_toFinset _ m.keys_nodup, total, keys, List.keys, List.map_map]
  congr 1
  refine List.map_congr_left fun e he => ?_
  simp [lookup_of_mem_entries he]

theorem total_eq_sum_union (m m' : Dict κ ν) (f : ν → M) :
    m.total f = ∑ k ∈ m.keys.toFinset ∪ m'.keys.toFinset, (m.lookup k).elim 0 f := by
  rw [total_eq_sum]
  refine Finset.sum_subset Finset.subset_union_left fun k _ hk => ?_
  rw [lookup_eq_none.mpr fun hm => hk (List.mem_toFinset.mpr (mem_keys.mp hm))]
  rfl

theorem total_eq_of_lookup_eq (m m' : Dict κ ν) (f : ν → M)
    (h : ∀ k, (m.lookup k).elim 0 f = (m'.lookup k).elim 0 f) : m.total f = m'.total f := by
  rw [total_eq_sum_union m m', total_eq_sum_union m' m, Finset.union_comm]
  exact Finset.sum_congr rfl fun k _ => h k

theorem mem_total {α : Type*} (m : Dict κ ν) (f : ν → Multiset α) (a : α) :
    a ∈ m.total f ↔ ∃ k v, m.lookup k = some v ∧ a ∈ f v := by
  have hs (l : List (Sigma fun _ : κ => ν)) :
      a ∈ (l.map fun e => f e.2).sum ↔ ∃ e ∈ l, a ∈ f e.2 := by
    induction l with
    | nil => simp
    | cons e l ih => simp [ih]
  rw [total, hs]
  constructor
  · rintro ⟨e, he, ha⟩
    exact ⟨e.1, e.2, lookup_of_mem_entries he, ha⟩
  · rintro ⟨k, v, h, ha⟩
    exact ⟨⟨k, v⟩, mem_entries_of_lookup h, ha⟩

theorem total_le_of_lookup_le [PartialOrder M] [IsOrderedAddMonoid M] (m m' : Dict κ ν)
    (f : ν → M) (h : ∀ k, (m.lookup k).elim 0 f ≤ (m'.lookup k).elim 0 f) :
    m.total f ≤ m'.total f := by
  rw [total_eq_sum_union m m', total_eq_sum_union m' m, Finset.union_comm]
  exact Finset.sum_le_sum fun k _ => h k

variable (f : κ → ν → Option ν')

def filterMapVal (m : Dict κ ν) : Dict κ ν' where
  entries := m.entries.filterMap fun e => (f e.1 e.2).map (Sigma.mk e.1)
  nodupKeys := by
    obtain ⟨l, hl⟩ := m
    induction l with
    | nil => simp
    | cons e l ih =>
      have hl' := List.nodupKeys_cons.mp hl
      cases hf : f e.1 e.2 with
      | none => simpa [hf] using ih hl'.2
      | some =>
        simp only [List.filterMap_cons, hf, Option.map_some, List.nodupKeys_cons]
        refine ⟨fun hmem => hl'.1 ?_, ih hl'.2⟩
        obtain ⟨v, hv⟩ := List.mem_keys.mp hmem
        obtain ⟨a, ha, hav⟩ := List.mem_filterMap.mp hv
        obtain ⟨u, -, hu⟩ := Option.map_eq_some_iff.mp hav
        obtain ⟨h1, -⟩ := Sigma.mk.inj_iff.mp hu
        exact h1 ▸ List.mem_keys_of_mem ha

private theorem dlookup_filterMap (l : List (Sigma fun _ : κ => ν)) (hl : l.NodupKeys) (k : κ) :
    (l.filterMap fun e => (f e.1 e.2).map (Sigma.mk (β := fun _ => ν') e.1)).dlookup k =
      (l.dlookup k).bind (f k) := by
  induction l with
  | nil => simp
  | cons e l ih =>
    have hl' := List.nodupKeys_cons.mp hl
    obtain ⟨j, v⟩ := e
    by_cases hk : k = j
    · subst hk
      have hr : l.dlookup k = none := List.dlookup_eq_none.mpr hl'.1
      cases hf : f k v with
      | none => simp [hf, ih hl'.2, hr]
      | some => simp [hf]
    · cases hf : f j v with
      | none =>
        rw [List.filterMap_cons, List.dlookup_cons_ne _ _ hk]
        simpa [hf] using ih hl'.2
      | some =>
        rw [List.filterMap_cons, List.dlookup_cons_ne _ _ hk]
        simp only [hf, Option.map_some]
        rw [List.dlookup_cons_ne _ _ hk]
        exact ih hl'.2

@[simp] theorem lookup_filterMapVal (m : Dict κ ν) (k : κ) :
    (filterMapVal f m).lookup k = (m.lookup k).bind (f k) :=
  dlookup_filterMap f m.entries m.nodupKeys k

def retain (m : Dict κ ν) (p : κ → ν → Bool) : Dict κ ν :=
  m.filterMapVal fun k v => if p k v then some v else none

theorem lookup_retain (m : Dict κ ν) (p : κ → ν → Bool) (k : κ) :
    (m.retain p).lookup k = (m.lookup k).filter (p k) := by
  rw [retain, lookup_filterMapVal]
  cases m.lookup k <;> rfl

theorem lookup_of_retain {p : κ → ν → Bool}
    (h : (m.retain p).lookup k = some v) : m.lookup k = some v := by
  rw [lookup_retain, Option.filter_eq_some_iff] at h
  exact h.1

def orInsert (m : Dict κ ν) (k : κ) (v : ν) : Dict κ ν :=
  match m.lookup k with
  | some _ => m
  | none => m.insert k v

def put (m : Dict κ ν) (k : κ) : Option ν → Dict κ ν
  | some v => m.insert k v
  | none => m.erase k

@[simp] theorem lookup_put (m : Dict κ ν) (k j : κ) (o : Option ν) :
    (m.put k o).lookup j = if j = k then o else m.lookup j := by
  cases o with
  | none => exact lookup_erase_eq m k j
  | some v => exact lookup_insert_eq m k j v

private theorem lookup_foldl_orInsert (g : κ → ν) (l : List κ) (m : Dict κ ν) (j : κ) :
    (l.foldl (fun m k => m.orInsert k (g k)) m).lookup j =
      (m.lookup j).or (if j ∈ l then some (g j) else none) := by
  induction l generalizing m with
  | nil => simp
  | cons k l ih =>
    rw [List.foldl_cons, ih, orInsert]
    cases h : m.lookup k with
    | some =>
      by_cases hj : j = k
      · subst hj
        simp [h]
      · simp [hj]
    | none =>
      rw [lookup_insert_eq]
      by_cases hj : j = k
      · subst hj
        simp [h]
      · simp [hj]

private theorem foldl_set_view {σ ω : Type*} (step : σ → (Sigma fun _ : κ => ν) → σ)
    (view : σ → κ → ω) (value : ν → ω)
    (hs : ∀ s e j, view (step s e) j = if j = e.1 then value e.2 else view s j)
    (m : Dict κ ν) (s : σ) (j : κ) :
    view (m.entries.foldl step s) j = ((m.lookup j).map value).getD (view s j) := by
  have hlist (l : List (Sigma fun _ : κ => ν)) (hl : l.NodupKeys) (s : σ) :
      view (l.foldl step s) j = ((l.dlookup j).map value).getD (view s j) := by
    induction l generalizing s with
    | nil => simp
    | cons e l ih =>
      have hl' := List.nodupKeys_cons.mp hl
      rw [List.foldl_cons, ih hl'.2, hs]
      obtain ⟨k, v⟩ := e
      by_cases hj : j = k
      · subst hj
        have hr : l.dlookup j = none := List.dlookup_eq_none.mpr hl'.1
        simp [hr]
      · rw [List.dlookup_cons_ne _ _ hj, if_neg hj]
  exact hlist m.entries m.nodupKeys s

/-- Saving the keys of a list and restoring them gives back the saved state. -/
theorem foldl_restore {σ ω : Type*} (step : σ → (Sigma fun _ : κ => ν) → σ) (view : σ → κ → ω)
    (value : ν → ω)
    (hstep : ∀ s e j, view (step s e) j = if j = e.1 then value e.2 else view s j)
    (g : κ → ν) (l : List κ) (s : σ) (hs : ∀ j ∉ l, view s j = value (g j)) (j : κ) :
    view ((l.foldl (fun m k => m.orInsert k (g k)) (∅ : Dict κ ν)).entries.foldl step s) j =
      value (g j) := by
  rw [foldl_set_view step view value hstep, lookup_foldl_orInsert]
  by_cases hj : j ∈ l
  · simp [hj]
  · simp [hj, hs j hj]

end AList
