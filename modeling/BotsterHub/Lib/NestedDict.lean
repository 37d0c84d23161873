import BotsterHub.Lib.Dict

/-!
Maps of maps.

A bucket that is absent and a bucket that is empty hold the same values, so the
lemmas read a two-level map through `get₂` and total it over both levels.
-/

namespace AList

variable {κ ι ν M : Type*} [DecidableEq κ] [DecidableEq ι] [AddCommMonoid M]

def isEmpty (m : Dict κ ν) : Bool := m.entries.isEmpty

theorem isEmpty_iff {m : Dict κ ν} : m.isEmpty ↔ ∀ k, m.lookup k = none := by
  obtain ⟨l, hl⟩ := m
  cases l with
  | nil => simp [isEmpty, lookup]
  | cons e =>
    simp only [isEmpty, List.isEmpty_cons, Bool.false_eq_true, false_iff, not_forall]
    obtain ⟨k, v⟩ := e
    exact ⟨k, by simp [lookup]⟩

theorem isEmpty_eq_false_of_lookup {m : Dict κ ν} {k : κ} {v : ν} (h : m.lookup k = some v) :
    m.isEmpty = false := by
  rw [← Bool.not_eq_true, isEmpty_iff]
  intro ha
  simp [ha k] at h

variable (m : Dict κ (Dict ι ν))

def get₂ (k : κ) (i : ι) : Option ν := (m.lookup k).bind (lookup i)

def insert₂ (k : κ) (i : ι) (v : ν) : Dict κ (Dict ι ν) :=
  m.insert k (((m.lookup k).getD ∅).insert i v)

section

variable (m : Dict κ (Dict ι ν))

theorem get₂_eq_getD (k : κ) (i : ι) : m.get₂ k i = ((m.lookup k).getD ∅).lookup i := by
  rw [get₂]
  cases m.lookup k <;> simp

theorem get₂_insert_eq (k j : κ) (i : ι) (b : Dict ι ν) :
    (m.insert k b).get₂ j i = if j = k then b.lookup i else m.get₂ j i := by
  rw [get₂, lookup_insert_eq]
  split <;> rfl

theorem get₂_erase_eq (k j : κ) (i : ι) :
    (m.erase k).get₂ j i = if j = k then none else m.get₂ j i := by
  rw [get₂, lookup_erase_eq]
  split <;> rfl

theorem get₂_insert₂ (k j : κ) (i l : ι) (v : ν) :
    (m.insert₂ k i v).get₂ j l = if j = k ∧ l = i then some v else m.get₂ j l := by
  rw [insert₂, get₂_insert_eq, lookup_insert_eq, ← get₂_eq_getD]
  by_cases hj : j = k
  · subst hj
    simp
  · simp [hj]

end

def setBucket (k : κ) (bucket : Dict ι ν) : Dict κ (Dict ι ν) :=
  if bucket.isEmpty then m.erase k else m.insert k bucket

theorem get₂_setBucket (k j : κ) (b : Dict ι ν) (i : ι) :
    (m.setBucket k b).get₂ j i = if j = k then b.lookup i else m.get₂ j i := by
  unfold setBucket
  split
  · next he =>
    rw [get₂_erase_eq]
    split
    · exact (isEmpty_iff.mp he i).symm
    · rfl
  · rw [get₂_insert_eq]

omit [DecidableEq ι] in
theorem total_setBucket (f : Dict ι ν → M)
    (hf : ∀ b : Dict ι ν, b.isEmpty → f b = 0) (k : κ) (b : Dict ι ν) :
    (m.setBucket k b).total f + f ((m.lookup k).getD ∅) = m.total f + f b := by
  unfold setBucket
  split
  · next he =>
    rw [hf b he, add_zero]
    cases h : m.lookup k with
    | none => rw [total_erase_of_none m f h, Option.getD_none, hf ∅ rfl, add_zero]
    | some => rw [total_erase m f h, Option.getD_some, add_comm]
  · exact total_insert_getD m f k b ∅ (hf ∅ rfl)

def total₂ (f : ν → M) : M := m.total fun bucket => bucket.total f

omit [DecidableEq ι] in
private theorem elim_total (f : ν → M) (k : κ) :
    (m.lookup k).elim 0 (fun b => b.total f) = ((m.lookup k).getD ∅).total f := by
  cases m.lookup k <;> rfl

theorem total₂_eq_of_get₂_eq (m m' : Dict κ (Dict ι ν)) (f : ν → M)
    (h : ∀ k i, (m.get₂ k i).elim 0 f = (m'.get₂ k i).elim 0 f) : m.total₂ f = m'.total₂ f := by
  refine total_eq_of_lookup_eq _ _ _ fun k => ?_
  rw [elim_total, elim_total]
  refine total_eq_of_lookup_eq _ _ _ fun i => ?_
  rw [← get₂_eq_getD, ← get₂_eq_getD, h]

theorem total₂_le_of_get₂_le [PartialOrder M] [IsOrderedAddMonoid M] (m m' : Dict κ (Dict ι ν))
    (f : ν → M) (h : ∀ k i, (m.get₂ k i).elim 0 f ≤ (m'.get₂ k i).elim 0 f) :
    m.total₂ f ≤ m'.total₂ f := by
  refine total_le_of_lookup_le _ _ _ fun k => ?_
  rw [elim_total, elim_total]
  refine total_le_of_lookup_le _ _ _ fun i => ?_
  rw [← get₂_eq_getD, ← get₂_eq_getD]
  exact h k i

theorem total₂_insert₂_getD (f : ν → M) (k : κ) (i : ι) (w d : ν) (hd : f d = 0) :
    (m.insert₂ k i w).total₂ f + f ((m.get₂ k i).getD d) = m.total₂ f + f w := by
  have hi := total_insert_getD ((m.lookup k).getD ∅) f i w d hd
  rw [← get₂_eq_getD] at hi
  -- both totals are the bucket of `k` plus the other buckets
  have hs : m.total₂ f = ((m.lookup k).getD ∅).total f + (m.erase k).total₂ f := by
    cases h : m.lookup k with
    | none =>
      rw [total₂, ← total_erase_of_none m _ h, Option.getD_none, total_empty, zero_add]
      rfl
    | some => exact total_erase m _ h
  have hs' : (m.insert₂ k i w).total₂ f =
      (((m.lookup k).getD ∅).insert i w).total f + (m.erase k).total₂ f :=
    total_insert_eq m _ k _
  rw [hs, hs', add_right_comm, hi, add_right_comm]

theorem sum_get₂_le_total₂ (f : ν → ℕ) (l : List (κ × ι))
    (hl : l.Nodup) : (l.map fun p => (m.get₂ p.1 p.2).elim 0 f).sum ≤ m.total₂ f := by
  induction l generalizing m with
  | nil => exact Nat.zero_le _
  | cons p l ih =>
    obtain ⟨k, i⟩ := p
    -- the value at the first position is taken out of the map
    set bucket := (m.lookup k).getD ∅ with hb
    have hr := ih (m.setBucket k (bucket.erase i)) (List.nodup_cons.mp hl).2
    have hs : (l.map fun p => ((m.setBucket k (bucket.erase i)).get₂ p.1 p.2).elim 0 f) =
        l.map fun p => (m.get₂ p.1 p.2).elim 0 f := by
      refine List.map_congr_left fun p hp => ?_
      have hne : p ≠ (k, i) := fun h => (List.nodup_cons.mp hl).1 (h ▸ hp)
      obtain ⟨j, n⟩ := p
      rw [get₂_setBucket, lookup_erase_eq, get₂_eq_getD m]
      by_cases hj : j = k
      · subst hj
        have hn : n ≠ i := fun h => hne (by rw [h])
        rw [if_pos rfl, if_neg hn]
      · rw [if_neg hj, ← get₂_eq_getD]
    have hz (b : Dict ι ν) (he : b.isEmpty) : b.total f = 0 := by
      rw [total, List.isEmpty_iff.mp he]
      rfl
    have hm : (m.setBucket k (bucket.erase i)).total₂ f + bucket.total f =
        m.total₂ f + (bucket.erase i).total f :=
      m.total_setBucket _ hz k (bucket.erase i)
    have hv : bucket.total f = (m.get₂ k i).elim 0 f + (bucket.erase i).total f := by
      rw [get₂_eq_getD, ← hb]
      cases h : bucket.lookup i with
      | none => rw [total_erase_of_none bucket f h, Option.elim_none, Nat.zero_add]
      | some => exact total_erase bucket f h
    rw [hs] at hr
    rw [List.map_cons, List.sum_cons]
    change (m.get₂ k i).elim 0 f + _ ≤ _
    omega

end AList
