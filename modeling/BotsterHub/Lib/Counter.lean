import BotsterHub.Lib.NestedDict

/-!
Counting maps.

The number of occurrences of each key is raised and lowered, and the entry dropped at zero;
`unbump` of a key without entry is the failing `expect`. `Counts m f` says that `m` stores exactly
the counts `f`. The two-level versions also drop empty buckets.
-/

def positive (n : ℕ) : Option ℕ :=
  if n = 0 then none else some n

@[simp] theorem positive_zero : positive 0 = none := rfl

@[simp] theorem positive_succ (n : ℕ) : positive (n + 1) = some (n + 1) := by simp [positive]

@[simp] theorem positive_getD (n : ℕ) : (positive n).getD 0 = n := by cases n <;> simp

theorem positive_of_pos {n : ℕ} (h : 0 < n) : positive n = some n := by
  simp [positive, Nat.pos_iff_ne_zero.mp h]

namespace AList

variable {κ ι : Type*} [DecidableEq κ] [DecidableEq ι]

def bump (m : Dict κ ℕ) (k : κ) : Dict κ ℕ := m.insert k ((m.lookup k).getD 0 + 1)

def unbump (m : Dict κ ℕ) (k : κ) : Option (Dict κ ℕ) :=
  match m.lookup k with
  | none | some 0 => none
  | some (n + 1) => some (if n = 0 then m.erase k else m.insert k n)

def Counts (m : Dict κ ℕ) (f : κ → ℕ) : Prop := ∀ k, m.lookup k = positive (f k)

variable {m : Dict κ ℕ}

theorem Counts.congr {f g : κ → ℕ} (h : m.Counts f) (hfg : ∀ k, f k = g k) :
    m.Counts g := fun k => hfg k ▸ h k

theorem counts_empty : (∅ : Dict κ ℕ).Counts fun _ => 0 := fun _ => rfl

variable {f : κ → ℕ}

theorem Counts.bump (h : m.Counts f) (k : κ) :
    (m.bump k).Counts (Function.update f k (f k + 1)) := by
  intro j
  rw [AList.bump, lookup_insert_eq, h k, positive_getD]
  by_cases hj : j = k
  · subst hj
    simp
  · simp [hj, h j]

theorem Counts.unbump (h : m.Counts f) {k : κ} (hk : 0 < f k) :
    ∃ m', m.unbump k = some m' ∧ m'.Counts (Function.update f k (f k - 1)) := by
  obtain ⟨n, hn⟩ : ∃ n, f k = n + 1 := Nat.exists_eq_succ_of_ne_zero hk.ne'
  have hl : m.lookup k = some (n + 1) := by rw [h k, hn, positive_succ]
  refine ⟨_, by rw [AList.unbump, hl], fun j => ?_⟩
  by_cases hj : j = k
  · subst hj
    rw [hn, Function.update_self, Nat.add_sub_cancel]
    split
    · next hz => simp [hz]
    · next hz => rw [lookup_insert_eq, if_pos rfl, positive, if_neg hz]
  · rw [Function.update_of_ne hj]
    split
    · rw [lookup_erase_eq, if_neg hj, h j]
    · rw [lookup_insert_eq, if_neg hj, h j]

theorem lookup_unbump_of_ne {m m' : Dict κ ℕ} {k j : κ} (h : m.unbump k = some m') (hj : j ≠ k) :
    m'.lookup j = m.lookup j := by
  unfold unbump at h
  split at h
  · cases h
  · cases h
  cases h
  split
  · rw [lookup_erase_eq, if_neg hj]
  · rw [lookup_insert_eq, if_neg hj]

theorem Counts.foldl_bump {α : Type*} (key : α → κ) (l : List α) (h : m.Counts f) :
    (l.foldl (fun m a => m.bump (key a)) m).Counts fun k => f k + l.countP fun a => key a = k := by
  induction l generalizing m f with
  | nil => exact h
  | cons a l ih =>
    refine (ih (h.bump (key a))).congr fun k => ?_
    rw [List.countP_cons]
    by_cases hk : k = key a
    · subst hk
      simp
      omega
    · simp [hk, Ne.symm hk]

def bump₂ (m : Dict κ (Dict ι ℕ)) (k : κ) (i : ι) : Dict κ (Dict ι ℕ) :=
  m.insert k (((m.lookup k).getD ∅).bump i)

def unbump₂ (m : Dict κ (Dict ι ℕ)) (k : κ) (i : ι) : Option (Dict κ (Dict ι ℕ)) :=
  match m.lookup k with
  | none => none
  | some bucket => (bucket.unbump i).map fun bucket' => m.setBucket k bucket'

structure Counts₂ (m : Dict κ (Dict ι ℕ)) (f : κ → ι → ℕ) : Prop where
  get₂_eq : ∀ k i, m.get₂ k i = positive (f k i)
  nonempty : ∀ k bucket, m.lookup k = some bucket → bucket.isEmpty = false

variable {m : Dict κ (Dict ι ℕ)}

theorem Counts₂.congr {f g : κ → ι → ℕ} (h : m.Counts₂ f)
    (hfg : ∀ k i, f k i = g k i) : m.Counts₂ g :=
  ⟨fun k i => hfg k i ▸ h.get₂_eq k i, h.nonempty⟩

theorem counts₂_empty : (∅ : Dict κ (Dict ι ℕ)).Counts₂ fun _ _ => 0 :=
  ⟨fun _ _ => rfl, fun _ _ h => by simp at h⟩

variable {f : κ → ι → ℕ}

theorem Counts₂.bucket (h : m.Counts₂ f) (k : κ) : ((m.lookup k).getD ∅).Counts (f k) := fun i => by
  rw [← get₂_eq_getD]
  exact h.get₂_eq k i

theorem Counts₂.bump₂ (h : m.Counts₂ f) (k : κ) (i : ι) :
    (m.bump₂ k i).Counts₂ fun j l => if j = k ∧ l = i then f j l + 1 else f j l := by
  have hb := (h.bucket k).bump i
  refine ⟨fun j l => ?_, fun j b hj => ?_⟩
  · rw [AList.bump₂, get₂_insert_eq]
    by_cases hjk : j = k
    · subst hjk
      rw [if_pos rfl, hb l]
      by_cases hl : l = i
      · subst hl
        simp
      · simp [hl]
    · simp [hjk, h.get₂_eq j l]
  · rw [AList.bump₂, lookup_insert_eq] at hj
    split at hj
    · cases hj
      exact isEmpty_eq_false_of_lookup (by rw [hb i, Function.update_self, positive_succ])
    · exact h.nonempty j b hj

theorem Counts₂.unbump₂ (h : m.Counts₂ f) {k : κ} {i : ι} (hk : 0 < f k i) :
    ∃ m', m.unbump₂ k i = some m' ∧
      m'.Counts₂ fun j l => if j = k ∧ l = i then f j l - 1 else f j l := by
  have hg : m.get₂ k i = some (f k i) := by rw [h.get₂_eq, positive_of_pos hk]
  obtain ⟨bucket, hb, -⟩ : ∃ bucket, m.lookup k = some bucket ∧ bucket.lookup i = _ :=
    Option.bind_eq_some_iff.mp hg
  have hc : bucket.Counts (f k) := by simpa [hb] using h.bucket k
  obtain ⟨bucket', hun, hc'⟩ := hc.unbump hk
  refine ⟨m.setBucket k bucket', by simp [AList.unbump₂, hb, hun], ?_, ?_⟩
  · intro j l
    rw [get₂_setBucket]
    by_cases hj : j = k
    · subst hj
      rw [if_pos rfl, hc' l]
      by_cases hl : l = i
      · subst hl
        simp
      · simp [hl]
    · simp [hj, h.get₂_eq j l]
  · intro j b hj
    unfold setBucket at hj
    split at hj
    · rw [lookup_erase_eq] at hj
      split at hj
      · simp at hj
      · exact h.nonempty j b hj
    · next he =>
      rw [lookup_insert_eq] at hj
      split at hj
      · cases hj
        simpa using he
      · exact h.nonempty j b hj

theorem lookup_unbump₂_of_ne {m m' : Dict κ (Dict ι ℕ)} {k j : κ} {i : ι}
    (h : m.unbump₂ k i = some m') (hj : j ≠ k) : m'.lookup j = m.lookup j := by
  unfold unbump₂ at h
  split at h
  · cases h
  obtain ⟨bucket', -, rfl⟩ := Option.map_eq_some_iff.mp h
  unfold setBucket
  split
  · rw [lookup_erase_eq, if_neg hj]
  · rw [lookup_insert_eq, if_neg hj]

end AList
