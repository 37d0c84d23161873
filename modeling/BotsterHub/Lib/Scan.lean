import BotsterHub.Lib.Dict
import Mathlib.Data.List.Sort

/-!
Scanning a map page by page.

A scan remembers the last key it visited, and the next page starts at the first key past it,
whatever has happened to the map in between.
-/

section Past

variable {κ : Type*}

def resume (after : Option κ) (page : List κ) : Option κ := page.getLast?.or after

@[simp] theorem resume_nil (after : Option κ) : resume after [] = after := rfl

@[simp] theorem resume_concat (after : Option κ) (page : List κ) (k : κ) :
    resume after (page ++ [k]) = some k := by
  simp [resume]

theorem resume_cons (after : Option κ) (page : List κ) (k : κ) :
    resume after (k :: page) = resume (some k) page := by
  cases page using List.reverseRecOn with
  | nil => rfl
  | append_singleton => rw [← List.cons_append, resume_concat, resume_concat]

variable [LinearOrder κ]

def Past (after : Option κ) (k : κ) : Prop := ∀ a ∈ after, a < k

instance (after : Option κ) (k : κ) : Decidable (Past after k) :=
  inferInstanceAs (Decidable (∀ a ∈ after, a < k))

@[simp] theorem past_none (k : κ) : Past none k := by simp [Past]

@[simp] theorem past_some (a k : κ) : Past (some a) k ↔ a < k := by simp [Past]

theorem Past.trans_lt {after : Option κ} {k j : κ} (h : Past after k) (hkj : k < j) :
    Past after j := fun a ha => (h a ha).trans hkj

theorem past_resume {after : Option κ} {page : List κ} (hp : page.Pairwise (· < ·))
    (hafter : ∀ j ∈ page, Past after j) (k : κ) :
    Past (resume after page) k ↔ Past after k ∧ ∀ j ∈ page, j < k := by
  induction page generalizing after with
  | nil => simp
  | cons j _ ih =>
    rw [List.pairwise_cons] at hp
    rw [resume_cons, ih hp.2 fun i hi => (past_some j i).mpr (hp.1 i hi), past_some,
      List.forall_mem_cons]
    constructor
    · rintro ⟨hj, ha⟩
      exact ⟨(hafter j List.mem_cons_self).trans_lt hj, hj, ha⟩
    · rintro ⟨-, hj, ha⟩
      exact ⟨hj, ha⟩

end Past

namespace AList

variable {κ ν : Type*} [LinearOrder κ]

def keysAfter (m : Dict κ ν) (after : Option κ) : List κ :=
  (m.keys.filter fun k => Past after k).insertionSort (· ≤ ·)

variable {m : Dict κ ν}

theorem mem_keysAfter {after : Option κ} {k : κ} :
    k ∈ m.keysAfter after ↔ k ∈ m ∧ Past after k := by
  rw [keysAfter, (List.perm_insertionSort (· ≤ ·) _).mem_iff, List.mem_filter, mem_keys,
    decide_eq_true_eq]

theorem keysAfter_pairwise (m : Dict κ ν) (after : Option κ) :
    (m.keysAfter after).Pairwise (· < ·) := by
  have hs := List.pairwise_insertionSort (· ≤ ·) (m.keys.filter fun k => Past after k)
  have hn : (m.keysAfter after).Nodup :=
    (List.perm_insertionSort (· ≤ ·) _).nodup_iff.mpr (m.keys_nodup.filter _)
  exact (hs.and hn).imp fun h => lt_of_le_of_ne h.1 h.2

theorem keysAfter_eq_of_mem {after : Option κ} {l : List κ}
    (hl : l.Pairwise (· < ·)) (hm : ∀ k, k ∈ l ↔ k ∈ m ∧ Past after k) :
    m.keysAfter after = l := by
  have hp : (m.keysAfter after).Perm l :=
    (List.perm_ext_iff_of_nodup ((keysAfter_pairwise m after).imp ne_of_lt)
      (hl.imp ne_of_lt)).mpr fun k => mem_keysAfter.trans (hm k).symm
  exact hp.eq_of_pairwise (fun a b _ _ hab hba => absurd hab hba.asymm)
    (keysAfter_pairwise m after) hl

theorem keysAfter_congr {ν' : Type*} {m' : Dict κ ν'} (h : ∀ k, k ∈ m ↔ k ∈ m')
    (after : Option κ) : m.keysAfter after = m'.keysAfter after :=
  keysAfter_eq_of_mem (keysAfter_pairwise m' after) fun k => by rw [mem_keysAfter, h]

def entriesAfter (m : Dict κ ν) (after : Option κ) : List (κ × ν) :=
  (m.keysAfter after).filterMap fun k => (m.lookup k).map fun v => (k, v)

section Page

variable {m : Dict κ ν} {after : Option κ} {page rest : List κ}

section

variable (h : m.keysAfter after = page ++ rest)
include h

theorem page_pairwise : page.Pairwise (· < ·) :=
  (List.pairwise_append.mp (h ▸ keysAfter_pairwise m after)).1

theorem mem_of_mem_page {k : κ} (hk : k ∈ page) : k ∈ m ∧ Past after k :=
  mem_keysAfter.mp (h ▸ List.mem_append_left rest hk)

theorem keysAfter_resume : m.keysAfter (resume after page) = rest := by
  have hs := List.pairwise_append.mp (h ▸ keysAfter_pairwise m after)
  refine keysAfter_eq_of_mem hs.2.1 fun k => ?_
  rw [past_resume hs.1 fun j hj => (mem_of_mem_page h hj).2, ← and_assoc, ← mem_keysAfter, h,
    List.mem_append]
  constructor
  · intro hk
    exact ⟨Or.inr hk, fun j hj => hs.2.2 j hj k hk⟩
  rintro ⟨hk | hk, hlt⟩
  · exact absurd (hlt k hk) (lt_irrefl k)
  · exact hk

theorem not_past_resume_iff {k : κ} (hk : k ∈ m) :
    ¬Past (resume after page) k ↔ ¬Past after k ∨ k ∈ page := by
  have hr : k ∈ rest ↔ Past (resume after page) k := by
    rw [← keysAfter_resume h, mem_keysAfter, and_iff_right hk]
  have hd : k ∈ page → k ∉ rest := fun hp hm =>
    lt_irrefl k ((List.pairwise_append.mp (h ▸ keysAfter_pairwise m after)).2.2 k hp k hm)
  have ha : Past after k ↔ k ∈ page ∨ k ∈ rest := by
    rw [← List.mem_append, ← h, mem_keysAfter, and_iff_right hk]
  rw [← hr, ha]
  tauto

end

end Page

end AList

namespace Finset

variable {κ : Type*} [LinearOrder κ]

def ascending (s : Finset κ) : List κ :=
  Quot.liftOn s.val (fun l => l.insertionSort (· ≤ ·)) fun l l' (h : l.Perm l') =>
    (((List.perm_insertionSort _ l).trans h).trans
      (List.perm_insertionSort _ l').symm).eq_of_pairwise
        (fun _ _ _ _ hab hba => le_antisymm hab hba)
        (List.pairwise_insertionSort (· ≤ ·) l) (List.pairwise_insertionSort (· ≤ ·) l')

end Finset
