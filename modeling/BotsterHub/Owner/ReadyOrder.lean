import BotsterHub.Owner.Schedule
import Mathlib.Data.Finset.Max
import Mathlib.Data.Prod.Lex

/-!
The ready queues of the owner thread: an ordered set for each class, the row of each queued waiter
and the cursor over the classes. A run refines the list of unserved marks, in the order in which
their waiters were first marked.
-/

namespace BotsterHub.Owner

open List Function AList

variable {ρ : Type}

def ReadyClass.index (c : ReadyClass) : Fin 15 := .ofNat 15 c.ctorIdx

def ReadyKey.entry (key : ReadyKey) : ℕ ×ₗ ℕ := toLex (key.enqueueSerial, key.waiterId)

def QueuedReady.pending (row : QueuedReady ρ) : ℕ × ReadyClass × Finset ρ :=
  (row.key.waiterId, row.key.readyClass, row.reasons)

def QueuedReady.merge [DecidableEq ρ] (w : ℕ) (reasons : Finset ρ) (row : QueuedReady ρ) :
    QueuedReady ρ :=
  ⟨row.key, if row.key.waiterId = w then row.reasons ∪ reasons else row.reasons⟩

namespace Ready

/-- The rows with the queues that order them. -/
structure ReadyQueues (ρ : Type) extends Owner.ReadyQueues ρ where
  queues : Fin 15 → Finset (ℕ ×ₗ ℕ) := fun _ => ∅
  nextClass : Fin 15 := 0

namespace ReadyQueues

variable (q : ReadyQueues ρ)

/-- `none`: `EnqueueSerialExhausted`. -/
def mark [DecidableEq ρ] (waiterId : ℕ) (c : ReadyClass) (reasons : Finset ρ) :
    Option (ReadyKey × ReadyQueues ρ) :=
  let (key, rows) := q.toReadyQueues.mark waiterId c reasons
  match q.queued.lookup waiterId with
  | some _ => some (key, { q with toReadyQueues := rows })
  | none =>
    if q.nextEnqueueSerial + 1 < 2 ^ 64 then
      let queue := insert key.entry (q.queues c.index)
      some (key, ⟨rows, update q.queues c.index queue, q.nextClass⟩)
    else none

def forget (i : Fin 15) (entry : ℕ ×ₗ ℕ) : ReadyQueues ρ :=
  { q with
    toReadyQueues := q.pop (ofLex entry).2
    queues := update q.queues i ((q.queues i).erase entry) }

def serve (i : Fin 15) (h : (q.queues i).Nonempty) : Option (QueuedReady ρ) × ReadyQueues ρ :=
  let first := (q.queues i).min' h
  match q.queued.lookup (ofLex first).2 with
  | none => (none, q.forget i first)
  | some row => (some row, { q.forget i first with nextClass := i + 1 })

def popLoop : ℕ → Fin 15 → Option (QueuedReady ρ) × ReadyQueues ρ
  | 0, _ => (none, q)
  | n + 1, i => if h : (q.queues i).Nonempty then q.serve i h else popLoop n (i + 1)

def popNext : Option (QueuedReady ρ) × ReadyQueues ρ := q.popLoop 15 q.nextClass

def remove (key : ReadyKey) : Bool × ReadyQueues ρ :=
  let i := key.readyClass.index
  if (q.queued.lookup key.waiterId).map QueuedReady.key ≠ some key then (false, q)
  else if key.entry ∈ q.queues i then (true, q.forget i key.entry)
  else (false, q)

end ReadyQueues

variable (ρ) in
abbrev Pending := ℕ × ReadyClass × Finset ρ

inductive ReadyEvent (ρ : Type) where
  | marked (waiterId : ℕ) (c : ReadyClass) (reasons : Finset ρ)
  | removed (waiterId : ℕ)
  | popped (row : Pending ρ)

def ReadyEvent.apply [DecidableEq ρ] (rows : List (Pending ρ)) : ReadyEvent ρ → List (Pending ρ)
  | .marked w c reasons =>
    if ∃ row ∈ rows, row.1 = w then
      rows.map fun (v, c, old) => (v, c, if v = w then old ∪ reasons else old)
    else rows ++ [(w, c, reasons)]
  | .removed w => rows.filter (·.1 ≠ w)
  | .popped row => rows.filter (·.1 ≠ row.1)

def pending [DecidableEq ρ] (log : List (ReadyEvent ρ)) : List (Pending ρ) :=
  log.foldr (fun e rows => e.apply rows) []

inductive ReadyOp (ρ : Type) where
  | mark (waiterId : ℕ) (c : ReadyClass) (reasons : Finset ρ)
  | remove (key : ReadyKey)
  | pop
deriving DecidableEq

structure ReadyRun (ρ : Type) where
  queues : ReadyQueues ρ := {}
  log : List (ReadyEvent ρ) := []

def ReadyRun.step [DecidableEq ρ] (s : ReadyRun ρ) : ReadyOp ρ → ReadyRun ρ
  | .mark w c reasons => (s.queues.mark w c reasons).elim s fun (_, queues) =>
      ⟨queues, .marked w c reasons :: s.log⟩
  | .remove key =>
    let (removed, queues) := s.queues.remove key
    ⟨queues, if removed then .removed key.waiterId :: s.log else s.log⟩
  | .pop =>
    let (item, queues) := s.queues.popNext
    ⟨queues, (item.map (.popped ·.pending)).toList ++ s.log⟩

structure Holds (q : ReadyQueues ρ) (rows : List (QueuedReady ρ)) : Prop where
  ordered : rows.Pairwise (·.key.enqueueSerial < ·.key.enqueueSerial)
  bound : ∀ row ∈ rows, row.key.enqueueSerial ≤ q.nextEnqueueSerial
  queued : ∀ w row, q.queued.lookup w = some row ↔ row ∈ rows ∧ row.key.waiterId = w
  entries : ∀ i entry, entry ∈ q.queues i ↔
    ∃ row ∈ rows, row.key.readyClass.index = i ∧ row.key.entry = entry

namespace Holds

variable {q : ReadyQueues ρ} {rows : List (QueuedReady ρ)} {row : QueuedReady ρ} {w : ℕ}
  (h : Holds q rows)

include h

theorem unique (hr : row ∈ rows) (ho : other ∈ rows)
    (heq : other.key.waiterId = row.key.waiterId) : other = row :=
  Option.some.inj (((h.queued _ _).mpr ⟨ho, heq⟩).symm.trans ((h.queued _ _).mpr ⟨hr, rfl⟩))

theorem coalesce [DecidableEq ρ] (hr : q.queued.lookup w = some row) (reasons : Finset ρ) :
    Holds { q with queued := q.queued.insert w ⟨row.key, row.reasons ∪ reasons⟩ }
      (rows.map (·.merge w reasons)) where
  ordered := pairwise_map.mpr h.ordered
  bound := forall_mem_map.mpr h.bound
  queued v other := by
    obtain ⟨hm, hid⟩ := (h.queued w row).mp hr
    rw [lookup_insert_eq, mem_map]
    split
    · next hv =>
      subst hv
      constructor
      · rintro ⟨⟩
        exact ⟨⟨row, hm, by rw [QueuedReady.merge, if_pos hid]⟩, hid⟩
      · rintro ⟨⟨r, hr, rfl⟩, heq⟩
        rw [h.unique hm hr (heq.trans hid.symm), QueuedReady.merge, if_pos hid]
    · next hv =>
      rw [h.queued]
      constructor
      · rintro ⟨hr, rfl⟩
        exact ⟨⟨other, hr, by rw [QueuedReady.merge, if_neg hv]⟩, rfl⟩
      · rintro ⟨⟨r, hr, rfl⟩, heq⟩
        rw [QueuedReady.merge, if_neg (show r.key.waiterId ≠ w from heq ▸ hv)]
        exact ⟨hr, heq⟩
  entries i entry := by
    rw [h.entries]
    simp [QueuedReady.merge]

theorem enqueue (hw : q.queued.lookup w = none) (c : ReadyClass) (reasons : Finset ρ) :
    let key := ⟨c, q.nextEnqueueSerial + 1, w⟩
    Holds ⟨⟨q.queued.insert w ⟨key, reasons⟩, q.nextEnqueueSerial + 1⟩,
      update q.queues c.index (insert key.entry (q.queues c.index)), q.nextClass⟩
      (rows ++ [⟨key, reasons⟩]) where
  ordered := pairwise_append.mpr ⟨h.ordered, pairwise_singleton .., fun row hr _ hnew =>
    mem_singleton.mp hnew ▸ Nat.lt_succ_of_le (h.bound row hr)⟩
  bound := by
    simp only [mem_append, mem_singleton]
    rintro row (hr | rfl)
    · exact (h.bound row hr).trans (Nat.le_succ _)
    · rfl
  queued v row := by
    simp only [mem_append, mem_singleton, lookup_insert_eq]
    split
    · next hv =>
      subst hv
      refine ⟨fun heq => ⟨.inr (Option.some.inj heq).symm, ?_⟩, ?_⟩
      · rw [← Option.some.inj heq]
      · rintro ⟨hr | rfl, hv⟩
        · rw [(h.queued v row).mpr ⟨hr, hv⟩] at hw
          cases hw
        · rfl
    · next hv =>
      rw [h.queued]
      refine ⟨fun ⟨hr, heq⟩ => ⟨.inl hr, heq⟩, fun ⟨hr, heq⟩ => ⟨hr.resolve_right ?_, heq⟩⟩
      rintro rfl
      exact hv heq.symm
  entries i entry := by
    dsimp only
    by_cases hi : i = c.index
    · subst hi
      rw [update_self, Finset.mem_insert, h.entries]
      simp [or_and_right, exists_or, eq_comm, or_comm]
    · rw [update_of_ne hi, h.entries]
      simp [or_and_right, exists_or, Ne.symm hi]

theorem forget (hr : row ∈ rows) (n : Fin 15) :
    Holds { q.forget row.key.readyClass.index row.key.entry with nextClass := n }
      (rows.filter (·.key.waiterId ≠ row.key.waiterId)) where
  ordered := h.ordered.filter _
  bound other ho := h.bound other (mem_of_mem_filter ho)
  queued v other := by
    simp only [ReadyQueues.forget, ReadyQueues.lookup_pop, mem_filter, decide_eq_true_iff]
    split
    · next hv => exact ⟨nofun, fun ⟨ho, heq⟩ => absurd (heq.trans hv) ho.2⟩
    · next hv =>
      rw [h.queued]
      exact ⟨fun ⟨ho, heq⟩ => ⟨⟨ho, heq ▸ hv⟩, heq⟩, fun ⟨ho, heq⟩ => ⟨ho.1, heq⟩⟩
  entries i entry := by
    have hentry (other : QueuedReady ρ) (heq : other.key.entry = row.key.entry) :
        other.key.waiterId = row.key.waiterId := congrArg (fun e => (ofLex e).2) heq
    simp only [ReadyQueues.forget, mem_filter, decide_eq_true_iff]
    by_cases hi : i = row.key.readyClass.index
    · rw [hi, update_self, Finset.mem_erase, h.entries]
      constructor
      · rintro ⟨hne, other, ho, hc, rfl⟩
        exact ⟨other, ⟨ho, fun heq => hne (h.unique hr ho heq ▸ rfl)⟩, hc, rfl⟩
      · rintro ⟨other, ⟨ho, hne⟩, hc, rfl⟩
        exact ⟨fun heq => hne (hentry other heq), other, ho, hc, rfl⟩
    · rw [update_of_ne hi, h.entries]
      constructor
      · rintro ⟨other, ho, hc, rfl⟩
        exact ⟨other, ⟨ho, fun heq => hi (h.unique hr ho heq ▸ hc.symm)⟩, hc, rfl⟩
      · rintro ⟨other, ⟨ho, -⟩, hc⟩
        exact ⟨other, ho, hc⟩

theorem remove (key : ReadyKey) : q.remove key =
    if (q.queued.lookup key.waiterId).map QueuedReady.key = some key then
      (true, q.forget key.readyClass.index key.entry)
    else (false, q) := by
  simp only [ReadyQueues.remove, ite_not]
  refine if_ctx_congr .rfl (fun hkey => if_pos ?_) fun _ => rfl
  obtain ⟨row, hrow, rfl⟩ := Option.map_eq_some_iff.mp hkey
  exact (h.entries _ _).mpr ⟨row, ((h.queued _ row).mp hrow).1, rfl, rfl⟩

theorem serve (hi : (q.queues i).Nonempty) : ∃ row ∈ rows,
    row.key.readyClass.index = i ∧ rows.find? (·.key.readyClass.index = i) = some row ∧
    q.serve i hi = (some row, { q.forget i row.key.entry with nextClass := i + 1 }) := by
  obtain ⟨row, hr, hc, hentry⟩ := (h.entries i _).mp (Finset.min'_mem _ hi)
  refine ⟨row, hr, hc, ?_, ?_⟩
  · obtain ⟨before, after, rfl⟩ := append_of_mem hr
    refine find?_eq_some_iff_append.mpr ⟨decide_eq_true hc, before, after, rfl, fun other ho => ?_⟩
    rw [Bool.not_eq_true', decide_eq_false_iff_not]
    intro heq
    -- an earlier row of the class would be a smaller entry
    have hlt := (pairwise_append.mp h.ordered).2.2 other ho row mem_cons_self
    have hle := Finset.min'_le _ _ ((h.entries i other.key.entry).mpr
      ⟨other, mem_append_left _ ho, heq, rfl⟩)
    rw [← hentry] at hle
    exact hlt.not_ge (Prod.Lex.monotone_fst _ _ hle)
  · rw [ReadyQueues.serve, ← hentry]
    change (match q.queued.lookup row.key.waiterId with | none => _ | some row => _) = _
    rw [(h.queued _ row).mpr ⟨hr, rfl⟩]

end Holds

theorem ReadyClass.index_injective : Injective ReadyClass.index :=
  LeftInverse.injective (f := ReadyClass.index) (g := fun i => ReadyClass.ofNat i.val) fun c => by
    cases c <;> rfl

theorem ReadyQueues.popLoop_eq (q : ReadyQueues ρ) (hne : (q.queues c).Nonempty)
    (hc : (c - i).val < n) :
    ∃ j hj, q.popLoop n i = q.serve j hj ∧ (j - i).val ≤ (c - i).val := by
  induction n generalizing i with
  | zero => omega
  | succ n ih =>
    unfold popLoop
    split_ifs with hi
    · exact ⟨i, hi, rfl, by omega⟩
    · have hci : c ≠ i := fun heq => hi (heq ▸ hne)
      obtain ⟨j, hj, heq, hle⟩ := ih (i := i + 1) (by omega)
      exact ⟨j, hj, heq, by omega⟩

/-- `pop_next` takes the first row of a class, the one asked about, or brings the cursor nearer to
it. -/
theorem Holds.popNext {q : ReadyQueues ρ} (h : Holds q rows)
    (hc : (q.queues c).Nonempty) : ∃ row, q.popNext.1 = some row ∧
    rows.find? (·.key.readyClass = row.key.readyClass) = some row ∧
    Holds q.popNext.2 (rows.filter (·.key.waiterId ≠ row.key.waiterId)) ∧
    (row.key.readyClass.index = c ∨ (c - q.popNext.2.nextClass).val < (c - q.nextClass).val) := by
  obtain ⟨j, hj, heq, hle⟩ := q.popLoop_eq hc (i := q.nextClass) (Fin.is_lt _)
  obtain ⟨row, hr, rfl, hfind, hserve⟩ := h.serve hj
  rw [ReadyQueues.popNext, heq, hserve]
  simp only [ReadyClass.index_injective.eq_iff] at hfind
  refine ⟨row, rfl, hfind, h.forget hr _, or_iff_not_imp_left.mpr fun hne => ?_⟩
  dsimp only
  omega

theorem ReadyQueues.popNext_of_empty {q : ReadyQueues ρ} (h : ∀ i, ¬(q.queues i).Nonempty) :
    q.popNext = (none, q) := by
  simp [popNext, popLoop, h]

theorem pending_filter (rows : List (QueuedReady ρ)) (w : ℕ) :
    (rows.filter (·.key.waiterId ≠ w)).map QueuedReady.pending =
      (rows.map QueuedReady.pending).filter (·.1 ≠ w) := by
  rw [filter_map]
  rfl

variable [DecidableEq ρ] {s : ReadyRun ρ}

def Kept (s : ReadyRun ρ) : Prop :=
  ∃ rows, Holds s.queues rows ∧ rows.map QueuedReady.pending = pending s.log

theorem Kept.step (h : Kept s) (op : ReadyOp ρ) : Kept (s.step op) := by
  obtain ⟨rows, h, hrows⟩ := h
  cases op with
  | mark w c reasons =>
    simp only [ReadyRun.step, ReadyQueues.mark, Owner.ReadyQueues.mark]
    cases hw : s.queues.queued.lookup w with
    | some row =>
      obtain ⟨hr, hid⟩ := (h.queued w row).mp hw
      refine ⟨_, h.coalesce hw reasons, ?_⟩
      change _ = ReadyEvent.apply (pending s.log) (.marked w c reasons)
      rw [← hrows, ReadyEvent.apply, if_pos ⟨_, mem_map_of_mem hr, hid⟩, map_map, map_map]
      rfl
    | none =>
      split_ifs
      · refine ⟨_, h.enqueue hw c reasons, ?_⟩
        change _ = ReadyEvent.apply (pending s.log) (.marked w c reasons)
        rw [← hrows, ReadyEvent.apply, if_neg, map_append]
        · rfl
        · rintro ⟨_, hm, hid⟩
          obtain ⟨row, hr, rfl⟩ := mem_map.mp hm
          rw [(h.queued w row).mpr ⟨hr, hid⟩] at hw
          cases hw
      · exact ⟨rows, h, hrows⟩
  | remove key =>
    simp only [ReadyRun.step, h.remove]
    by_cases hkey : (s.queues.queued.lookup key.waiterId).map QueuedReady.key = some key
    · rw [if_pos hkey]
      obtain ⟨row, hrow, rfl⟩ := Option.map_eq_some_iff.mp hkey
      exact ⟨_, h.forget ((h.queued _ row).mp hrow).1 _, (pending_filter ..).trans (hrows ▸ rfl)⟩
    · rw [if_neg hkey]
      exact ⟨rows, h, hrows⟩
  | pop =>
    by_cases hne : ∃ i, (s.queues.queues i).Nonempty
    · obtain ⟨i, hi⟩ := hne
      obtain ⟨row, hrow, -, hholds, -⟩ := h.popNext hi
      refine ⟨_, hholds, (pending_filter ..).trans ?_⟩
      simp only [ReadyRun.step, hrow, hrows]
      rfl
    · simp only [ReadyRun.step, ReadyQueues.popNext_of_empty (not_exists.mp hne)]
      exact ⟨rows, h, hrows⟩

theorem kept_run (ops : List (ReadyOp ρ)) : Kept (ops.foldl ReadyRun.step {}) :=
  List.foldlRecOn (motive := Kept) ops ReadyRun.step
    ⟨[], ⟨.nil, nofun, by simp, by simp⟩, rfl⟩ fun _ h op _ => h.step op

theorem nextClass_step (s : ReadyRun ρ) (hop : op ≠ .pop) :
    (s.step op).queues.nextClass = s.queues.nextClass := by
  cases op with
  | mark w c reasons =>
    simp only [ReadyRun.step, ReadyQueues.mark]
    split
    · rfl
    · split_ifs <;> rfl
  | remove key =>
    simp only [ReadyRun.step, ReadyQueues.remove]
    split_ifs <;> rfl
  | pop => exact absurd rfl hop

theorem Kept.served {c : ReadyClass} {ops : List (ReadyOp ρ)} (h : Kept s)
    (hne : ∀ k, (((ops.take k).foldl ReadyRun.step s).queues.queues c.index).Nonempty)
    (hc : (c.index - s.queues.nextClass).val < ops.count .pop) : ∃ k row, ops[k]? = some .pop ∧
      ((ops.take k).foldl ReadyRun.step s).queues.popNext.1 = some row ∧
      row.key.readyClass = c := by
  induction ops generalizing s with
  | nil => exact absurd hc (Nat.not_lt_zero _)
  | cons op ops ih =>
    have hrest (hlt : (c.index - (s.step op).queues.nextClass).val < ops.count .pop) :
        ∃ k row, (op :: ops)[k]? = some .pop ∧
          (((op :: ops).take k).foldl ReadyRun.step s).queues.popNext.1 = some row ∧
          row.key.readyClass = c := by
      obtain ⟨k, row, hrow⟩ := ih (h.step op) (fun k => hne (k + 1)) hlt
      exact ⟨k + 1, row, hrow⟩
    by_cases hop : op = .pop
    · subst hop
      obtain ⟨rows, h, -⟩ := h
      obtain ⟨row, hrow, -, -, hclass | hlt⟩ := h.popNext (hne 0)
      · exact ⟨0, row, rfl, hrow, ReadyClass.index_injective hclass⟩
      · rw [count_cons_self] at hc
        exact hrest (Nat.lt_of_lt_of_le hlt (Nat.le_of_lt_succ hc))
    · rw [count_cons_of_ne hop] at hc
      exact hrest (nextClass_step s hop ▸ hc)

theorem reasoned_step (hop : ∀ w c, op ≠ .mark w c ∅)
    (h : ∀ row ∈ pending s.log, row.2.2 ≠ ∅) : ∀ row ∈ pending (s.step op).log, row.2.2 ≠ ∅ := by
  cases op with
  | mark w c reasons =>
    rw [ReadyRun.step]
    cases s.queues.mark w c reasons with
    | none => exact h
    | some =>
      change ∀ row ∈ ReadyEvent.apply (pending s.log) (.marked w c reasons), row.2.2 ≠ ∅
      simp only [ReadyEvent.apply]
      split_ifs
      · refine forall_mem_map.mpr fun row hr => ?_
        split_ifs
        · exact fun heq => h row hr (Finset.union_eq_empty.mp heq).1
        · exact h row hr
      · exact forall_mem_append.mpr ⟨h, forall_mem_singleton.mpr fun heq => hop w c (heq ▸ rfl)⟩
  | remove key =>
    simp only [ReadyRun.step]
    split
    · exact fun row hr => h row (mem_of_mem_filter hr)
    · exact h
  | pop =>
    simp only [ReadyRun.step]
    cases s.queues.popNext.1 with
    | none => exact h
    | some => exact fun row hr => h row (mem_of_mem_filter hr)

theorem Kept.mem_queue (h : Kept s) (w : ℕ) (c : ReadyClass) :
    (∃ n, toLex (n, w) ∈ s.queues.queues c.index) ↔ ∃ r, (w, c, r) ∈ pending s.log := by
  obtain ⟨rows, h, hrows⟩ := h
  simp only [h.entries, ← hrows, mem_map]
  constructor
  · rintro ⟨n, row, hr, hc, hentry⟩
    have hw : row.key.waiterId = w := congrArg (fun e => (ofLex e).2) hentry
    refine ⟨row.reasons, row, hr, ?_⟩
    rw [QueuedReady.pending, hw, ReadyClass.index_injective hc]
  · rintro ⟨r, row, hr, heq⟩
    cases heq
    exact ⟨_, row, hr, rfl, rfl⟩

theorem Kept.pairwise (h : Kept s) : (pending s.log).Pairwise (·.1 ≠ ·.1) := by
  obtain ⟨rows, h, hrows⟩ := h
  rw [← hrows]
  refine pairwise_map.mpr (h.ordered.imp_of_mem fun hr ho hlt heq => ?_)
  exact hlt.ne (h.unique ho hr heq ▸ rfl)

theorem Kept.popNext_none (h : Kept s) (hnone : s.queues.popNext.1 = none) :
    pending s.log = [] := by
  obtain ⟨rows, h, hrows⟩ := h
  rw [← hrows, map_eq_nil_iff, eq_nil_iff_forall_not_mem]
  intro row hr
  obtain ⟨_, hsome, -⟩ := h.popNext ⟨_, (h.entries _ _).mpr ⟨row, hr, rfl, rfl⟩⟩
  rw [hnone] at hsome
  cases hsome

theorem Kept.popNext_some (h : Kept s) {row : QueuedReady ρ}
    (hrow : s.queues.popNext.1 = some row) :
    (pending s.log).find? (·.2.1 = row.key.readyClass) = some row.pending := by
  obtain ⟨rows, h, hrows⟩ := h
  by_cases hne : ∃ i, (s.queues.queues i).Nonempty
  · obtain ⟨i, hi⟩ := hne
    obtain ⟨_, hsome, hfind, -⟩ := h.popNext hi
    cases hsome.symm.trans hrow
    rw [← hrows, find?_map]
    exact congrArg (Option.map _) hfind
  · rw [ReadyQueues.popNext_of_empty (not_exists.mp hne)] at hrow
    cases hrow

/-- The queues hold what is pending, each waiter in one class. `pop_next` gives the first pending
row of a class with all its reasons, `remove` takes the row of its key, a new waiter is refused when
the serials are exhausted, and 15 pops serve a class that stays non-empty. -/
theorem run_ready (ops : List (ReadyOp ρ)) : let s := ops.foldl ReadyRun.step {}
    (∀ w c, (∃ n, toLex (n, w) ∈ s.queues.queues c.index) ↔ ∃ r, (w, c, r) ∈ pending s.log) ∧
    (pending s.log).Pairwise (·.1 ≠ ·.1) ∧
    ((∀ w c, .mark w c ∅ ∉ ops) → ∀ row ∈ pending s.log, row.2.2 ≠ ∅) ∧
    (s.queues.popNext.1 = none → pending s.log = []) ∧ (∀ row, s.queues.popNext.1 = some row →
      (pending s.log).find? (·.2.1 = row.key.readyClass) = some row.pending) ∧
    (∀ key, (s.queues.remove key).1 = true ↔
      (s.queues.queued.lookup key.waiterId).map QueuedReady.key = some key) ∧
    (∀ w c r, s.queues.mark w c r = none ↔
      s.queues.queued.lookup w = none ∧ 2 ^ 64 ≤ s.queues.nextEnqueueSerial + 1) ∧
    ∀ c (more : List (ReadyOp ρ)),
      (∀ k, (((more.take k).foldl ReadyRun.step s).queues.queues c.index).Nonempty) →
      15 ≤ more.count .pop → ∃ k row, more[k]? = some .pop ∧
        ((more.take k).foldl ReadyRun.step s).queues.popNext.1 = some row ∧
        row.key.readyClass = c := by
  intro s
  have hkept : Kept s := kept_run ops
  refine ⟨hkept.mem_queue, hkept.pairwise, fun hops => ?_, hkept.popNext_none,
    fun _ => hkept.popNext_some, fun key => ?_, fun w c r => ?_,
    fun c more hne hmore => hkept.served hne ((Fin.is_lt _).trans_le hmore)⟩
  · exact List.foldlRecOn (motive := fun s : ReadyRun ρ => ∀ row ∈ pending s.log, row.2.2 ≠ ∅) ops
      ReadyRun.step nofun fun _ h op hop => reasoned_step (fun w c heq => hops w c (heq ▸ hop)) h
  · obtain ⟨_, h, -⟩ := hkept
    rw [h.remove]
    split_ifs with hkey
    · exact iff_of_true rfl hkey
    · exact iff_of_false nofun hkey
  · cases hw : s.queues.queued.lookup w <;> simp [ReadyQueues.mark, hw]

/-- A mark without a reason queues its waiter, and `pop_next` gives a key with none. -/
theorem mark_without_reasons :
    (([.mark 1 .controlIngress ∅].foldl ReadyRun.step {}).queues.popNext.1.map
      QueuedReady.reasons) = some (∅ : Finset ReadyReason) := by
  decide

end Ready

end BotsterHub.Owner
