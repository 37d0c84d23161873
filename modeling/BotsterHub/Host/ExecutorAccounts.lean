import BotsterHub.Host.Executor
import Mathlib.Tactic.Abel

/-!
The accounts of the host executor under every interleaving. Slots are counted where their permits
are, bytes where they are used, jobs by their ids; queue and mailbox are never full because every
command in them holds a slot.
-/

namespace BotsterHub.Host

open Machine Multiset List Option AList

namespace Executor

def workerJobs : Worker → Multiset Job
  | .received job | .executing job => {job}
  | .sent => 0

def pcSlots : OwnerPc → ℕ
  | .idle => 0
  | .reserving | .givingBack | .submitting _ _ => 1

variable (s : Executor)

def jobs : Multiset Job :=
  (s.queue : Multiset Job) + (s.workers.map workerJobs).sum + (s.mailbox.getD [] : Multiset Job) +
    (s.remaining : Multiset Job)

def held : ℕ := pcSlots s.pc + s.owner.card + s.jobs.card

def submitted : Multiset ℕ := s.jobs.map Job.id + s.ended.map Prod.fst

theorem held_eq : s.held = pcSlots s.pc + s.owner.card + (s.queue.length +
    (s.workers.map workerJobs).sum.card + (s.mailbox.getD []).length + s.remaining.length) := by
  simp [held, jobs, card_add, coe_card]

theorem submitted_eq : s.submitted = (s.queue.map Job.id : List ℕ) +
    (s.workers.map workerJobs).sum.map Job.id + ((s.mailbox.getD []).map Job.id : List ℕ) +
    (s.remaining.map Job.id : List ℕ) + s.ended.map Prod.fst := by
  simp [submitted, jobs, Multiset.map_add, Multiset.map_coe]

variable {worker : Worker}

theorem sum_workerJobs {w : Multiset Worker} (h : worker ∈ w) : (w.map workerJobs).sum =
      workerJobs worker + ((w.erase worker).map workerJobs).sum := by
  conv_lhs => rw [← Multiset.cons_erase h]
  rw [Multiset.map_cons, Multiset.sum_cons]

structure Counted (n : ℕ) (moving : Multiset ℕ) (s : Executor) : Prop where
  slots : s.outstanding = s.held + n
  capacity : s.outstanding ≤ hostOperationCapacity
  bytes : s.used = s.accounts.total Account.bytes
  within : s.used ≤ hostPreparedAggregateByteCapacity
  whole : ∀ account entry, s.accounts.lookup account = some entry → entry.permitRef = true →
    entry.bytes = hostPreparedByteCapacity
  fresh : ∀ account, (s.accounts.lookup account).isSome → account < s.nextAccount
  numbered : s.submitted + moving = Multiset.range s.nextJob
  stopped : ∀ entry ∈ s.ended, entry.2 = Ending.discarded → s.stopping = true
  completion : s.mailbox.getD [] ≠ [] →
    s.completionPending = true ∨ Worker.sent ∈ s.workers ∨ s.draining = true

theorem counted_new : Counted 0 0 new := by
  constructor <;> simp [new, held, jobs, pcSlots, submitted]

variable {n : ℕ} {m : Multiset ℕ} {s : Executor} {job : Job}

theorem Counted.erase_worker (h : Counted 0 0 s)
    (hm : worker ∈ s.workers) (hj : workerJobs worker = {job}) :
    Counted 1 {job.id} { s with workers := s.workers.erase worker } := by
  have hs := (sum_workerJobs hm).trans (congrArg (· + _) hj)
  have hslots := h.slots
  simp only [held_eq, hs, card_add, card_singleton] at hslots
  refine { h with slots := ?_, numbered := ?_, completion := ?_ }
  · simp only [held_eq]
    omega
  · rw [← h.numbered]
    simp only [submitted_eq, hs, Multiset.map_add, Multiset.map_singleton]
    abel
  intro hne
  rcases h.completion hne with hb | hsent | hd
  · exact .inl hb
  · refine Or.inr (Or.inl ((Multiset.mem_erase_of_ne ?_).mpr hsent))
    rintro rfl
    exact absurd hj (singleton_ne_zero job).symm
  · exact .inr (.inr hd)

theorem Counted.erase_owner (h : Counted 0 0 s) (hm : p ∈ s.owner) :
    Counted 1 0 { s with owner := s.owner.erase p } := by
  refine { h with slots := ?_ }
  have hc := card_erase_add_one hm
  have hs := h.slots
  simp only [held_eq] at hs ⊢
  omega

theorem Counted.cons_owner (h : Counted (n + 1) m s) (p : Permit) :
    Counted n m { s with owner := p ::ₘ s.owner } := by
  refine { h with slots := ?_ }
  have hs := h.slots
  simp only [held_eq, card_cons] at hs ⊢
  omega

theorem Counted.releaseSlot (h : Counted (n + 1) m s) (p : Permit) :
    Counted n m (s.releaseSlot p) := by
  refine { h with slots := ?_, capacity := ?_ }
  · exact Nat.sub_eq_of_eq_add h.slots
  · exact (Nat.sub_le _ _).trans h.capacity

theorem Counted.finish (h : Counted 1 {job.id} s)
    (hs : e = .discarded → s.stopping = true) : Counted 0 0 (s.finish job e) := by
  refine { h.releaseSlot job.permit with numbered := ?_, stopped := ?_ }
  · refine Eq.trans ?_ h.numbered
    simp only [Executor.finish, Executor.releaseSlot, submitted_eq, ← Multiset.singleton_add,
      Multiset.map_add, Multiset.map_singleton]
    abel
  · intro entry hm hd
    rcases mem_cons.mp hm with rfl | hold
    · exact hs hd
    · exact h.stopped entry hold hd

theorem Counted.stop (h : Counted n m s) : Counted n m { s with stopping := true } :=
  { h with stopped := fun _ _ _ => rfl }

theorem Counted.enqueue (h : Counted 1 0 s) (p : Permit) (kind : JobKind) :
    Counted 0 0 (s.enqueue p kind) := by
  unfold Executor.enqueue
  split
  · refine { h with slots := ?_, numbered := ?_ }
    · have hs := h.slots
      simp only [held_eq, length_append, length_singleton] at hs ⊢
      omega
    simp only [Multiset.range_succ, ← h.numbered, submitted_eq, List.map_append, List.map_cons,
      List.map_nil, ← Multiset.coe_add, Multiset.coe_singleton, ← Multiset.singleton_add]
    abel
  · exact h.cons_owner p

section

variable (h : Counted n m s)
include h

theorem Counted.account {account : ℕ} {entry entry' : Account}
    {used : ℕ} {releasers : Multiset Releaser} (hl : s.accounts.lookup account = some entry)
    (hu : used + entry.bytes = s.used + entry'.bytes) (hless : entry'.bytes ≤ entry.bytes)
    (hw : entry'.permitRef = true → entry'.bytes = hostPreparedByteCapacity) :
    Counted n m { s with used, accounts := s.accounts.insert account entry', releasers } := by
  refine { h with bytes := ?_, within := ?_, whole := ?_, fresh := ?_ }
  · have ht := total_insert_of_some s.accounts Account.bytes entry' hl
    have hb := h.bytes
    change used = (s.accounts.insert account entry').total Account.bytes
    omega
  · have hwithin := h.within
    change used ≤ hostPreparedAggregateByteCapacity
    omega
  · exact forall_lookup_insert hw fun other found _ => h.whole other found
  · intro other hs
    rw [lookup_insert_eq] at hs
    split at hs
    · next heq =>
      rw [heq]
      exact h.fresh account (by rw [hl]; rfl)
    · exact h.fresh other hs

theorem Counted.charge (account : ℕ) (logical : LogicalBytes) :
    Counted n m (s.charge account logical) := by
  unfold Executor.charge
  split
  · exact h
  next entry hl =>
  split
  · exact h
  next hp =>
  have hb : entry.bytes = hostPreparedByteCapacity := h.whole account entry hl (by simpa using hp)
  have hlogical : (logical : ℕ) ≤ entry.bytes := by
    rw [hb]
    exact Nat.le_of_lt_succ logical.isLt
  have hle : entry.bytes ≤ s.used := by
    rw [h.bytes]
    exact le_total s.accounts Account.bytes hl
  split
  · refine h.account hl ?_ hlogical (by simp)
    show s.used - (entry.bytes - logical) + entry.bytes = s.used + logical
    omega
  · exact h.account hl rfl le_rfl (by simp)

theorem Counted.unref (account : ℕ) {act : Account → Account}
    (hb : ∀ entry, (act entry).bytes = entry.bytes)
    (hp : ∀ entry, (act entry).permitRef = true → entry.permitRef = true) :
    Counted n m (s.unref account act) := by
  unfold Executor.unref
  split
  · exact h
  next entry hl =>
  refine h.account hl (by rw [hb]) (by rw [hb]) ?_
  intro hr
  rw [hb]
  exact h.whole account entry hl (hp entry hr)

theorem Counted.releaseStep (r : Releaser) : Counted n m (s.releaseStep r) := by
  cases r with
  | slot p => cases p <;> exact { h with }
  | unref a => exact h.unref a (fun _ => rfl) (by simp)
  | bytes a =>
    rw [Executor.releaseStep]
    split
    · exact h
    next e hl =>
    have ht := total_erase s.accounts Account.bytes hl
    have hb := h.bytes
    refine { h with
      bytes := ?_, within := (Nat.sub_le _ _).trans h.within, fresh := fun o hs => ?_
      whole := fun o f hf => h.whole o f (lookup_of_erase hf) }
    · change s.used - e.bytes = (s.accounts.erase a).total Account.bytes
      omega
    rw [lookup_erase_eq] at hs
    split at hs
    · cases hs
    · exact h.fresh o hs
  | bit => exact { h with }

end

theorem Counted.publish (h : Counted 1 {job.id} s) : Counted 0 0 (s.publish job) := by
  unfold Executor.publish
  split
  · exact h.stop.finish (fun _ => rfl)
  next hm =>
  split
  · next hs => exact h.finish (fun _ => hs)
  split
  · refine { h with slots := ?_, numbered := ?_, completion := ?_ }
    · have hslots := h.slots
      simp only [held_eq, hm, workerJobs, Multiset.map_cons, Multiset.sum_cons,
        Option.getD_some, List.length_append, List.length_singleton, zero_add] at hslots ⊢
      omega
    · simp only [← h.numbered, submitted_eq, hm, workerJobs, Multiset.map_cons,
        Multiset.sum_cons, Option.getD_some, List.map_append, List.map_cons, List.map_nil,
        ← Multiset.coe_add, Multiset.coe_singleton, zero_add]
      abel
    · exact fun _ => .inr (.inl (mem_cons_self _ _))
  · exact h.stop.finish (fun _ => rfl)

theorem Counted.cons_worker (h : Counted 1 {job.id} s) (job' : Job)
    (hj : workerJobs worker = {job'}) (hid : job'.id = job.id) :
    Counted 0 0 { s with workers := worker ::ₘ s.workers } := by
  refine { h with slots := ?_, numbered := ?_, completion := fun hne => ?_ }
  · have hs := h.slots
    simp only [held_eq, hj, Multiset.map_cons, Multiset.sum_cons, Multiset.card_add,
      Multiset.card_singleton] at hs ⊢
    omega
  · simp only [← h.numbered, submitted_eq, hj, hid, Multiset.map_cons, Multiset.sum_cons,
      Multiset.map_add, Multiset.map_singleton]
    abel
  · exact (h.completion hne).imp_right (Or.imp_left (mem_cons_of_mem ·))

theorem Counted.start (h : Counted 1 {job.id} s) : Counted 0 0 (s.start job) := by
  unfold Executor.start
  split
  · exact h.finish (by simp)
  split
  · next hs => exact h.finish (fun _ => hs)
  · exact h.cons_worker job rfl rfl

theorem Counted.ownerStep (h : Counted 0 0 s) (hpc : s.pc = .idle) (step : Step) :
    Counted 0 0 (s.ownerStep step) := by
  have hs := h.slots
  simp only [held_eq, hpc, pcSlots] at hs
  cases step with
  | reserveSlot =>
    rw [Executor.ownerStep]
    split
    · exact h
    split
    · exact { h with }
    next hroom =>
    refine { h with slots := ?_, capacity := Nat.lt_of_not_le hroom }
    simp only [held_eq, pcSlots]
    omega
  | submitCheck =>
    refine guarded h fun hmem => ?_
    refine { h with slots := ?_ }
    have hc := card_erase_add_one hmem.1
    simp only [held_eq, pcSlots]
    omega
  | dispose p => exact guarded h fun hmem => (h.erase_owner hmem).enqueue p .dispose
  | poll =>
    rw [Executor.ownerStep]
    split
    · next hm =>
      simp only [hm, getD_some, length_cons] at hs
      refine { h with slots := ?_, numbered := ?_, stopped := ?_, completion := ?_ }
      · simp only [held_eq, hpc, pcSlots, getD_some, card_cons]
        omega
      · simp only [← h.numbered, submitted_eq, hm, Option.getD_some, List.map_cons,
          ← Multiset.cons_coe, ← Multiset.singleton_add, Multiset.map_add, Multiset.map_singleton]
        abel
      · intro e hmem hd
        rcases mem_cons.mp hmem with rfl | hold
        · cases hd
        · exact h.stopped e hold hd
      · exact fun _ => h.completion (by simp [hm])
    · next hn =>
      refine { h with completion := fun hne => ?_ }
      cases hm : s.mailbox with
      | none => simp [hm] at hne
      | some c =>
        cases c with
        | nil => simp [hm] at hne
        | cons job rest => exact absurd hm (hn job rest)
  | close =>
    refine { h.stop with slots := ?_, numbered := ?_, completion := ?_ }
    · simp only [Executor.ownerStep, held_eq, hpc, pcSlots, getD_none, length_nil, length_append]
      omega
    · simp only [Executor.ownerStep, ← h.numbered, submitted_eq, getD_none, map_nil,
        map_append, coe_nil, ← coe_add]
      abel
    · exact absurd rfl
  | disposeRemaining =>
    rw [Executor.ownerStep]
    split
    · exact h
    next hr =>
    refine guarded h fun _ => ?_
    simp only [hr, List.length_cons] at hs
    refine { h with slots := ?_, numbered := ?_ }
    · simp only [held_eq, hpc, pcSlots, length_append, length_singleton]
      omega
    simp only [← h.numbered, submitted_eq, hr, List.map_append, List.map_cons,
      List.map_nil, Multiset.coe_nil, ← Multiset.coe_add, ← Multiset.cons_coe,
      ← Multiset.singleton_add]
    abel
  | takeCompletion =>
    refine { h with completion := fun hne => ?_ }
    rcases h.completion hne with hb | hsent | hdraining
    · exact .inr (.inr (by simp [Executor.ownerStep, hb]))
    · exact .inr (.inl hsent)
    · exact Or.inr (Or.inr (by simp [Executor.ownerStep, hdraining]))
  | takeCapacity => exact { h with }
  | dropPermit p => exact guarded h fun hmem => (h.erase_owner hmem).releaseSlot p
  | chargeOwned a l => exact guarded h fun hmem => ((h.erase_owner hmem).cons_owner none).charge a l
  | stop =>
    refine { h with slots := ?_, capacity := ?_, numbered := ?_, stopped := fun _ _ _ => rfl
                    completion := fun hne => absurd rfl hne }
    · simp only [Executor.ownerStep, held_eq, hpc, pcSlots, getD_none, length_nil]
      omega
    · exact (Nat.sub_le _ _).trans h.capacity
    have hi : (((s.mailbox.getD []).map fun job => (job.id, Ending.discarded) :
        List (ℕ × Ending)) : Multiset (ℕ × Ending)).map Prod.fst =
        ((s.mailbox.getD []).map Job.id : List ℕ) := by
      rw [Multiset.map_coe, List.map_map]
      rfl
    simp only [Executor.ownerStep, ← h.numbered, submitted_eq, getD_none, map_nil,
      Multiset.coe_nil, Multiset.map_add, hi]
    abel
  | _ => exact h

theorem Counted.step (h : Counted 0 0 s) (step : Step) : Counted 0 0 (s.step step) := by
  have ho : Counted 0 0 (if s.pc = .idle then s.ownerStep step else s) := by
    exact guarded h fun hpc => h.ownerStep hpc step
  have hs := h.slots
  rw [held_eq] at hs
  cases step with
  | reserveBytes =>
    refine guarded h fun hpc => ?_
    simp only [hpc, pcSlots] at hs
    split
    · refine { h with slots := ?_ }
      simp only [held_eq, pcSlots]
      omega
    next hr =>
    have ha : s.accounts.lookup s.nextAccount = none :=
      not_isSome_iff_eq_none.mp fun hsome => (h.fresh s.nextAccount hsome).false
    refine { h with slots := ?_, bytes := ?_, within := Nat.le_of_not_lt hr
                    whole := ?_, fresh := ?_ }
    · simp only [held_eq, pcSlots, card_cons]
      omega
    · have hb := h.bytes
      rw [total_insert_of_none s.accounts Account.bytes _ ha, ← hb, Nat.add_comm]
    · exact forall_lookup_insert (fun _ => rfl) fun account entry _ => h.whole account entry
    intro account hsome
    rw [lookup_insert_eq] at hsome
    change account < s.nextAccount + 1
    split at hsome
    · omega
    · exact Nat.lt_succ_of_lt (h.fresh account hsome)
  | giveBack =>
    refine guarded h fun hpc => ?_
    simp only [hpc, pcSlots] at hs
    refine { h with slots := ?_, capacity := (Nat.sub_le _ _).trans h.capacity }
    simp only [held_eq, pcSlots]
    omega
  | submitSend =>
    rw [Executor.step]
    split
    · next permit kind hpc =>
      simp only [hpc, pcSlots] at hs
      have hmoving : Counted 1 0 { s with pc := .idle } := by
        refine { h with slots := ?_ }
        simp only [held_eq, pcSlots]
        omega
      dsimp only
      split
      · exact hmoving.enqueue permit kind
      · exact hmoving.cons_owner permit
    · exact h
  | retain account =>
    rw [Executor.step]
    split
    · next entry hl =>
      refine guarded h fun hp => ?_
      exact h.account hl rfl le_rfl (h.whole account entry hl)
    · exact h
  | dropLoose account => exact guarded h fun _ => h.unref account (fun _ => rfl) (fun _ hp => hp)
  | chargeWorker job account logical =>
    refine guarded h fun hm => ?_
    refine Counted.charge ?_ account logical
    exact (h.erase_worker hm.1 rfl).cons_worker { job with permit := none } rfl rfl
  | recv =>
    rw [Executor.step]
    split
    · exact h
    next hq =>
    simp only [hq, length_cons] at hs
    refine { h with slots := ?_, numbered := ?_, completion := fun hne => ?_ }
    · simp only [held_eq, workerJobs, Multiset.map_cons, Multiset.sum_cons, Multiset.card_add,
        Multiset.card_singleton]
      omega
    · simp only [← h.numbered, submitted_eq, hq, workerJobs, List.map_cons,
        ← Multiset.cons_coe, ← Multiset.singleton_add, Multiset.map_add, Multiset.sum_add,
        Multiset.map_singleton, Multiset.sum_singleton]
      abel
    · exact (h.completion hne).imp_right (Or.imp_left (mem_cons_of_mem ·))
  | start => exact guarded h fun hm => (h.erase_worker hm rfl).start
  | publish => exact guarded h fun hm => (h.erase_worker hm rfl).publish
  | ring =>
    refine guarded h fun hm => ?_
    have hsum := (sum_workerJobs hm).trans (zero_add _)
    refine { h with slots := ?_, numbered := ?_, completion := fun _ => .inl rfl }
    · simp only [held_eq, ← hsum]
      exact hs
    · simp [← h.numbered, submitted_eq, hsum]
  | release releaser =>
    refine guarded h fun _ => ?_
    refine Counted.releaseStep ?_ releaser
    exact { h with }
  | _ => exact ho

theorem Counted.run (h : Counted 0 0 s) (steps : List Step) : Counted 0 0 (s.run steps) := by
  induction steps generalizing s with
  | nil => exact h
  | cons step _ ih => exact ih (h.step step)

structure Accounts (s : Executor) : Prop where
  permits : s.outstanding = s.held ∧ s.outstanding ≤ hostOperationCapacity
  bytes : s.used = s.accounts.total Account.bytes ∧ s.used ≤ hostPreparedAggregateByteCapacity
  queue_room : s.owner ≠ 0 ∨ s.remaining ≠ [] ∨ (∃ permit kind, s.pc = .submitting permit kind) →
    s.queue.length < hostOperationCapacity
  mailbox_room : ∀ job, Worker.executing job ∈ s.workers → ∀ completions ∈ s.mailbox,
    completions.length < hostOperationCapacity
  one_end : s.jobs.map Job.id + s.ended.map Prod.fst = Multiset.range s.nextJob
  discard_stopped : ∀ entry ∈ s.ended, entry.2 = Ending.discarded → s.stopping = true
  completion : ∀ completions ∈ s.mailbox, completions ≠ [] →
    s.completionPending = true ∨ Worker.sent ∈ s.workers ∨ s.draining = true

theorem Counted.accounts (h : Counted 0 0 s) : Accounts s := by
  have hs := h.slots
  have hc := h.capacity
  rw [held_eq] at hs
  refine
    { permits := ⟨h.slots, h.capacity⟩, bytes := ⟨h.bytes, h.within⟩, queue_room := ?_
      mailbox_room := ?_, one_end := (add_zero s.submitted).symm.trans h.numbered
      discard_stopped := h.stopped, completion := ?_ }
  · rintro (ho | hr | ⟨permit, kind, hpc⟩)
    · have hp := card_pos.mpr ho
      omega
    · have hp := length_pos_iff.mpr hr
      omega
    · simp only [hpc, pcSlots] at hs
      omega
  · intro job hmem c hm
    simp only [sum_workerJobs hmem, workerJobs, card_add, card_singleton,
      mem_def.mp hm, getD_some] at hs
    omega
  · intro c hm hne
    refine h.completion ?_
    rw [mem_def.mp hm]
    exact hne

end Executor

end BotsterHub.Host
