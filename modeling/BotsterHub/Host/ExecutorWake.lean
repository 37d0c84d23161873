import BotsterHub.Host.ExecutorAccounts

/-!
The capacity bit of the host executor. A refused reservation is tried again when the owner takes
the bit, so the release that makes room has to set it. Every release does, except the one inside
`into_charge`.
-/

namespace BotsterHub.Host

open Machine Multiset Executor

namespace Executor

variable {s : Executor}

def Room (s : Executor) : Prop :=
  s.outstanding < hostOperationCapacity ∧
    s.used + hostPreparedByteCapacity ≤ hostPreparedAggregateByteCapacity

instance (s : Executor) : Decidable s.Room := inferInstanceAs (Decidable (_ ∧ _))

def Rung (s : Executor) : Prop := s.capacityPending = true ∨ ∃ r ∈ s.releasers, r.rings = true

instance (s : Executor) : Decidable s.Rung :=
  haveI := Multiset.decidableExistsMultiset (m := s.releasers) (p := fun r => r.rings = true)
  inferInstanceAs (Decidable (_ ∨ _))

structure Woken (s : Executor) : Prop where
  wake : s.waiting = true → ¬s.Room ∨ s.Rung
  givingBack : s.pc = .givingBack → s.waiting = true ∧
    (hostPreparedAggregateByteCapacity < s.used + hostPreparedByteCapacity ∨ s.Rung)

structure Narrows (s s' : Executor) : Prop where
  outstanding : s.outstanding ≤ s'.outstanding
  used : s.used ≤ s'.used
  rung : s.Rung → s'.Rung
  waiting : s'.waiting = s.waiting
  pc : s'.pc = .givingBack → s.pc = .givingBack

theorem Narrows.trans (h : Narrows s s') (h' : Narrows s' s'') : Narrows s s'' :=
  ⟨h.outstanding.trans h'.outstanding, h.used.trans h'.used, h'.rung ∘ h.rung,
    h'.waiting.trans h.waiting, h.pc ∘ h'.pc⟩

variable {s' : Executor}

-- Most steps leave what `Narrows` is about as it is.
theorem Woken.narrow (h : Woken s)
    (hn : Narrows s s' := by exact ⟨le_rfl, le_rfl, id, rfl, id⟩) : Woken s' := by
  have ho := hn.outstanding
  have hu := hn.used
  constructor
  · intro hw
    rw [hn.waiting] at hw
    refine (h.wake hw).imp (fun hf hr => hf ?_) hn.rung
    unfold Room at hr ⊢
    omega
  · intro hpc
    obtain ⟨hw, hb⟩ := h.givingBack (hn.pc hpc)
    refine ⟨hn.waiting.trans hw, hb.imp (fun hf => ?_) hn.rung⟩
    omega

theorem Woken.ring (h : Woken s) (hr : s'.Rung)
    (hw : s'.waiting = s.waiting) (hpc : s'.pc = .givingBack → s.pc = .givingBack) :
    Woken s' :=
  ⟨fun _ => .inr hr, fun hg => ⟨hw.trans (h.givingBack (hpc hg)).1, .inr hr⟩⟩

theorem rung_releaseSlot (s : Executor) (p : Permit) : (s.releaseSlot p).Rung :=
  .inr ⟨.slot p, mem_cons_self _ _, rfl⟩

theorem Rung.erase (h : s.Rung) (hs : r.rings = false) :
    { s with releasers := s.releasers.erase r }.Rung := by
  refine h.imp_right ?_
  rintro ⟨o, hm, hr⟩
  refine ⟨o, (mem_erase_of_ne ?_).mpr hm, hr⟩
  rintro rfl
  rw [hs] at hr
  cases hr

theorem narrows_enqueue (s : Executor) (p : Permit) (kind : JobKind) :
    Narrows s (s.enqueue p kind) := by
  unfold enqueue
  split <;> exact ⟨le_rfl, le_rfl, id, rfl, id⟩

theorem narrows_unref (s : Executor) (a : ℕ) (act : Account → Account) :
    Narrows s (s.unref a act) := by
  unfold unref
  split
  · exact ⟨le_rfl, le_rfl, id, rfl, id⟩
  refine ⟨le_rfl, le_rfl, fun hrung => hrung.imp_right ?_, rfl, id⟩
  rintro ⟨r, hm, hr⟩
  refine ⟨r, ?_, hr⟩
  dsimp only
  split
  · exact mem_cons_of_mem hm
  · exact hm

variable {logical : LogicalBytes}

theorem narrows_charge (hu : (s.charge a logical).used = s.used) :
    Narrows s (s.charge a logical) := by
  have hr : s.outstanding ≤ (s.charge a logical).outstanding ∧
      (s.Rung → (s.charge a logical).Rung) ∧ (s.charge a logical).waiting = s.waiting ∧
      ((s.charge a logical).pc = .givingBack → s.pc = .givingBack) := by
    unfold charge
    split
    · exact ⟨le_rfl, id, rfl, id⟩
    split
    · exact ⟨le_rfl, id, rfl, id⟩
    · split <;> exact ⟨le_rfl, id, rfl, id⟩
  exact ⟨hr.1, hu.ge, hr.2.1, hr.2.2.1, hr.2.2.2⟩

/-- A charge gives no bytes back while the owner waits for room. -/
def Loud (s : Executor) : Step → Prop
  | .chargeOwned account logical | .chargeWorker _ account logical =>
    s.waiting = true → (s.charge account logical).used = s.used
  | _ => True

instance (s : Executor) (step : Step) : Decidable (s.Loud step) := by
  cases step <;> unfold Loud <;> infer_instance

section

variable (h : Woken s)
include h

theorem Woken.charge (hl : s.waiting = true → (s.charge a logical).used = s.used)
    (ha : s'.accounts = s.accounts) (hu : s'.used = s.used) (hn : Narrows s s') :
    Woken (s'.charge a logical) := by
  have hs : (s'.charge a logical).used = (s.charge a logical).used := by
    unfold Executor.charge
    rw [ha]
    split
    · exact hu
    split
    · exact hu
    split
    · show s'.used - _ = s.used - _
      rw [hu]
    · exact hu
  have hk : (s'.charge a logical).waiting = s'.waiting ∧ (s'.charge a logical).pc = s'.pc := by
    unfold Executor.charge
    split
    · exact ⟨rfl, rfl⟩
    split
    · exact ⟨rfl, rfl⟩
    · split <;> exact ⟨rfl, rfl⟩
  cases hw : s.waiting with
  | true =>
    refine (h.narrow hn).narrow (narrows_charge ?_)
    rw [hs, hl hw, hu]
  | false =>
    have hq : (s'.charge a logical).waiting = false := hk.1.trans (hn.waiting.trans hw)
    constructor
    · intro hnow
      rw [hq] at hnow
      cases hnow
    intro hpc
    rw [hk.2] at hpc
    rw [(h.givingBack (hn.pc hpc)).1] at hw
    cases hw

theorem Woken.finish (job : Job) (e : Ending) :
    Woken (s.finish job e) := h.ring (rung_releaseSlot s job.permit) rfl id

theorem Woken.releaseStep (hm : r ∈ s.releasers) :
    Woken ({ s with releasers := s.releasers.erase r }.releaseStep r) := by
  have he : r.rings = false → Narrows s { s with releasers := s.releasers.erase r } :=
    fun hs => ⟨le_rfl, le_rfl, fun hr => hr.erase hs, rfl, id⟩
  cases r with
  | slot p => cases p <;> exact h.ring (.inl rfl) rfl id
  | unref a => exact h.narrow ((he rfl).trans (narrows_unref _ a _))
  | bytes =>
    rw [Executor.releaseStep]
    split
    · exact h.narrow (he rfl)
    next e hl =>
    by_cases hp : 0 < e.bytes
    · refine h.ring (.inr ⟨.bit, ?_, rfl⟩) rfl id
      rw [if_pos hp]
      exact mem_cons_self _ _
    refine h.narrow ((he rfl).trans ⟨le_rfl, ?_, ?_, rfl, id⟩)
    · show s.used ≤ s.used - e.bytes
      omega
    · rw [if_neg hp]
      exact id
  | bit => exact h.ring (.inl rfl) rfl id

theorem Woken.ownerStep (hpc : s.pc = .idle) {step : Step}
    (hl : s.Loud step) : Woken (s.ownerStep step) := by
  cases step with
  | reserveSlot =>
    rw [Executor.ownerStep]
    split
    · exact h
    split
    · next hf =>
      refine ⟨fun _ => .inl fun hroom => ?_, fun hg => ?_⟩
      · exact absurd hroom.1 (Nat.not_lt.mpr hf)
      change s.pc = .givingBack at hg
      rw [hpc] at hg
      cases hg
    · exact h.narrow ⟨Nat.le_succ _, le_rfl, id, rfl, by rintro ⟨⟩⟩
  | submitCheck => exact guarded h fun _ => h.narrow ⟨le_rfl, le_rfl, id, rfl, by rintro ⟨⟩⟩
  | dispose p =>
    refine guarded h fun _ => ?_
    have he : Narrows s { s with owner := s.owner.erase p } := ⟨le_rfl, le_rfl, id, rfl, id⟩
    exact h.narrow (he.trans (narrows_enqueue _ p .dispose))
  | poll =>
    rw [Executor.ownerStep]
    split <;> exact h.narrow
  | close | takeCompletion => exact h.narrow
  | disposeRemaining =>
    rw [Executor.ownerStep]
    split
    · exact h
    exact guarded h fun _ => h.narrow
  | takeCapacity =>
    refine ⟨fun hw => ?_, fun hg => ?_⟩
    · change (s.waiting && !s.capacityPending) = true at hw
      obtain ⟨hold, hb⟩ := (Bool.and_eq_true _ _).mp hw
      refine (h.wake hold).imp_right fun hrung => .inr (hrung.resolve_left ?_)
      simpa using hb
    · change s.pc = .givingBack at hg
      rw [hpc] at hg
      cases hg
  | dropPermit p => exact guarded h fun _ => h.ring (rung_releaseSlot _ p) rfl id
  | chargeOwned => exact guarded h fun _ => h.charge hl rfl rfl ⟨le_rfl, le_rfl, id, rfl, id⟩
  | stop =>
    cases hd : s.mailbox.getD [] with
    | nil =>
      refine h.narrow ⟨?_, le_rfl, ?_, rfl, id⟩
      · simp [Executor.ownerStep, hd]
      rintro (hb | ⟨r, hm, hr⟩)
      · exact .inl hb
      · exact .inr ⟨r, mem_add.mpr (.inr hm), hr⟩
    | cons job =>
      refine h.ring (.inr ⟨.slot job.permit, ?_, rfl⟩) rfl id
      refine mem_add.mpr (.inl ?_)
      simp [hd]
  | _ => exact h

theorem Woken.step {step : Step} (hl : s.Loud step) : Woken (s.step step) := by
  have ho : Woken (if s.pc = .idle then s.ownerStep step else s) := by
    exact guarded h fun hpc => h.ownerStep hpc hl
  cases step with
  | reserveBytes =>
    refine guarded h fun _ => ?_
    split
    · next hf =>
      refine ⟨fun _ => .inl fun hr => ?_, fun _ => ⟨rfl, .inl hf⟩⟩
      exact absurd hr.2 (Nat.not_le.mpr hf)
    · exact h.narrow ⟨le_rfl, Nat.le_add_right _ _, id, rfl, by rintro ⟨⟩⟩
  | giveBack =>
    refine guarded h fun hpc => ?_
    refine ⟨fun _ => ?_, by rintro ⟨⟩⟩
    refine (h.givingBack hpc).2.imp (fun hf hr => ?_) id
    exact absurd hr.2 (Nat.not_le.mpr hf)
  | submitSend =>
    rw [Executor.step]
    split
    · next p kind hpc =>
      have hi : Narrows s { s with pc := .idle } := ⟨le_rfl, le_rfl, id, rfl, by rintro ⟨⟩⟩
      dsimp only
      split
      · exact h.narrow (hi.trans (narrows_enqueue _ p kind))
      · exact h.narrow (hi.trans ⟨le_rfl, le_rfl, id, rfl, id⟩)
    · exact h
  | retain =>
    rw [Executor.step]
    split
    · exact guarded h fun _ => h.narrow
    · exact h
  | dropLoose a => exact guarded h fun _ => h.narrow (narrows_unref s a _)
  | chargeWorker => exact guarded h fun _ => h.charge hl rfl rfl ⟨le_rfl, le_rfl, id, rfl, id⟩
  | recv =>
    rw [Executor.step]
    split
    · exact h
    · exact h.narrow
  | start job =>
    refine guarded h fun _ => ?_
    have he : Woken { s with workers := s.workers.erase (.received job) } := h.narrow
    unfold start
    split
    · exact he.finish job .disposed
    split
    · exact he.finish job .discarded
    · exact he.narrow
  | publish job =>
    refine guarded h fun _ => ?_
    have he : Woken { s with workers := s.workers.erase (.executing job) } := h.narrow
    unfold publish
    split
    · exact (he.finish job .discarded).narrow
    split
    · exact he.finish job .discarded
    split
    · exact he.narrow
    · exact (he.finish job .discarded).narrow
  | ring => exact guarded h fun _ => h.narrow
  | release => exact guarded h fun hm => h.releaseStep hm
  | _ => exact ho

theorem Woken.run {steps : List Step}
    (hl : Machine.Along (fun s step => some (s.step step)) Loud s steps) :
    Woken (s.run steps) := by
  induction steps generalizing s with
  | nil => exact h
  | cons step _ ih =>
    obtain ⟨hf, hr⟩ := hl
    exact ih (h.step hf) (hr (s.step step) rfl)

end

theorem woken_new : Woken new := by constructor <;> simp [new]

/-- The accounts hold; without silent charges the release that makes room for a refused owner sets
the capacity bit. -/
theorem run_accounts_wake (steps : List Step) : Accounts (new.run steps) ∧
      (Machine.Along (fun s step => some (s.step step)) Loud new steps →
        (new.run steps).waiting = true → (new.run steps).Room → (new.run steps).Rung) := by
  have hcounted : Counted 0 0 (new.run steps) := counted_new.run steps
  refine ⟨hcounted.accounts, fun hloud hwaiting hroom => ?_⟩
  have hwoken : Woken (new.run steps) := woken_new.run hloud
  exact (hwoken.wake hwaiting).resolve_left fun hfull => hfull hroom

def fill : List Step :=
  (List.replicate hostOperationCapacity [Step.reserveSlot, Step.reserveBytes]).flatten

/-- The first reservation becomes a charge of one byte, the second travels to a worker. The owner is
refused for bytes. -/
def refused : List Step :=
  fill ++ [.chargeOwned 0 1, .dropPermit none, .release (.slot none), .takeCapacity,
      .submitCheck (some 1) .run, .submitSend, .recv, .start ⟨0, .run, some 1⟩,
      .reserveSlot, .reserveBytes, .giveBack]

theorem run_accounts_wake_drop :
    (new.run (refused ++ [.publish ⟨0, .run, some 1⟩, .ring, .poll, .dropPermit (some 1),
      .release (.slot (some 1)), .release (.unref 1), .release (.bytes 1)])).Rung :=
  (run_accounts_wake _).2 (by decide +kernel) (by decide +kernel) (by decide +kernel)

/-- A worker's reservation that becomes a charge of one byte makes room and rings nothing. -/
theorem charge_silent : let s := new.run (refused ++ [.chargeWorker ⟨0, .run, some 1⟩ 1 1])
    s.waiting = true ∧ s.Room ∧ ¬s.Rung ∧ s.pc = .idle := by
  decide +kernel

end Executor

end BotsterHub.Host
