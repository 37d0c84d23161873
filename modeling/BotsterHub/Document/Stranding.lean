import BotsterHub.Document.Wakes

/-!
Whole runs of the document's mutations. Only the owner writes and publishes, over the published
revision. A parked mutation is never stranded in a run in which no second preparation fails while
it carries the wake.
-/

namespace BotsterHub.Document

open Finset Continuation HostCommand Phase State

theorem Continuation.waits_of_repreparing {continuation : Continuation}
    (h : continuation.repreparing = true) : continuation.waits = true := by
  cases continuation with
  | host => cases h
  | managed worktree =>
    cases hp : worktree.phase <;> simp_all [repreparing, waits, prepares, onHost]

namespace View

variable {v : View} {owns : Prop} {revision : ℕ}

theorem Fits.mark (h : v.Fits owns revision) (hl : ¬v.listed) :
    { v with ready := True }.Fits owns revision :=
  { h with
    busy := fun continuation hc hw =>
      (h.busy continuation hc hw).imp id fun hd => ⟨hd.1, hd.2.1, trivial⟩
    listed := fun hm => absurd hm hl
    parked := fun _ _ _ => .inr trivial }

theorem Fits.unmark (h : v.Fits owns revision) (hg : v.continuation = none) :
    { v with ready := False }.Fits owns revision :=
  { h with
    busy := fun continuation hc _ => by
      rw [show v.continuation = some continuation from hc] at hg
      cases hg
    listed := fun hm => ⟨not_false, (h.listed hm).2⟩
    parked := fun continuation hc _ => by
      rw [show v.continuation = some continuation from hc] at hg
      cases hg }

theorem Fits.answer (h : v.Fits owns revision) (hj : v.job = some c) (ha : c.answers r = true) :
    { v with job := none, completion := some r, ready := True }.Fits owns revision := by
  have hl : ¬v.listed := fun hm => by
    obtain ⟨-, continuation, hc, hp⟩ := h.listed hm
    have hi := h.idle continuation hc (waits_of_parked hp)
    rw [hi.1] at hj
    cases hj
  refine ⟨fun hg => ?_, fun continuation hc hi => ?_,
    fun _ _ _ => .inr ⟨rfl, rfl, trivial⟩, fun hm => absurd hm hl,
    fun _ _ _ => .inr trivial, fun hs => ?_, nofun, fun other ho hpublishes => ?_⟩
  · rw [(h.gone hg).1] at hj
    cases hj
  · rw [(h.idle continuation hc hi).1] at hj
    cases hj
  · rcases hs with houtside | hn | ⟨other, ho, hprepared⟩
    · exact h.seeks (.inl houtside)
    · cases hn
    -- only a preparation is answered by `prepared`
    cases ho
    refine h.seeks (.inr (.inl ?_))
    cases c <;> cases r <;> simp_all [answers, HostResult.isPrepared]
    all_goals split at ha <;> simp_all
  · -- and only a write by a result that publishes
    cases ho
    have hb : ∃ base, c.base = some base := by
      cases c <;> cases r <;> simp_all [answers, HostResult.publishes, base]
      all_goals split at ha <;> simp_all
    obtain ⟨base, hb⟩ := hb
    exact (h.writes c hj base hb).1

end View

namespace State

variable {s s' : State} {waiterId o : ℕ} {continuation : Continuation} {owed : Prop}

section

variable (hen : s.pendingRequests.lookup waiterId = some continuation)
include hen

theorem Sound.out_idle (h : Sound s) (hr : waiterId ∈ s.ready) (hw : continuation.waits = false) :
    Sound (s.out waiterId s.hostCompletions) ∧
      (s.out waiterId s.hostCompletions).Free waiterId := by
  obtain ⟨hj, hc⟩ := (h.waiter waiterId).idle continuation hen hw
  refine h.out hen hr hj fun o => ?_
  split
  · next heq =>
    rw [heq]
    exact hc
  · rfl

theorem Sound.out_answered (h : Sound s) (hr : waiterId ∈ s.ready) (hw : continuation.waits = true)
    (hc : s.hostCompletions.lookup waiterId = some r) :
    Sound (s.out waiterId (s.hostCompletions.erase waiterId)) ∧
      (s.out waiterId (s.hostCompletions.erase waiterId)).Free waiterId := by
  have hj : s.jobs.lookup waiterId = none := by
    rcases (h.waiter waiterId).busy continuation hen hw with ⟨-, hn⟩ | ⟨hj, -⟩
    · rw [show (s.view waiterId).completion = some r from hc] at hn
      cases hn
    · exact hj
  exact h.out hen hr hj fun o => AList.lookup_erase_eq _ _ _

theorem not_carries_of_idle
    (hp : continuation.parked = false) (hr : continuation.repreparing = false) :
    ¬s.Carries waiterId := by
  rintro ⟨carrier, hc, hrest⟩
  rw [hen] at hc
  cases hc
  rcases hrest with ⟨hw, -⟩ | hw
  · rw [hp] at hw
    cases hw
  · rw [hr] at hw
    cases hw

end

theorem fine_pollHost (h : Sound s) (hen : s.pendingRequests.lookup waiterId = some (.host m))
    (hr : waiterId ∈ s.ready) (turn : Turn) (howed : owed → Owed s) :
    Fine owed waiterId ((s.out waiterId s.hostCompletions).pollHost waiterId m turn) := by
  have hfits := h.waiter waiterId
  cases m with
  | retainedPrepare b =>
    obtain ⟨hs, hf⟩ := h.out_idle hen hr rfl
    exact fine_admitOrParkCommit hs hf (hfits.seeks (.inl ⟨_, hen, rfl⟩)) b turn
  | familyWork saved cleanup =>
    obtain ⟨hs, hf⟩ := h.out_idle hen hr rfl
    have howed' : owed → Owed (s.out waiterId s.hostCompletions) := fun ho =>
      (howed ho).out (not_carries_of_idle hen rfl rfl)
    unfold pollHost
    dsimp only
    split
    · exact (fine_idle hs hf rfl rfl (fun hout => by cases hout) howed').1
    · exact (fine_idle hs hf rfl rfl (fun hout => by cases hout) howed').2
    · exact fine_cleanUpPackages hs hf saved cleanup turn howed'
  | running c =>
    unfold pollHost
    dsimp only [out]
    split
    · next hc => exact fine_unanswered h hen rfl hc howed
    next r hc =>
    obtain ⟨hs, hf⟩ := h.out_answered hen hr rfl hc
    exact fine_runCompleted hs hf (fun hp => hfits.seeks (.inr (.inr ⟨r, hc, hp⟩)))
      (hfits.publishes r hc) c turn
      fun ho => (howed ho).out (not_carries_of_idle hen rfl rfl)
  | eventCleanup saved cleanup =>
    unfold pollHost
    dsimp only [out]
    split
    · next hc => exact fine_unanswered h hen rfl hc howed
    next r hc =>
    obtain ⟨hs, hf⟩ := h.out_answered hen hr rfl hc
    exact fine_eventCleanupCompleted hs hf saved cleanup r turn
      fun ho => (howed ho).out (not_carries_of_idle hen rfl rfl)

variable {w : ManagedWorktree}

/-- Only preparations that were made again can carry the wake; the condition of the run is about
those that fail. -/
theorem fine_managedCompleted (h : Sound s)
    (hen : s.pendingRequests.lookup waiterId = some (.managed w))
    (hr : waiterId ∈ s.ready) (hw : w.phase.onHost = true)
    (hc : s.hostCompletions.lookup waiterId = some r) (turn : Turn)
    (howed : owed → Owed s ∧ s.Orderly (.poll waiterId turn)) :
    Fine owed waiterId ((s.out waiterId (s.hostCompletions.erase waiterId)).managedCompleted
      waiterId w r turn) := by
  have hfits := h.waiter waiterId
  obtain ⟨hs, hf⟩ := h.out_answered hen hr hw hc
  have houtside : (managed w).outside = true →
      (s.out waiterId (s.hostCompletions.erase waiterId)).documentOwner ≠ some waiterId :=
    fun hout => hfits.seeks (.inl ⟨_, hen, hout⟩)
  have hpublishes : r.publishes = true →
      (s.out waiterId (s.hostCompletions.erase waiterId)).documentOwner = some waiterId :=
    hfits.publishes r hc
  have hparked : (Continuation.managed w).parked = false := by
    cases hp : w.phase <;> simp_all [Continuation.parked, Phase.parked, Phase.onHost]
  have hplain : w.phase.prepares = false → owed →
      Owed (s.out waiterId (s.hostCompletions.erase waiterId)) := fun hprepares ho =>
    (howed ho).1.out (not_carries_of_idle hen hparked (by simp [repreparing, hprepares]))
  have hprepare : owed → r.isPrepared = true ∨
      Owed (s.out waiterId (s.hostCompletions.erase waiterId)) := by
    intro ho
    obtain ⟨howed, horderly⟩ := howed ho
    by_cases hcarries : (managed w).repreparing = true
    · cases hprepared : r.isPrepared with
      | true => exact .inl rfl
      | false =>
        refine .inr ?_
        have hg := horderly (by rw [hen]; exact hcarries) (by rw [hc]; simp [hprepared])
        rcases hg with howner | he
        · exact owed_of_owner howner
        intro _ hsome
        rw [show (s.out waiterId _).documentWaiters = ∅ from he] at hsome
        exact absurd hsome not_nonempty_empty
    · exact .inr (howed.out (not_carries_of_idle hen hparked (by simpa using hcarries)))
  unfold managedCompleted
  split
  · next hp =>
    exact fine_created hs hf (houtside (by simp [outside, hp])) w r turn (hplain (by rw [hp]; rfl))
  · next hp =>
    exact fine_recordPrepared hs hf (houtside (by simp [outside, hp])) w turn hprepare
  · next hp =>
    exact fine_recordCommitted hs hf w hpublishes turn (hplain (by rw [hp]; rfl))
  · next hp =>
    exact fine_finalizedRollback hs hf (houtside (by simp [outside, hp])) w r
      (hplain (by rw [hp]; rfl))
  · next hp =>
    exact fine_removalPrepared hs hf (houtside (by simp [outside, hp])) w turn hprepare
  · next hp =>
    exact fine_removalCommitted hs hf hpublishes (hplain (by rw [hp]; rfl))
  all_goals
    next hp => exact fine_finished hs (hplain (by rw [hp]; rfl))

theorem fine_pollManaged (h : Sound s) (hen : s.pendingRequests.lookup waiterId = some (.managed w))
    (hr : waiterId ∈ s.ready) (turn : Turn)
    (howed : owed → Owed s ∧ s.Orderly (.poll waiterId turn)) :
    Fine owed waiterId ((s.out waiterId s.hostCompletions).pollManaged waiterId w turn) := by
  have houtside : (managed w).outside = true → s.documentOwner ≠ some waiterId :=
    fun hout => (h.waiter waiterId).seeks (.inl ⟨_, hen, hout⟩)
  have hspawn : w.phase = .spawn ∨ w.phase = .handoff → Fine owed waiterId
        ((s.out waiterId s.hostCompletions).pollSpawn waiterId w turn) := by
    intro hp
    have hq : (managed w).waits = false ∧ (managed w).parked = false ∧
        (Continuation.managed w).repreparing = false := by
      rcases hp with hp | hp <;>
        simp [Continuation.waits, Continuation.parked, Continuation.repreparing, hp,
          Phase.onHost, Phase.parked, Phase.prepares]
    obtain ⟨hs, hf⟩ := h.out_idle hen hr hq.1
    refine fine_pollSpawn hs hf (houtside ?_) hp turn fun ho =>
      (howed ho).1.out (not_carries_of_idle hen hq.2.1 hq.2.2)
    rcases hp with hp | hp <;> simp [outside, hp]
  unfold pollManaged
  split
  iterate 2
    next b hp =>
      obtain ⟨hs, hf⟩ := h.out_idle hen hr (by simp [waits, onHost, hp])
      exact fine_admitChange hs hf (houtside (by simp [outside, hp])) _ w b true turn
  · next hp => exact hspawn (.inl hp)
  · next hp => exact hspawn (.inr hp)
  next hrecord hremoval hspawning hh =>
  have hw : w.phase.onHost = true := by cases hp : w.phase <;> simp_all [onHost]
  split
  · next hc =>
    exact fine_unanswered h hen hw hc fun ho => (howed ho).1
  · next hc =>
    exact fine_managedCompleted h hen hr hw hc turn howed

theorem fine_poll (h : Sound s) (waiterId : ℕ) (turn : Turn) : Sound (s.poll waiterId turn) ∧
      (Owed s ∧ s.Orderly (.poll waiterId turn) → Owed (s.poll waiterId turn)) := by
  cases hen : s.pendingRequests.lookup waiterId with
  | none =>
    have hp : s.poll waiterId turn =
        { s with ready := s.ready.erase waiterId, late := s.late.erase waiterId } := by
      simp [poll, hen]
    rw [hp]
    constructor
    · refine ⟨fun o => ?_, fun o hle => ?_, h.submissions, h.publications⟩
      · have hv : { s with ready := s.ready.erase waiterId, late := s.late.erase waiterId }.view o =
            if o = waiterId then { s.view o with ready := False } else s.view o := by
          split
          · next heq => simp [view, heq]
          · next hne => simp [view, hne]
        rw [hv]
        split
        · next heq => exact (h.waiter o).unmark (by rw [heq]; exact hen)
        · exact h.waiter o
      · obtain ⟨hb, howner⟩ := h.fresh o hle
        refine ⟨?_, howner⟩
        have hr : o ∉ s.ready := of_eq_false (congrArg View.ready hb)
        rw [← hb]
        simp [view, hr]
    · rintro ⟨howed, -⟩
      refine howed.mono id rfl fun o hcarries => ?_
      obtain ⟨c, hc, hrest⟩ := hcarries
      have hne : o ≠ waiterId := fun heq => by
        rw [heq, hen] at hc
        cases hc
      exact ⟨c, hc, hrest.imp_left fun hw => ⟨hw.1, mem_erase_of_ne_of_mem hne hw.2⟩⟩
  | some continuation =>
    by_cases hr : waiterId ∈ s.ready
    · have hp : s.poll waiterId turn =
          (((s.out waiterId s.hostCompletions).pollContinuation waiterId continuation
            turn).1).keep waiterId ((s.out waiterId s.hostCompletions).pollContinuation waiterId
              continuation turn).2 := by
        simp [poll, hen, hr, out]
      rw [hp]
      have hf : Fine (Owed s ∧ s.Orderly (.poll waiterId turn)) waiterId
          ((s.out waiterId s.hostCompletions).pollContinuation waiterId continuation turn) := by
        cases continuation with
        | host => exact fine_pollHost h hen hr turn And.left
        | managed => exact fine_pollManaged h hen hr turn id
      exact ⟨hf.sound, hf.owed⟩
    · have hp : s.poll waiterId turn = { s with late := s.late.erase waiterId } := by
        simp [poll, hen, hr]
      rw [hp]
      exact ⟨⟨h.waiter, h.fresh, h.submissions, h.publications⟩, fun ho => ho.1⟩

theorem carries_mark (hc : s.Carries o) : (s.markOwnerReady waiterId).Carries o := by
  unfold markOwnerReady
  split
  · obtain ⟨c, hcarrier, hr⟩ := hc
    exact ⟨c, hcarrier, hr.imp_left fun hw => ⟨hw.1, mem_insert_of_mem hw.2⟩⟩
  · exact hc

theorem Owed.mark (ho : Owed s) (waiterId : ℕ) : Owed (s.markOwnerReady waiterId) := by
  refine ho.mono (fun hn => documentOwner_markOwnerReady s waiterId ▸ hn) ?_ fun _ => carries_mark
  unfold markOwnerReady
  split <;> rfl

section

variable (h : Sound s)
include h

theorem Sound.mark (hl : waiterId ∉ s.documentWaiters) : Sound (s.markOwnerReady waiterId) := by
  unfold markOwnerReady
  split
  · next hs =>
    obtain ⟨continuation, hen⟩ := Option.isSome_iff_exists.mp hs
    refine h.touch (h.used hen) (fun o hne => ?_) ?_ ((h.waiter waiterId).mark hl)
    · simp [view, hne]
    · simp [view]
  · exact h

theorem fine_hostDone (waiterId : ℕ) (r : HostResult) :
    Sound (s.hostDone waiterId r) ∧ (Owed s → Owed (s.hostDone waiterId r)) := by
  unfold hostDone
  split
  · exact ⟨h, id⟩
  next hj =>
  split
  · next ha =>
    have hf := h.waiter waiterId
    obtain ⟨continuation, hen⟩ : ∃ continuation,
        s.pendingRequests.lookup waiterId = some continuation := by
      cases hen : s.pendingRequests.lookup waiterId with
      | none =>
        have hn : s.jobs.lookup waiterId = none := (hf.gone hen).1
        rw [hn] at hj
        cases hj
      | some continuation => exact ⟨continuation, rfl⟩
    refine ⟨?_, fun ho => Owed.mark ?_ waiterId⟩
    swap
    · exact ho.mono id rfl fun _ hc => hc
    simp only [markOwnerReady, hen, Option.isSome_some, if_true]
    refine h.touch (h.used hen) (fun o hne => ?_) ?_ (hf.answer hj ha)
    · simp [view, hne]
    · simp [view]
  · exact ⟨h, id⟩

theorem fine_start (hbase : c.base = none) (hw : continuation.waits = true) :
    Sound (s.start c continuation) ∧ (Owed s → Owed (s.start c continuation)) := by
  obtain ⟨hb, howner⟩ := h.fresh s.nextWaiter le_rfl
  have hg : Sound { s with nextWaiter := s.nextWaiter + 1 } :=
    ⟨h.waiter, fun o hle => h.fresh o (Nat.le_of_succ_le hle), h.submissions, h.publications⟩
  have hf : State.Free { s with nextWaiter := s.nextWaiter + 1 } s.nextWaiter :=
    ⟨hb, Nat.lt_succ_self _⟩
  have hstart : s.start c continuation =
      ((({ s with nextWaiter := s.nextWaiter + 1 }.submitPhase s.nextWaiter
        c).keep s.nextWaiter (.pending continuation)).markOwnerReady s.nextWaiter) := rfl
  rw [hstart]
  have hs : Fine (Owed s) s.nextWaiter
      ({ s with nextWaiter := s.nextWaiter + 1 }.submitPhase s.nextWaiter c,
        .pending continuation) :=
    fine_submit hg hf hw (fun _ => howner) (fun _ => howner)
      (fun base hm => by rw [hbase] at hm; cases hm)
      fun ho => ho.mono id rfl fun _ hc => hc
  exact ⟨hs.sound.mark hf.notListed, fun ho => (hs.owed ho).mark s.nextWaiter⟩

theorem fine_wake (waiterId : ℕ) : Sound (s.wake waiterId) ∧ (Owed s → Owed (s.wake waiterId)) := by
  unfold wake
  split
  · exact ⟨h, id⟩
  next continuation hen =>
  split
  · exact ⟨h, id⟩
  next hp =>
  refine ⟨h.mark fun hm => ?_, fun howed => howed.mark waiterId⟩
  obtain ⟨-, o, ho, ho'⟩ := (h.waiter waiterId).listed hm
  rw [show (s.view waiterId).continuation = some continuation from hen] at ho
  exact hp (Option.some.inj ho ▸ ho')

/-- Every step keeps the waiters accounted for, and an orderly one also the wake that is owed. -/
theorem fine_step (step : Step) :
    Sound (s.step step) ∧ (Owed s ∧ s.Orderly step → Owed (s.step step)) := by
  have hp : ∀ {s' : State}, Sound s' ∧ (Owed s → Owed s') →
      Sound s' ∧ (Owed s ∧ s.Orderly step → Owed s') := fun hf =>
    ⟨hf.1, fun ho => hf.2 ho.1⟩
  cases step with
  | startHost | startManaged | startRollback => exact hp (fine_start h rfl rfl)
  | hostDone waiterId r => exact hp (fine_hostDone h waiterId r)
  | wake waiterId => exact hp (fine_wake h waiterId)
  | deadline =>
    refine hp ?_
    simp only [step]
    split
    · exact ⟨⟨h.waiter, h.fresh, h.submissions, h.publications⟩, id⟩
    · exact ⟨h, id⟩
  | poll waiterId turn => exact fine_poll h waiterId turn

end

theorem view_new (revision waiterId : ℕ) : (new revision).view waiterId = .blank := by
  simp [view, new, View.blank]

theorem sound_new (revision : ℕ) : Sound (new revision) where
  waiter waiterId := by
    rw [view_new]
    exact View.fits_blank _ _
  fresh waiterId _ := ⟨view_new revision waiterId, nofun⟩
  submissions _ hm := absurd hm List.not_mem_nil
  publications _ hm := absurd hm List.not_mem_nil

theorem owed_new (revision : ℕ) : Owed (new revision) := fun _ hs => absurd hs not_nonempty_empty

theorem Sound.run (h : Sound s) (steps : List Step) : Sound (s.run steps) := by
  induction steps generalizing s with
  | nil => exact h
  | cons step _ ih => exact ih (fine_step h step).1

theorem Owed.run (howed : Owed s) (h : Sound s)
    (ha : Machine.Along (fun s step => some (s.step step)) Orderly s steps) :
    Owed (s.run steps) := by
  induction steps generalizing s with
  | nil => exact howed
  | cons step _ ih =>
    obtain ⟨ho, hr⟩ := ha
    have hf := fine_step h step
    exact ih (hf.2 ⟨howed, ho⟩) hf.1 (hr _ rfl)

/-- Only the owner writes and publishes, and a write on the Host is over the published revision. -/
structure Reserved (s : State) : Prop where
  submissions : ∀ submission ∈ s.submissions, submission.owner = some submission.waiterId ∧
    submission.baseRevision = submission.revision
  publications : ∀ publication ∈ s.publications, publication.owner = some publication.waiterId
  outstanding : ∀ waiterId, ∀ command ∈ s.jobs.lookup waiterId, ∀ base ∈ command.base,
    s.documentOwner = some waiterId ∧ s.revision = base

def Unstranded (s : State) : Prop :=
  s.documentOwner = none → (∀ waiterId, s.jobs.lookup waiterId = none) → s.ready = ∅ →
    ∀ waiterId, ∀ continuation ∈ s.pendingRequests.lookup waiterId, continuation.parked = false

theorem Sound.reserved (h : Sound s) : Reserved s where
  submissions := h.submissions
  publications := h.publications
  outstanding waiterId command hj := (h.waiter waiterId).writes command hj

theorem Owed.unstranded (ho : Owed s) (h : Sound s) : Unstranded s := by
  intro hn hjobs hr waiterId continuation hen
  cases hp : continuation.parked with
  | false => rfl
  | true =>
    have hm : ∀ o, o ∉ s.ready := fun o => by simp [hr]
    have hl : waiterId ∈ s.documentWaiters :=
      ((h.waiter waiterId).parked continuation hen hp).resolve_right (hm waiterId)
    obtain ⟨o, c, hc, ⟨-, hw⟩ | ha⟩ := ho hn ⟨waiterId, hl⟩
    · exact absurd hw (hm o)
    -- a preparation that is made again is on the Host, or its answer is unserved
    rcases (h.waiter o).busy c hc (waits_of_repreparing ha) with ⟨hj, -⟩ | ⟨-, -, hmark⟩
    · rw [show (s.view o).job = none from hjobs o] at hj
      cases hj
    · exact absurd hmark (hm o)

/-- In every run the document is reserved; in an orderly one no mutation is stranded. -/
theorem run_document_reserved (revision : ℕ) (steps : List Step) :
    Reserved ((new revision).run steps) ∧
      (Machine.Along (fun s step => some (s.step step)) Orderly (new revision) steps →
        Unstranded ((new revision).run steps)) :=
  ⟨((sound_new revision).run steps).reserved, fun halong =>
    ((owed_new revision).run (sound_new revision) halong).unstranded
      ((sound_new revision).run steps)⟩

/-- A mutation that awaits the Host has a job there or an answer and its wake, no other has either;
a parked one is a waiter of the document exactly until it is woken. -/
theorem run_waiters_accounted (revision : ℕ) (steps : List Step) (waiterId : ℕ) :
    let v := ((new revision).run steps).view waiterId
    (∀ continuation ∈ v.continuation, continuation.waits = true →
        v.job.isSome ∧ v.completion = none ∨ v.job = none ∧ v.completion.isSome ∧ v.ready) ∧
      ((∀ continuation ∈ v.continuation, continuation.waits = false) →
        v.job = none ∧ v.completion = none) ∧
      (v.listed ↔ ¬v.ready ∧ ∃ continuation ∈ v.continuation, continuation.parked = true) := by
  intro v
  have h := ((sound_new revision).run steps).waiter waiterId
  refine ⟨h.busy, fun hidle => ?_, h.listed, fun ⟨hready, continuation, hc, hp⟩ =>
    (h.parked continuation hc hp).resolve_right hready⟩
  cases hc : v.continuation with
  | none => exact h.gone hc
  | some continuation => exact h.idle continuation hc (hidle continuation hc)

def quietTurn : Turn :=
  { packageRecoveryRequired := false, rootQuarantined := false, publicationSlotFree := true
    recoveryFunded := true, stateAuthority := true, rollbackConfirmed := false
    deadlineElapsed := false, spawnStarted := true, family := .complete, spawn := .pending }

/-- The first of three mutations commits, a worktree and a host mutation are parked. The release
wakes the worktree, which finds its preparation stale and makes it again. -/
def staleWorktree : List Step :=
  [.startHost, .startManaged, .startHost, .hostDone 0 (.mutation (.prepared 0)), .poll 0 quietTurn,
    .hostDone 1 (.managedWorktreeCreated true), .poll 1 quietTurn,
    .hostDone 1 (.mutation (.prepared 0)), .poll 1 quietTurn,
    .hostDone 2 (.mutation (.prepared 0)), .poll 2 quietTurn,
    .hostDone 0 (.mutation (.committed 1 false)), .poll 0 quietTurn, .poll 1 quietTurn]

def reprepared : List Step :=
  staleWorktree ++ [.hostDone 1 (.mutation (.prepared 1)), .poll 1 quietTurn,
    .hostDone 1 (.mutation (.committed 2 false)), .poll 1 quietTurn, .poll 2 quietTurn]

theorem run_document_reserved_reprepared :
    Machine.Along (fun s step => some (s.step step)) Orderly (new 0) reprepared ∧
      Unstranded ((new 0).run reprepared) ∧ ((new 0).run reprepared).revision = 2 :=
  have halong : Machine.Along (fun s step => some (s.step step)) Orderly (new 0) reprepared := by
    decide +kernel
  ⟨halong, (run_document_reserved 0 reprepared).2 halong, by decide +kernel⟩

def failedAgain : List Step :=
  staleWorktree ++ [.hostDone 1 (.mutation .failed), .poll 1 quietTurn,
    .hostDone 1 .managedWorktreeFinalized, .poll 1 quietTurn]

/-- The second preparation of a worktree fails, and the request parked behind it is not woken. -/
theorem failed_preparation_strands : ¬Unstranded ((new 0).run failedAgain) := by
  intro h
  have hjobs : ∀ waiterId, ((new 0).run failedAgain).jobs.lookup waiterId = none := by
    have hempty : ((new 0).run failedAgain).jobs.entries = [] := by decide +kernel
    intro waiterId
    rw [AList.lookup, hempty]
    rfl
  have hparked := h (by decide +kernel) hjobs (by decide +kernel) 2 (.host (.retainedPrepare 0))
    (by decide +kernel)
  exact absurd hparked (by decide)

end State

end BotsterHub.Document
