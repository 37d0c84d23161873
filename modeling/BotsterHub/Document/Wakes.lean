import BotsterHub.Document.Ownership
import BotsterHub.Lib.Machine

/-!
Wakes of parked mutations.

While the document is free and mutations are listed, somebody carries the wake: a woken mutation
not yet polled, or one that prepares again. A host mutation that ends passes it on. A managed
worktree whose second preparation fails loses it.
-/

namespace BotsterHub.Document

open Option Finset Continuation HostResult Phase State View

namespace State

variable {s s' : State} {waiterId other : ℕ} {continuation : Continuation} {owed : Prop}

def Carries (s : State) (waiterId : ℕ) : Prop :=
  ∃ continuation, s.pendingRequests.lookup waiterId = some continuation ∧
    (continuation.parked = true ∧ waiterId ∈ s.ready ∨ continuation.repreparing = true)

def Owed (s : State) : Prop :=
  s.documentOwner = none → s.documentWaiters.Nonempty → ∃ waiterId, s.Carries waiterId

theorem owed_of_owner (h : s.documentOwner ≠ none) : Owed s := fun hn => absurd hn h

theorem Owed.mono (h : Owed s) (ho : s'.documentOwner = none → s.documentOwner = none)
    (hw : s'.documentWaiters = s.documentWaiters)
    (hc : ∀ waiterId, s.Carries waiterId → s'.Carries waiterId) : Owed s' := by
  intro hn hs
  obtain ⟨waiterId, hcarrier⟩ := h (ho hn) (hw ▸ hs)
  exact ⟨waiterId, hc waiterId hcarrier⟩

theorem owed_wakeNext (h : Sound s) : Owed s.wakeNextDocumentWaiter := by
  intro _ hs
  by_cases hw : s.documentWaiters.Nonempty
  · have hself := (view_wakeNext_of_nonempty h hw).2
    have hm := s.documentWaiters.min'_mem hw
    obtain ⟨-, continuation, hc, hp⟩ := (h.waiter (s.documentWaiters.min' hw)).listed hm
    refine ⟨s.documentWaiters.min' hw, continuation, ?_, .inl ⟨hp, ?_⟩⟩
    · exact (congrArg View.continuation hself).trans hc
    · exact of_eq_true (congrArg View.ready hself)
  · unfold wakeNextDocumentWaiter at hs
    rw [dif_neg hw] at hs
    exact absurd hs hw

theorem owed_release_owner (h : Sound s) (hf : s.Free waiterId)
    (ho : s.documentOwner = some waiterId) : Owed (s.releaseDocument waiterId) := by
  unfold releaseDocument
  rw [if_pos ho]
  exact owed_wakeNext (h.disown hf ho)

theorem Owed.release (howed : Owed s) (h : Sound s) (hf : s.Free waiterId) :
    Owed (s.releaseDocument waiterId) := by
  by_cases ho : s.documentOwner = some waiterId
  · exact owed_release_owner h hf ho
  unfold releaseDocument
  rw [if_neg ho]
  exact howed

structure Fine (owed : Prop) (waiterId : ℕ) (result : State × ControlPoll) : Prop where
  sound : Sound (result.1.keep waiterId result.2)
  owed : owed → Owed (result.1.keep waiterId result.2)

theorem fine_finished (h : Sound s) (ho : owed → Owed s) : Fine owed waiterId (s, .finished) :=
  ⟨h, ho⟩

theorem fine_unprepared {result : HostResult} (h : Sound s)
    (hn : ∀ b, result ≠ .mutation (.prepared b))
    (howed : owed → result.isPrepared = true ∨ Owed s) :
    Fine owed waiterId (s, .finished) := by
  refine fine_finished h fun ho => (howed ho).resolve_left fun heq => ?_
  cases result with
  | mutation result => cases result <;> simp_all [isPrepared]
  | _ => simp [isPrepared] at heq

theorem fine_release (h : Sound s) (hf : s.Free waiterId) (howed : owed → Owed s) :
    Fine owed waiterId (s.releaseDocument waiterId, .finished) :=
  ⟨h.release hf, fun ho => (howed ho).release h hf⟩

theorem carries_keep (hf : s.Free waiterId) (hp : s'.pendingRequests = s.pendingRequests)
    (hr : s'.ready = s.ready) (hcarries : s.Carries other) :
    (s'.keep waiterId (.pending continuation)).Carries other := by
  obtain ⟨c, hc, hrest⟩ := hcarries
  have hne : other ≠ waiterId := fun heq => by
    have hn : s.pendingRequests.lookup waiterId = none := congrArg View.continuation hf.blank
    rw [heq, hn] at hc
    cases hc
  refine ⟨c, ?_, ?_⟩
  · show (s'.pendingRequests.insert waiterId continuation).lookup other = some c
    rw [AList.lookup_insert_eq, if_neg hne, hp]
    exact hc
  show c.parked = true ∧ other ∈ s'.ready ∨ c.repreparing = true
  rw [hr]
  exact hrest

variable {command : HostCommand}

theorem fine_submit (h : Sound s) (hf : s.Free waiterId) (hw : continuation.waits = true)
    (houtside : continuation.outside = true → s.documentOwner ≠ some waiterId)
    (hp : command = .prepare → s.documentOwner ≠ some waiterId)
    (hb : ∀ base ∈ command.base, s.documentOwner = some waiterId ∧ s.revision = base)
    (howed : owed → Owed s) :
    Fine owed waiterId (s.submitPhase waiterId command, .pending continuation) := by
  refine ⟨h.submit hf hw houtside hp hb, fun ho => ?_⟩
  exact (howed ho).mono id rfl fun _ => carries_keep hf rfl rfl

theorem fine_submit_plain (h : Sound s) (hf : s.Free waiterId) (hw : continuation.waits = true)
    (ho : continuation.outside = true → s.documentOwner ≠ some waiterId)
    (hp : command ≠ .prepare)
    (hb : command.base = none) (howed : owed → Owed s) :
    Fine owed waiterId (s.submitPhase waiterId command, .pending continuation) :=
  fine_submit h hf hw ho (fun heq => absurd heq hp)
    (fun base hm => by rw [hb] at hm; cases hm) howed

theorem fine_idle (h : Sound s) (hf : s.Free waiterId) (hwaits : continuation.waits = false)
    (hparked : continuation.parked = false)
    (houtside : continuation.outside = true → s.documentOwner ≠ some waiterId)
    (howed : owed → Owed s) :
    Fine owed waiterId (s, .pending continuation) ∧
      Fine owed waiterId (s, .again continuation) := by
  have hp : owed → Owed (s.keep waiterId (.pending continuation)) := fun ho =>
    (howed ho).mono id rfl fun _ => carries_keep hf rfl rfl
  obtain ⟨hs, hs'⟩ := h.idle hf hwaits hparked houtside
  refine ⟨⟨hs, hp⟩, ⟨hs', ?_⟩⟩
  intro ho
  rw [keep_again]
  refine (hp ho).mono id rfl fun other hc => ?_
  obtain ⟨c, hcarrier, hr⟩ := hc
  exact ⟨c, hcarrier, hr.imp_left fun hw => ⟨hw.1, mem_insert_of_mem hw.2⟩⟩

theorem admitDocument_cases (hne : s.documentOwner ≠ some waiterId) (b : ℕ) :
    (∃ o, s.documentOwner = some o ∧ s.admitDocument waiterId b =
        (.busy, { s with documentWaiters := insert waiterId s.documentWaiters })) ∨
      s.documentOwner = none ∧ (b ≠ s.revision ∧ s.admitDocument waiterId b = (.stale, s) ∨
        b = s.revision ∧ s.admitDocument waiterId b =
          (.granted, { s with
            documentWaiters := s.documentWaiters.erase waiterId
            documentOwner := some waiterId })) := by
  unfold admitDocument
  cases ho : s.documentOwner with
  | some o =>
    have hother : o ≠ waiterId := fun heq => hne (heq ▸ ho)
    exact .inl ⟨o, rfl, by simp [hother]⟩
  | none =>
    refine .inr ⟨rfl, ?_⟩
    by_cases hr : b = s.revision
    · exact .inr ⟨hr, by simp [hr]⟩
    · exact .inl ⟨hr, by simp [hr]⟩

section

variable (h : Sound s) (hf : s.Free waiterId)

include h hf

theorem fine_admitOrParkCommit (hne : s.documentOwner ≠ some waiterId) (b : ℕ) (turn : Turn) :
    Fine owed waiterId (s.admitOrParkCommit waiterId b turn) := by
  unfold admitOrParkCommit
  split
  · rw [erase_eq_of_notMem hf.notListed]
    exact ⟨h.wakeNext, fun _ => owed_wakeNext h⟩
  rcases admitDocument_cases hne b with
    ⟨owner, ho, ha⟩ | ⟨hn, ⟨-, ha⟩ | ⟨hb, ha⟩⟩
  · rw [ha]
    exact ⟨h.park hf rfl hne, fun _ => owed_of_owner (by
      rw [ho]
      exact some_ne_none owner)⟩
  · rw [ha]
    exact ⟨h.wakeNext, fun _ => owed_wakeNext h⟩
  · rw [ha]
    have hg := h.grant hf hn
    have hh := hf.grant (some waiterId)
    dsimp only
    split
    · exact ⟨hg.release hh, fun _ => owed_release_owner hg hh rfl⟩
    exact fine_submit hg hh rfl nofun nofun (fun base hm => ⟨rfl, (some.inj hm) ▸ hb.symm⟩)
      fun _ => owed_of_owner (some_ne_none waiterId)

theorem fine_submitPackageQuarantine
    (ho : owed → Owed s) : Fine owed waiterId (s.submitPackageQuarantine waiterId) :=
  fine_submit_plain h hf rfl nofun nofun rfl ho

theorem fine_submitPackageRestore (turn : Turn)
    (howed : owed → Owed s) : Fine owed waiterId (s.submitPackageRestore waiterId turn) := by
  unfold submitPackageRestore
  split
  · exact fine_submitPackageQuarantine h hf howed
  next howner =>
    split
    · exact fine_submitPackageQuarantine (h.release hf) (hf.release h)
        fun ho => (howed ho).release h hf
    · exact fine_submit h hf rfl nofun nofun (fun base hm => ⟨not_not.mp howner, some.inj hm⟩) howed

theorem fine_submitPackageQuarantineRecord (turn : Turn) (ho : owed → Owed s) :
    Fine owed waiterId (s.submitPackageQuarantineRecord waiterId turn) := by
  unfold submitPackageQuarantineRecord
  split
  · exact fine_release h hf ho
  next hr =>
  have howner : s.documentOwner = some waiterId := not_not.mp fun hne => hr (.inl hne)
  exact fine_submit h hf rfl nofun nofun (fun base hm => ⟨howner, some.inj hm⟩) ho

theorem fine_applyPackageResult (result : PackageResult) (turn : Turn) (ho : owed → Owed s) :
    Fine owed waiterId (s.applyPackageResult waiterId result turn) := by
  unfold applyPackageResult
  split
  · exact fine_release h hf ho
  · exact fine_release h hf ho
  · exact fine_submitPackageRestore h hf turn ho
  · exact fine_submitPackageQuarantine h hf ho
  · exact fine_submitPackageQuarantineRecord h hf turn ho

theorem fine_cleanUpPackages (result : PackageResult)
    (c : Cleanup) (turn : Turn) (ho : owed → Owed s) :
    Fine owed waiterId (s.cleanUpPackages waiterId result c turn) := by
  unfold cleanUpPackages
  split
  · exact fine_finished h ho
  split
  · exact fine_submit_plain h hf rfl nofun nofun rfl ho
  split
  · exact (fine_idle h hf rfl rfl (fun hout => by cases hout) ho).2
  · exact fine_applyPackageResult h hf result turn ho

theorem fine_applyResult
    (hs : (mutation result).isPrepared = true → s.documentOwner ≠ some waiterId)
    (hpublishes : (mutation result).publishes = true → s.documentOwner = some waiterId)
    (turn : Turn) (howed : owed → Owed s) :
    Fine owed waiterId (s.applyResult waiterId result turn) := by
  have hp : s.documentOwner = some waiterId → ∀ r,
      owed → Owed (s.publishState waiterId r) := fun ho _ _ => owed_of_owner (by
    show s.documentOwner ≠ none
    rw [ho]
    exact some_ne_none waiterId)
  cases result with
  | prepared b => exact fine_admitOrParkCommit h hf (hs rfl) b turn
  | committed c =>
    have ho := hpublishes rfl
    have hpublish := h.publish hf ho c
    have hfree' := hf.publish c
    unfold applyResult
    dsimp only
    split
    · exact fine_release h hf howed
    split
    · exact fine_submit_plain hpublish hfree' rfl nofun nofun rfl (hp ho c)
    · exact fine_release hpublish hfree' (hp ho c)
  | publishedUncertain | repoFileCommitted | externalEffectUncertain =>
    exact fine_release h hf howed
  | recovered i =>
    cases i with
    | true => exact fine_submit_plain h hf rfl nofun nofun rfl howed
    | false => exact fine_release h hf howed
  | package result cleanup => exact fine_cleanUpPackages h hf result cleanup turn howed
  | packageRestored r =>
    have ho := hpublishes rfl
    exact fine_submit_plain (h.publish hf ho r) (hf.publish r) rfl nofun nofun rfl (hp ho r)
  | packageRestoreFailed => exact fine_submitPackageQuarantine h hf howed
  | packageQuarantineRecorded synced =>
    cases synced with
    | none => exact fine_release h hf howed
    | some r =>
      have ho := hpublishes rfl
      exact fine_release (h.publish hf ho r) (hf.publish r) (hp ho r)
  | failed => exact fine_release h hf howed

end

variable {result : HostResult}

theorem fine_runCompleted (h : Sound s) (hf : s.Free waiterId)
    (hs : result.isPrepared = true → s.documentOwner ≠ some waiterId)
    (hp : result.publishes = true → s.documentOwner = some waiterId)
    (c : Bool) (turn : Turn) (ho : owed → Owed s) :
    Fine owed waiterId (s.runCompleted waiterId c result turn) := by
  unfold runCompleted
  split
  · exact fine_applyResult h hf hs hp turn ho
  split
  · exact fine_release h hf ho
  · exact fine_finished h ho

theorem fine_eventCleanupCompleted (h : Sound s) (hf : s.Free waiterId)
    (saved : PackageResult) (c : Cleanup) (result : HostResult) (turn : Turn)
    (ho : owed → Owed s) :
    Fine owed waiterId (s.eventCleanupCompleted waiterId saved c result turn) := by
  unfold eventCleanupCompleted
  split
  · exact fine_cleanUpPackages h hf saved c turn ho
  · exact fine_submit_plain h hf rfl nofun nofun rfl ho
  · exact fine_finished h ho

section

variable (h : Sound s) (hf : s.Free waiterId)

include h hf

theorem fine_submitFinalize (worktree : ManagedWorktree)
    (hp : p = .finalizeCommit ∨ p = .finalizeRollback)
    (hne : s.documentOwner ≠ some waiterId) (ho : owed → Owed s) :
    Fine owed waiterId (s.submitFinalize waiterId worktree p) := by
  refine fine_submit_plain h hf ?_ (fun _ => hne) nofun rfl ho
  rcases hp with rfl | rfl <;> rfl

theorem fine_submitChangePrepare (c : Change)
    (worktree : ManagedWorktree) (superseded : Bool) (hne : s.documentOwner ≠ some waiterId)
    (howed : owed → Owed s ∨ superseded = true) :
    Fine owed waiterId (submitChangePrepare c s waiterId worktree superseded) := by
  refine ⟨h.submit hf ?_ (fun _ => hne) (fun _ => hne) nofun, fun ho => ?_⟩
  · cases c <;> rfl
  rcases howed ho with howed | hs
  · exact howed.mono id rfl fun _ => carries_keep hf rfl rfl
  intro _ _
  refine ⟨waiterId, .managed { worktree with phase := c.prepare, superseded }, ?_, .inr ?_⟩
  · simp [submitChangePrepare, keep]
  · cases c <;> simp [repreparing, Change.prepare, prepares, hs]

section

variable (hne : s.documentOwner ≠ some waiterId)

include hne

theorem fine_admitChange (c : Change) (worktree : ManagedWorktree)
    (b : ℕ) (p : Bool) (turn : Turn) :
    Fine owed waiterId (admitChange c s waiterId worktree b p turn) := by
  unfold admitChange
  rcases admitDocument_cases hne b with
    ⟨owner, ho, ha⟩ | ⟨hn, ⟨-, ha⟩ | ⟨hb, ha⟩⟩
  · rw [ha]
    refine ⟨h.park hf (by cases c <;> rfl) hne, fun _ => owed_of_owner ?_⟩
    rw [ho]
    exact some_ne_none owner
  · rw [ha]
    dsimp only
    have he : (if p then { s with documentWaiters := s.documentWaiters.erase waiterId }
        else s : State) = s := by
      rw [erase_eq_of_notMem hf.notListed]
      exact ite_self s
    rw [he]
    exact fine_submitChangePrepare h hf c worktree true hne fun _ => .inr rfl
  · rw [ha]
    have hg := h.grant hf hn
    have hh := hf.grant (some waiterId)
    dsimp only
    split
    · refine fine_submit hg hh (by cases c <;> rfl) (fun hout => ?_) nofun
        (fun base hm => ⟨rfl, (some.inj hm) ▸ hb.symm⟩)
        fun _ => owed_of_owner (some_ne_none waiterId)
      cases c <;> simp [outside, Change.commit] at hout
    · have hr := owed_release_owner hg hh rfl
      cases c with
      | record =>
        exact fine_submitFinalize (hg.release hh) (hh.release hg) worktree
          (.inr rfl) (documentOwner_release _ _) fun _ => hr
      | removal => exact fine_finished (hg.release hh) fun _ => hr

section

variable (w : ManagedWorktree)

theorem fine_created (result : HostResult) (turn : Turn) (howed : owed → Owed s) :
    Fine owed waiterId (s.created waiterId w result turn) := by
  unfold created
  split
  · dsimp only
    split
    · exact fine_submitFinalize h hf _ (.inr rfl) hne howed
    · exact fine_submitChangePrepare h hf .record _ false hne fun ho => .inl (howed ho)
  · exact fine_finished h howed

theorem fine_recordPrepared (turn : Turn) (howed : owed → result.isPrepared = true ∨ Owed s) :
    Fine owed waiterId (s.recordPrepared waiterId w result turn) := by
  unfold recordPrepared
  split
  · exact fine_admitChange h hf hne .record w _ false turn
  · exact fine_submitFinalize h hf w (.inr rfl) hne fun ho =>
      (howed ho).resolve_left Bool.false_ne_true
  · next hp _ => exact fine_unprepared h hp howed

theorem fine_removalPrepared (turn : Turn) (howed : owed → result.isPrepared = true ∨ Owed s) :
    Fine owed waiterId (s.removalPrepared waiterId w result turn) := by
  unfold removalPrepared
  split
  · exact fine_admitChange h hf hne .removal w _ false turn
  · next hp => exact fine_unprepared h hp howed

end

end

theorem fine_recordCommitted (w : ManagedWorktree)
    (hpublishes : result.publishes = true → s.documentOwner = some waiterId) (turn : Turn)
    (howed : owed → Owed s) :
    Fine owed waiterId (s.recordCommitted waiterId w result turn) := by
  have hr : Fine owed waiterId
      ((s.releaseDocument waiterId).submitFinalize waiterId w .finalizeRollback) :=
    fine_submitFinalize (h.release hf) (hf.release h) w (.inr rfl)
      (documentOwner_release s waiterId) fun ho => (howed ho).release h hf
  unfold recordCommitted
  split
  · next c _ =>
    have howner := hpublishes rfl
    have hp := h.publish hf howner c
    have hfree' := hf.publish c
    have hreleased : Owed ((s.publishState waiterId c).releaseDocument waiterId) :=
      owed_release_owner hp hfree' howner
    split
    · exact hr
    split
    · exact fine_submitFinalize (hp.release hfree') (hfree'.release hp) _
        (.inr rfl) (documentOwner_release _ waiterId) fun _ => hreleased
    · exact (fine_idle (hp.release hfree') (hfree'.release hp) rfl rfl
        (fun _ => documentOwner_release _ waiterId) fun _ => hreleased).1
  · exact hr
  · exact hr
  · exact fine_release h hf howed

theorem fine_removalCommitted
    (hpublishes : result.publishes = true → s.documentOwner = some waiterId)
    (howed : owed → Owed s) : Fine owed waiterId (s.removalCommitted waiterId result) := by
  unfold removalCommitted
  split
  · next c _ =>
    have ho := hpublishes rfl
    have hp := h.publish hf ho c
    have hfree' := hf.publish c
    split
    · exact fine_release h hf howed
    · exact ⟨hp.release hfree', fun _ => owed_release_owner hp hfree' ho⟩
  · exact fine_release h hf howed

theorem fine_finalizedRollback
    (hne : s.documentOwner ≠ some waiterId) (w : ManagedWorktree) (result : HostResult)
    (howed : owed → Owed s) :
    Fine owed waiterId (s.finalizedRollback waiterId w result) := by
  unfold finalizedRollback
  split
  · exact fine_submitChangePrepare h hf .removal w false hne fun ho => .inl (howed ho)
  · exact fine_finished h howed

theorem fine_pollSpawn (hne : s.documentOwner ≠ some waiterId)
    (hp : w.phase = .spawn ∨ w.phase = .handoff) (turn : Turn)
    (ho : owed → Owed s) : Fine owed waiterId (s.pollSpawn waiterId w turn) := by
  have hw : (managed w).waits = false := by rcases hp with hp | hp <;> simp [waits, onHost, hp]
  have hparked : (managed w).parked = false := by
    rcases hp with hp | hp <;> simp [Continuation.parked, Phase.parked, hp]
  unfold pollSpawn
  split
  · exact (fine_idle h hf hw hparked (fun _ => hne) ho).1
  · exact (fine_idle h hf rfl rfl (fun _ => hne) ho).1
  · exact fine_submitFinalize h hf w (.inl rfl) hne ho
  · exact fine_submitFinalize h hf w (.inr rfl) hne ho
  · exact fine_finished h ho

end

def out (s : State) (waiterId : ℕ) (hostCompletions : Dict ℕ HostResult) : State :=
  { s with
    ready := s.ready.erase waiterId
    late := s.late.erase waiterId
    pendingRequests := s.pendingRequests.erase waiterId
    hostCompletions }

section

variable {hostCompletions : Dict ℕ HostResult}

theorem view_out_of_ne (hc : ∀ other, hostCompletions.lookup other =
      if other = waiterId then none else s.hostCompletions.lookup other) (hne : other ≠ waiterId) :
    (s.out waiterId hostCompletions).view other = s.view other := by
  simp [view, out, hc, hne]

theorem Sound.out (h : Sound s)
    (he : s.pendingRequests.lookup waiterId = some continuation) (hr : waiterId ∈ s.ready)
    (hj : s.jobs.lookup waiterId = none)
    (hc : ∀ other, hostCompletions.lookup other =
      if other = waiterId then none else s.hostCompletions.lookup other) :
    Sound (s.out waiterId hostCompletions) ∧ (s.out waiterId hostCompletions).Free waiterId := by
  have hu := h.used he
  have hl : waiterId ∉ s.documentWaiters := fun hm => ((h.waiter waiterId).listed hm).1 hr
  have hb : (s.out waiterId hostCompletions).view waiterId = .blank := by
    simp [view, State.out, hc, hj, hl, View.blank]
  exact ⟨h.touch hu (fun other => view_out_of_ne hc) hb (fits_blank _ _), hb, hu⟩

theorem Owed.out (howed : Owed s) (hc : ¬s.Carries waiterId) :
    Owed (s.out waiterId hostCompletions) := by
  refine howed.mono id rfl fun other ho => ?_
  have hne : other ≠ waiterId := fun heq => hc (heq ▸ ho)
  obtain ⟨c, hcarrier, hr⟩ := ho
  refine ⟨c, ?_, ?_⟩
  · show (s.pendingRequests.erase waiterId).lookup other = some c
    rw [AList.lookup_erase_eq, if_neg hne]
    exact hcarrier
  · exact hr.imp_left fun hw => ⟨hw.1, mem_erase_of_ne_of_mem hne hw.2⟩

end

/-- A preparation that was made again fails only while the document is owned or nobody is listed. -/
def Orderly (s : State) : Step → Prop
  | .poll waiterId _ =>
    (s.pendingRequests.lookup waiterId).any Continuation.repreparing = true →
    (s.hostCompletions.lookup waiterId).any (fun result => !result.isPrepared) = true →
    s.documentOwner ≠ none ∨ s.documentWaiters = ∅
  | _ => True

instance (s : State) (step : Step) : Decidable (s.Orderly step) := by
  unfold Orderly
  split <;> infer_instance

theorem fine_unanswered (h : Sound s) (he : s.pendingRequests.lookup waiterId = some continuation)
    (hwaits : continuation.waits = true) (hc : s.hostCompletions.lookup waiterId = none)
    (howed : owed → Owed s) :
    Fine owed waiterId (s.out waiterId s.hostCompletions, .pending continuation) := by
  have hp := not_parked hwaits
  have hu := h.used he
  have hf := h.waiter waiterId
  constructor
  · have hj : ∃ command, s.jobs.lookup waiterId = some command := by
      rcases hf.busy continuation he hwaits with ⟨hj, -⟩ | ⟨-, hs, -⟩
      · exact isSome_iff_exists.mp hj
      · rw [show (s.view waiterId).completion = none from hc] at hs
        cases hs
    obtain ⟨command, hcommand⟩ := hj
    have hl : waiterId ∉ s.documentWaiters := fun hm => by
      obtain ⟨-, other, hother, hother'⟩ := hf.listed hm
      rw [show (s.view waiterId).continuation = some continuation from he] at hother
      rw [← some.inj hother, hp] at hother'
      cases hother'
    refine h.touch hu (fun other hne => ?_) ?_ (fits_kept _ hwaits hp
      (fun hout => hf.seeks (.inl ⟨continuation, he, hout⟩))
      (fun heq => hf.seeks (.inr (.inl (hcommand.trans heq))))
      (fun _ hm => hf.writes _ (hcommand.trans hm)) False)
    · simp [view, keep, out, hne]
    · simp [view, keep, out, hcommand, hc, hl]
  · intro ho
    refine (howed ho).mono id rfl fun other hother => ?_
    obtain ⟨c, hcarrier, hr⟩ := hother
    by_cases heq : other = waiterId
    · rw [heq, he] at hcarrier
      cases hcarrier
      refine ⟨continuation, by rw [heq]; simp [keep], .inr (hr.resolve_left fun hw => ?_)⟩
      rw [hp] at hw
      exact absurd hw.1 Bool.false_ne_true
    · refine ⟨c, by simp [keep, out, heq, hcarrier], ?_⟩
      exact hr.imp_left fun hw => ⟨hw.1, mem_erase_of_ne_of_mem heq hw.2⟩

end State

end BotsterHub.Document
