import BotsterHub.Document.Reservation

/-!
Who may write the document.

A waiter is described by its view: continuation, Host job or completion, ready mark, and place
among the waiters. Only the owner has a write on the Host, over the published revision; a parked
mutation is listed or marked, never both.
-/

namespace BotsterHub.Document

open Option Continuation

variable {continuation : Continuation}

theorem Continuation.waits_of_parked
    (h : continuation.parked = true) : continuation.waits = false := by
  cases continuation with
  | host m => cases m <;> simp_all [parked, waits]
  | managed w =>
    cases hp : w.phase <;> simp_all [parked, waits, Phase.parked, Phase.onHost]

theorem Continuation.not_parked (hw : continuation.waits = true) : continuation.parked = false :=
  Bool.eq_false_iff.mpr fun hp => Bool.false_ne_true ((waits_of_parked hp).symm.trans hw)

def Continuation.outside : Continuation → Bool
  | .host (.retainedPrepare _) => true
  | .host _ => false
  | .managed worktree =>
    decide (worktree.phase ≠ .commitRecord ∧ worktree.phase ≠ .commitRemoval)

theorem Continuation.outside_of_parked
    (h : continuation.parked = true) : continuation.outside = true := by
  cases continuation with
  | host m => cases m <;> simp_all [parked, outside]
  | managed w => cases hp : w.phase <;> simp_all [parked, outside, Phase.parked]

structure View where
  continuation : Option Continuation
  job : Option HostCommand
  completion : Option HostResult
  ready : Prop
  listed : Prop

namespace View

def blank : View := ⟨none, none, none, False, False⟩

def Seeks (v : View) : Prop :=
  (∃ continuation ∈ v.continuation, continuation.outside = true) ∨ v.job = some .prepare ∨
    ∃ result ∈ v.completion, result.isPrepared = true

structure Fits (v : View) (owns : Prop) (revision : ℕ) : Prop where
  gone : v.continuation = none → v.job = none ∧ v.completion = none
  idle : ∀ continuation ∈ v.continuation, continuation.waits = false →
    v.job = none ∧ v.completion = none
  busy : ∀ continuation ∈ v.continuation, continuation.waits = true →
    v.job.isSome ∧ v.completion = none ∨ v.job = none ∧ v.completion.isSome ∧ v.ready
  listed : v.listed → ¬v.ready ∧ ∃ continuation ∈ v.continuation, continuation.parked = true
  parked : ∀ continuation ∈ v.continuation, continuation.parked = true → v.listed ∨ v.ready
  seeks : v.Seeks → ¬owns
  writes : ∀ command ∈ v.job, ∀ base ∈ command.base, owns ∧ revision = base
  publishes : ∀ result ∈ v.completion, result.publishes = true → owns

variable {v : View} {owns : Prop} {revision : ℕ} {continuation : Continuation}

theorem Fits.elsewhere (h : v.Fits owns revision) (ho : ¬owns) (revision' : ℕ) :
    v.Fits owns revision' :=
  { h with writes := fun c hj base hb =>
      absurd (h.writes c hj base hb).1 ho }

theorem Fits.congr (h : v.Fits owns revision) (ho : owns ↔ owns') : v.Fits owns' revision := by
  rw [← propext ho]
  exact h

theorem fits_blank (owns : Prop) (revision : ℕ) : blank.Fits owns revision where
  gone _ := ⟨rfl, rfl⟩
  idle _ h := absurd h (not_mem_none _)
  busy _ h := absurd h (not_mem_none _)
  listed h := h.elim
  parked _ h := absurd h (not_mem_none _)
  seeks h := by simp [Seeks, blank] at h
  writes _ h := absurd h (not_mem_none _)
  publishes _ h := absurd h (not_mem_none _)

theorem fits_kept (job : Option HostCommand) (hw : continuation.waits = job.isSome)
    (hparked : continuation.parked = false) (houtside : continuation.outside = true → ¬owns)
    (hp : job = some .prepare → ¬owns)
    (hb : ∀ c ∈ job, ∀ base ∈ c.base, owns ∧ revision = base) (r : Prop) :
    (⟨some continuation, job, none, r, False⟩ : View).Fits owns revision where
  gone h := by cases h
  idle other ho hi := by
    cases ho
    exact ⟨isSome_eq_false_iff.mp (hw.symm.trans hi) |> isNone_iff_eq_none.mp, rfl⟩
  busy other ho hbusy := by
    cases ho
    exact .inl ⟨hw.symm.trans hbusy, rfl⟩
  listed h := h.elim
  parked other ho ho' := by
    cases ho
    rw [hparked] at ho'
    cases ho'
  seeks h := by
    rcases h with ⟨other, ho, hout⟩ | hj | ⟨result, hr, -⟩
    · cases ho
      exact houtside hout
    · exact hp hj
    · cases hr
  writes := hb
  publishes _ h := absurd h (not_mem_none _)

theorem fits_parked (hp : continuation.parked = true) (howns : ¬owns) {ready listed : Prop}
    (hone : listed ∨ ready) (hn : listed → ¬ready) :
    (⟨some continuation, none, none, ready, listed⟩ : View).Fits owns revision where
  gone h := by cases h
  idle _ _ _ := ⟨rfl, rfl⟩
  busy other ho hw := by
    cases ho
    rw [waits_of_parked hp] at hw
    cases hw
  listed h := ⟨hn h, continuation, rfl, hp⟩
  parked _ _ _ := hone
  seeks _ := howns
  writes _ h := absurd h (not_mem_none _)
  publishes _ h := absurd h (not_mem_none _)

end View

namespace State

variable {s s' : State} {waiterId other : ℕ} {continuation : Continuation}

def view (s : State) (waiterId : ℕ) : View :=
  { continuation := s.pendingRequests.lookup waiterId
    job := s.jobs.lookup waiterId
    completion := s.hostCompletions.lookup waiterId
    ready := waiterId ∈ s.ready
    listed := waiterId ∈ s.documentWaiters }

structure Sound (s : State) : Prop where
  waiter : ∀ waiterId, (s.view waiterId).Fits (s.documentOwner = some waiterId) s.revision
  fresh : ∀ waiterId, s.nextWaiter ≤ waiterId →
    s.view waiterId = .blank ∧ s.documentOwner ≠ some waiterId
  submissions : ∀ submission ∈ s.submissions, submission.owner = some submission.waiterId ∧
    submission.baseRevision = submission.revision
  publications : ∀ publication ∈ s.publications, publication.owner = some publication.waiterId

theorem Sound.used (h : Sound s) (he : s.pendingRequests.lookup waiterId = some continuation) :
    waiterId < s.nextWaiter := by
  refine Nat.lt_of_not_le fun hle => ?_
  have hn : s.pendingRequests.lookup waiterId = none :=
    congrArg View.continuation (h.fresh waiterId hle).1
  rw [hn] at he
  cases he

theorem Sound.change (h : Sound s) (hu : waiterId < s.nextWaiter)
    (hothers : ∀ other, other ≠ waiterId → s'.view other = s.view other)
    (ho : ∀ other, other ≠ waiterId →
      (s'.documentOwner = some other ↔ s.documentOwner = some other))
    (hr : s'.revision = s.revision ∨ s.documentOwner = some waiterId)
    (hself : (s'.view waiterId).Fits (s'.documentOwner = some waiterId) s'.revision)
    (hn : s'.nextWaiter = s.nextWaiter)
    (hs : ∀ submission ∈ s'.submissions, submission ∈ s.submissions ∨
      submission.owner = some submission.waiterId ∧ submission.baseRevision = submission.revision)
    (hp : ∀ p ∈ s'.publications, p ∈ s.publications ∨ p.owner = some p.waiterId) : Sound s' where
  waiter other := by
    by_cases heq : other = waiterId
    · rw [heq]
      exact hself
    rw [hothers other heq]
    have hf := (h.waiter other).congr (ho other heq).symm
    rcases hr with hsame | howns
    · rw [hsame]
      exact hf
    refine hf.elsewhere (fun hother => heq ?_) _
    rw [ho other heq, howns] at hother
    exact (some.inj hother).symm
  fresh other hle := by
    rw [hn] at hle
    have hne : other ≠ waiterId := fun heq => absurd hu (Nat.not_lt.mpr (heq ▸ hle))
    rw [hothers other hne, Ne, ho other hne]
    exact h.fresh other hle
  submissions submission hm := (hs submission hm).elim (h.submissions submission) id
  publications p hm := (hp p hm).elim (h.publications p) id

structure Free (s : State) (waiterId : ℕ) : Prop where
  blank : s.view waiterId = .blank
  used : waiterId < s.nextWaiter

section

variable (hf : s.Free waiterId)
include hf

theorem Free.noJob : s.jobs.lookup waiterId = none := congrArg View.job hf.blank

theorem Free.noCompletion : s.hostCompletions.lookup waiterId = none :=
  congrArg View.completion hf.blank

theorem Free.notListed : waiterId ∉ s.documentWaiters := of_eq_false (congrArg View.listed hf.blank)

theorem Free.notReady : waiterId ∉ s.ready := of_eq_false (congrArg View.ready hf.blank)

end

theorem view_wakeNext_of_nonempty (h : Sound s) (hw : s.documentWaiters.Nonempty) :
    (∀ other, other ≠ s.documentWaiters.min' hw →
      s.wakeNextDocumentWaiter.view other = s.view other) ∧
    s.wakeNextDocumentWaiter.view (s.documentWaiters.min' hw) =
      { s.view (s.documentWaiters.min' hw) with ready := True, listed := False } := by
  have hm := s.documentWaiters.min'_mem hw
  obtain ⟨-, continuation, hc, -⟩ := (h.waiter (s.documentWaiters.min' hw)).listed hm
  have hs : (s.pendingRequests.lookup (s.documentWaiters.min' hw)).isSome := by
    rw [show s.pendingRequests.lookup (s.documentWaiters.min' hw) = some continuation from hc]
    rfl
  unfold wakeNextDocumentWaiter markOwnerReady
  rw [dif_pos hw]
  rw [if_pos hs]
  refine ⟨fun other hne => ?_, ?_⟩
  · simp [view, hne]
  · simp [view]

structure SameDocument (s s' : State) : Prop where
  revision : s'.revision = s.revision
  nextWaiter : s'.nextWaiter = s.nextWaiter
  submissions : s'.submissions = s.submissions
  publications : s'.publications = s.publications

theorem Sound.touch {v : View} (h : Sound s) (hu : waiterId < s.nextWaiter)
    (hothers : ∀ other, other ≠ waiterId → s'.view other = s.view other)
    (hself : s'.view waiterId = v) (hv : v.Fits (s.documentOwner = some waiterId) s.revision)
    (ho : s'.documentOwner = s.documentOwner := by rfl)
    (hs : SameDocument s s' := by exact ⟨rfl, rfl, rfl, rfl⟩) : Sound s' := by
  refine h.change hu hothers (fun other _ => by rw [ho]) (.inl hs.revision) ?_ hs.nextWaiter
    (fun _ hm => .inl (hs.submissions ▸ hm)) (fun _ hm => .inl (hs.publications ▸ hm))
  rwa [hself, ho, hs.revision]

theorem sameDocument_markOwnerReady (s : State) (waiterId : ℕ) :
    SameDocument s (s.markOwnerReady waiterId) := by
  unfold markOwnerReady
  split <;> exact ⟨rfl, rfl, rfl, rfl⟩

theorem documentOwner_markOwnerReady (s : State) (waiterId : ℕ) :
    (s.markOwnerReady waiterId).documentOwner = s.documentOwner := by
  unfold markOwnerReady
  split <;> rfl

theorem sameDocument_wakeNext (s : State) : SameDocument s s.wakeNextDocumentWaiter := by
  unfold wakeNextDocumentWaiter
  split
  · next hw =>
    have h := sameDocument_markOwnerReady
      { s with documentWaiters := s.documentWaiters.erase (s.documentWaiters.min' hw) }
      (s.documentWaiters.min' hw)
    exact ⟨h.revision, h.nextWaiter, h.submissions, h.publications⟩
  · exact ⟨rfl, rfl, rfl, rfl⟩

theorem documentOwner_wakeNext (s : State) :
    s.wakeNextDocumentWaiter.documentOwner = s.documentOwner := by
  unfold wakeNextDocumentWaiter
  split
  · exact documentOwner_markOwnerReady _ _
  · rfl

theorem Sound.wakeNext (h : Sound s) : Sound s.wakeNextDocumentWaiter := by
  by_cases hw : s.documentWaiters.Nonempty
  · obtain ⟨ho, hself⟩ := view_wakeNext_of_nonempty h hw
    have hf := h.waiter (s.documentWaiters.min' hw)
    obtain ⟨-, continuation, hc, hp⟩ := hf.listed (s.documentWaiters.min'_mem hw)
    have hi := hf.idle continuation hc (waits_of_parked hp)
    refine h.touch (h.used hc) ho ?_ (View.fits_parked hp (hf.seeks (.inl ⟨continuation, hc,
      outside_of_parked hp⟩)) (.inr trivial) False.elim) (documentOwner_wakeNext s)
      (sameDocument_wakeNext s)
    rw [hself, ← hi.1, ← hi.2, ← show (s.view _).continuation = some continuation from hc]
  · unfold wakeNextDocumentWaiter
    rw [dif_neg hw]
    exact h

section

variable (hf : s.Free waiterId)
include hf

theorem Free.wakeNext (h : Sound s) : s.wakeNextDocumentWaiter.Free waiterId := by
  refine ⟨?_, (sameDocument_wakeNext s).nextWaiter ▸ hf.used⟩
  by_cases hw : s.documentWaiters.Nonempty
  · rw [(view_wakeNext_of_nonempty h hw).1 waiterId fun heq => ?_]
    · exact hf.blank
    have hl : (s.view waiterId).listed :=
      show waiterId ∈ s.documentWaiters from heq ▸ s.documentWaiters.min'_mem hw
    rw [hf.blank] at hl
    exact hl
  · unfold wakeNextDocumentWaiter
    rw [dif_neg hw]
    exact hf.blank

theorem Sound.disown (h : Sound s)
    (ho : s.documentOwner = some waiterId) : Sound { s with documentOwner := none } := by
  refine h.change hf.used (fun _ _ => rfl) (fun other hne => ?_) (.inl rfl) ?_ rfl
    (fun _ => .inl) (fun _ => .inl)
  · rw [ho]
    simp [hne.symm]
  show (s.view waiterId).Fits _ _
  rw [hf.blank]
  exact View.fits_blank _ _

theorem Sound.release (h : Sound s) : Sound (s.releaseDocument waiterId) := by
  unfold releaseDocument
  split
  · next ho => exact (h.disown hf ho).wakeNext
  · exact h

theorem Free.release (h : Sound s) : (s.releaseDocument waiterId).Free waiterId := by
  unfold releaseDocument
  split
  · next ho =>
    exact Free.wakeNext ⟨hf.blank, hf.used⟩ (h.disown hf ho)
  · exact hf

end

theorem keep_again (s : State) (waiterId : ℕ) (continuation : Continuation) :
    s.keep waiterId (.again continuation) =
      { s.keep waiterId (.pending continuation) with ready := insert waiterId s.ready } := by
  simp [keep, markOwnerReady]

theorem documentOwner_release (s : State) (waiterId : ℕ) :
    (s.releaseDocument waiterId).documentOwner ≠ some waiterId := by
  unfold releaseDocument
  split
  · rw [documentOwner_wakeNext]
    exact some_ne_none _ ∘ Eq.symm
  · next hne => exact hne

section

variable (hf : s.Free waiterId)
include hf

theorem Sound.grant (h : Sound s) (ho : s.documentOwner = none) :
    Sound { s with
      documentWaiters := s.documentWaiters.erase waiterId
      documentOwner := some waiterId } := by
  refine h.change hf.used (fun other hne => ?_) (fun other hne => ?_) (.inl rfl) ?_ rfl
    (fun _ => .inl) (fun _ => .inl)
  · simp [view, hne]
  · simp [ho, hne.symm]
  have hb : ({ s with
      documentWaiters := s.documentWaiters.erase waiterId
      documentOwner := some waiterId } : State).view waiterId = .blank := by
    rw [← hf.blank]
    simp [view, hf.notListed]
  rw [hb]
  exact View.fits_blank _ _

theorem Free.grant (o : Option ℕ) :
    State.Free { s with
      documentWaiters := s.documentWaiters.erase waiterId
      documentOwner := o } waiterId := by
  refine ⟨?_, hf.used⟩
  rw [← hf.blank]
  simp [view, hf.notListed]

theorem Sound.publish (h : Sound s) (ho : s.documentOwner = some waiterId) (revision : ℕ) :
    Sound (s.publishState waiterId revision) := by
  refine h.change hf.used (fun _ _ => rfl) (fun _ _ => Iff.rfl) (.inr ho) ?_ rfl
    (fun _ => .inl) (fun publication hm => ?_)
  · show (s.view waiterId).Fits _ _
    rw [hf.blank]
    exact View.fits_blank _ _
  rcases List.mem_cons.mp hm with rfl | hm
  · exact .inr ho
  · exact .inl hm

theorem Free.publish (revision : ℕ) : (s.publishState waiterId revision).Free waiterId :=
  ⟨hf.blank, hf.used⟩

theorem Sound.submit (h : Sound s) (hw : continuation.waits = true)
    (ho : continuation.outside = true → s.documentOwner ≠ some waiterId)
    (hp : c = .prepare → s.documentOwner ≠ some waiterId)
    (hb : ∀ base ∈ c.base, s.documentOwner = some waiterId ∧ s.revision = base) :
    Sound ((s.submitPhase waiterId c).keep waiterId (.pending continuation)) := by
  refine h.change hf.used (fun other hne => ?_) (fun _ _ => Iff.rfl) (.inl rfl) ?_ rfl
    (fun submission hm => ?_) (fun _ => .inl)
  · simp [view, keep, submitPhase, hne]
  · have hv : ((s.submitPhase waiterId c).keep waiterId (.pending continuation)).view
        waiterId = ⟨some continuation, some c, none, False, False⟩ := by
      simp [view, keep, submitPhase, hf.noCompletion, hf.notReady, hf.notListed]
    rw [hv]
    exact View.fits_kept _ hw (not_parked hw) ho
      (fun heq => hp (some.inj heq)) (fun _ hm => some.inj hm ▸ hb) False
  · have hm : submission ∈ (s.submitPhase waiterId c).submissions := hm
    unfold submitPhase at hm
    cases hc : c.base with
    | none =>
      simp only [hc] at hm
      exact .inl hm
    | some base =>
      simp only [hc] at hm
      rcases List.mem_cons.mp hm with rfl | hm
      · exact .inr ⟨(hb base hc).1, (hb base hc).2.symm⟩
      · exact .inl hm

theorem Sound.park (h : Sound s) (hp : continuation.parked = true)
    (ho : s.documentOwner ≠ some waiterId) :
    Sound ({ s with documentWaiters := insert waiterId s.documentWaiters }.keep waiterId
      (.pending continuation)) := by
  refine h.touch hf.used (fun other hne => ?_) ?_
    (View.fits_parked hp ho (.inl trivial) fun _ => not_false)
  · simp [view, keep, hne]
  · simp [view, keep, hf.noJob, hf.noCompletion, hf.notReady]

theorem Sound.idle (h : Sound s) (hw : continuation.waits = false)
    (hp : continuation.parked = false)
    (ho : continuation.outside = true → s.documentOwner ≠ some waiterId) :
    Sound (s.keep waiterId (.pending continuation)) ∧
      Sound (s.keep waiterId (.again continuation)) := by
  have hk : ∀ r : Prop, (⟨some continuation, none, none, r, False⟩ : View).Fits
      (s.documentOwner = some waiterId) s.revision :=
    View.fits_kept none hw hp ho nofun nofun
  constructor
  · refine h.touch hf.used (fun other hne => ?_) ?_ (hk False)
    · simp [view, keep, hne]
    · simp [view, keep, hf.noJob, hf.noCompletion, hf.notReady, hf.notListed]
  · rw [keep_again]
    refine h.touch hf.used (fun other hne => ?_) ?_ (hk True)
    · simp [view, keep, hne]
    · simp [view, keep, hf.noJob, hf.noCompletion, hf.notListed]

end

end State

end BotsterHub.Document
