import BotsterHub.Owner.RequestSound

/-!
Every control request ends exactly once.

A client that leaves takes its requests with it, apart from those that must finish. A deadline
takes a request only when served alone: together with a completion the continuation is asked
first, and its answer is still sent.
-/

namespace BotsterHub.Owner

open List Option View

namespace ControlState

variable {tidy : Prop} {past : List Ended} {s s' : ControlState} {waiterId other : ℕ}
  {entry : PendingControlRequest}

section

variable (s)

theorem ended_retire (waiterId : ℕ) (entry : PendingControlRequest) (r : RetireReason) (now : ℕ) :
    (s.retire waiterId entry r now).ended = ⟨waiterId, entry, .retired r⟩ :: s.ended := by
  obtain ⟨_, _, _, _, _, _, hr⟩ := s.retire_eq waiterId entry r now
  rw [hr]
  rfl

theorem handed_retire (waiterId : ℕ) (entry : PendingControlRequest) (r : RetireReason) (now : ℕ) :
    (s.retire waiterId entry r now).handed = s.handed := by
  obtain ⟨_, _, _, _, _, _, hr⟩ := s.retire_eq waiterId entry r now
  rw [hr]
  rfl

end

def Abandoned (s : ControlState) (waiterId : ℕ) : Prop :=
  ∃ entry, ⟨waiterId, entry, .retired .clientLeft⟩ ∈ s.ended

def Waits (s : ControlState) (waiterId : ℕ) (client : Client) : Prop :=
  ∃ entry, s.pendingRequests.lookup waiterId = some entry ∧ LeftBehind client entry

structure Silent (s s' : ControlState) : Prop where
  handed : s'.handed = s.handed
  ended : s.ended <:+ s'.ended

theorem Silent.refl (s : ControlState) : Silent s s := ⟨rfl, suffix_rfl⟩

theorem Silent.trans (h : Silent s s') (h' : Silent s' s'') : Silent s s'' :=
  ⟨h'.handed.trans h.handed, h.ended.trans h'.ended⟩

theorem Silent.foldl {α : Type*} {f : ControlState → α → ControlState}
    (hs : ∀ s a, Silent s (f s a)) (s : ControlState) (as : List α) :
    Silent s (as.foldl f s) :=
  foldlRecOn as f (.refl s) fun s' h a _ => h.trans (hs s' a)

theorem Abandoned.mono (h : s.Abandoned waiterId) (hs : Silent s s') : s'.Abandoned waiterId := by
  obtain ⟨entry, hm⟩ := h
  exact ⟨entry, hs.ended.subset hm⟩

theorem silent_retireOne (s : ControlState) (now waiterId : ℕ) :
    Silent s (s.retireOne now waiterId) := by
  unfold retireOne
  split
  · exact .refl s
  refine ⟨handed_retire .., ?_⟩
  rw [ended_retire]
  exact suffix_cons _ _

theorem silent_retireAbandonedRequests (s : ControlState) (client : Client) (now : ℕ) :
    Silent s (s.retireAbandonedRequests client now) :=
  Silent.foldl (fun s => silent_retireOne s now) s _

theorem silent_allocateAndRetain (s : ControlState) (now : ℕ) :
    Silent s (s.allocateAndRetain now) := by
  obtain ⟨_, _, _, _, hr⟩ := retainOwnerObligation_eq
    { s with nextWaiter := s.nextWaiter + 1 } s.nextWaiter now
  rw [allocateAndRetain, hr]
  exact ⟨rfl, suffix_rfl⟩

theorem silent_releasePeer (r : Bool) (now : ℕ) (s : ControlState) (g : String) :
    Silent s (s.releasePeer r now g) := by
  unfold releasePeer
  split
  · split
    · have hs := silent_allocateAndRetain (s.withoutPeer g) now
      exact ⟨hs.handed, hs.ended⟩
    · exact ⟨rfl, suffix_rfl⟩
  · exact .refl s

section

variable (h : s.Waits waiterId client)

include h

theorem Waits.retireOne (now other : ℕ) :
    (s.retireOne now other).Waits waiterId client ∧ waiterId ≠ other ∨
      (s.retireOne now other).Abandoned waiterId := by
  obtain ⟨entry, he, hl⟩ := h
  by_cases heq : waiterId = other
  · refine .inr ⟨entry, ?_⟩
    unfold ControlState.retireOne
    rw [← heq, he]
    rw [ended_retire]
    exact mem_cons_self
  · refine .inl ⟨?_, heq⟩
    have hm := unkeyed_retireOne s now other waiterId
    rw [if_neg heq, he] at hm
    obtain ⟨entry', he', -⟩ := map_eq_some_iff.mp hm
    refine ⟨entry', he', leftBehind_retireOne (fun before hb => ?_) entry' he'⟩
    rw [he] at hb
    exact (some.inj hb) ▸ hl

theorem Waits.retireAll (now : ℕ) (w : List ℕ) :
    (w.foldl (ControlState.retireOne now) s).Waits waiterId client ∧ waiterId ∉ w ∨
      (w.foldl (ControlState.retireOne now) s).Abandoned waiterId := by
  induction w generalizing s with
  | nil => exact .inl ⟨h, not_mem_nil⟩
  | cons other w ih =>
    rcases h.retireOne now other with ⟨hw, hne⟩ | ho
    · rcases ih hw with ⟨hw, hm⟩ | ho
      · exact .inl ⟨hw, not_mem_cons_of_ne_of_not_mem hne hm⟩
      · exact .inr ho
    · exact .inr (ho.mono (Silent.foldl (fun s => silent_retireOne s now) _ w))

theorem Waits.retireAbandonedRequests (now : ℕ) :
    (s.retireAbandonedRequests client now).Abandoned waiterId :=
  (h.retireAll now (s.abandoned client)).resolve_left fun hw => hw.2 (mem_abandoned.mpr h)

end

theorem Waits.retireGrants {g : String} (h : s.Waits waiterId (.grant g)) (now : ℕ)
    (r : List String) (hm : g ∈ r) :
    (r.foldl (fun s g => s.retireAbandonedRequests (.grant g) now) s).Abandoned waiterId := by
  induction r generalizing s with
  | nil => cases hm
  | cons first r ih =>
    have hr := Silent.foldl (f := fun s g =>
      s.retireAbandonedRequests (.grant g) now)
      (fun s g => silent_retireAbandonedRequests s (.grant g) now)
      (s.retireAbandonedRequests (.grant first) now) r
    rcases mem_cons.mp hm with heq | hm
    · exact (heq ▸ h.retireAbandonedRequests now : Abandoned _ _).mono hr
    rcases (h.retireAll now (s.abandoned (.grant first))).imp_left And.left with hw | ho
    · exact ih hw hm
    · exact ho.mono hr

def Leaves (s : ControlState) (client : Client) : Step → Prop
  | .connectionCleanup number _ _ => client = .connection number ∧ number ∈ s.liveConnections
  | .peerClosed removed _ _ => ∃ grantId ∈ removed, client = .grant grantId
  | _ => False

theorem act_leaves {step : Step} (h : s.Waits waiterId client) (hl : s.Leaves client step) :
    Silent s (s.act step) ∧ (s.act step).Abandoned waiterId := by
  cases step with
  | connectionCleanup n _ now =>
    obtain ⟨rfl, hlive⟩ := hl
    unfold act connectionCleanup
    dsimp only
    rw [if_pos hlive]
    have hc : Silent s { s with liveConnections := s.liveConnections.erase n } :=
      ⟨rfl, suffix_rfl⟩
    have hs := hc.trans (silent_retireAbandonedRequests _ (.connection n) now)
    have ho := Waits.retireAbandonedRequests
      (s := { s with liveConnections := s.liveConnections.erase n }) h now
    split
    · exact ⟨hs.trans (silent_allocateAndRetain _ now), ho.mono (silent_allocateAndRetain _ now)⟩
    · exact ⟨hs, ho⟩
  | peerClosed r runtime now =>
    obtain ⟨g, hm, rfl⟩ := hl
    have hr := Silent.foldl (silent_releasePeer runtime now)
      (r.foldl (fun s g => s.retireAbandonedRequests (.grant g) now) s)
      (r.filter (· ∈ s.budget.admittedPeers))
    exact ⟨(Silent.foldl (fun s g => silent_retireAbandonedRequests s (.grant g) now)
      s r).trans hr, (h.retireGrants now r hm).mono hr⟩
  | _ => cases hl

def HasEnded (s : ControlState) (waiterId : ℕ) : Prop := ∃ last ∈ s.ended, last.waiterId = waiterId

instance (s : ControlState) (waiterId : ℕ) : Decidable (s.HasEnded waiterId) :=
  inferInstanceAs (Decidable (∃ last ∈ s.ended, last.waiterId = waiterId))

theorem hasEnded_retire (s : ControlState) (waiterId : ℕ) (entry : PendingControlRequest)
    (r : RetireReason) (now : ℕ) : (s.retire waiterId entry r now).HasEnded waiterId := by
  refine ⟨⟨waiterId, entry, .retired r⟩, ?_, rfl⟩
  rw [ended_retire]
  exact mem_cons_self

theorem hasEnded_endRequest (s : ControlState) (waiterId : ℕ) (entry : PendingControlRequest)
    (reasons : Finset ReadyReason) (e : Ending) :
    (s.endRequest waiterId entry reasons e).HasEnded waiterId :=
  ⟨⟨waiterId, entry, e⟩, mem_cons_self, rfl⟩

theorem HasEnded.wakeShutdownWaiter (h : s.HasEnded waiterId) :
    s.wakeShutdownWaiter.HasEnded waiterId := by
  obtain ⟨_, _, hw⟩ := s.wakeShutdownWaiter_eq
  rw [hw]
  exact h

theorem HasEnded.finishStatusDelivery (h : s.HasEnded waiterId) (shutdown : Bool) :
    (s.finishStatusDelivery shutdown).HasEnded waiterId := by
  unfold ControlState.finishStatusDelivery
  split
  · exact h
  · exact h.wakeShutdownWaiter

variable {reasons : Finset ReadyReason} {client : Client}

theorem keepRequest_of_deadline (hd : .deadline ∈ reasons)
    (hr : entry.mustFinish = false) (ho : entry.replyOwned = true) (a : Bool)
    (now : ℕ) :
    s.keepRequest waiterId entry reasons a now = s.retire waiterId entry .deadline now := by
  unfold keepRequest
  rw [if_pos hd, if_neg]
  simp [hr, ho]

theorem mem_handed_keepRequest
    (h : other ∈ s.handed) : other ∈ (s.keepRequest waiterId entry reasons a now).handed := by
  have hp : ∀ (s : ControlState) (entry : PendingControlRequest), other ∈ s.handed →
      other ∈ (s.putBackReady waiterId entry a).handed := by
    intro s entry h
    unfold putBackReady
    split
    · obtain ⟨_, _, hm⟩ := markOwnerReady_eq (s.putBack waiterId entry) waiterId
        .hostCompletion .hostCompletion
      rw [hm]
      exact h
    · exact h
  unfold keepRequest
  split
  · split
    · refine hp _ _ ?_
      unfold countPastDeadline
      split <;> exact h
    · rw [handed_retire]
      exact h
  · exact hp s entry h

theorem mem_handed_handReply (ho : entry.replyOwned = true) :
    waiterId ∈ (s.handReply waiterId entry).handed := by
  unfold handReply
  rw [if_pos ho]
  exact mem_cons_self

/-- A retirable request whose deadline is served ends in that poll, unless its reply is handed to a
worker there. -/
theorem applyPoll_of_deadline (hd : .deadline ∈ reasons)
    (hr : entry.mustFinish = false) (ho : entry.replyOwned = true)
    (a : ControlPoll) (now : ℕ) :
    (s.applyPoll waiterId entry reasons a now).HasEnded waiterId ∨
      waiterId ∈ (s.applyPoll waiterId entry reasons a now).handed := by
  have hk : ∀ again, (s.keepRequest waiterId entry reasons again now).HasEnded waiterId := by
    intro again
    rw [keepRequest_of_deadline hd hr ho]
    exact hasEnded_retire s waiterId entry .deadline now
  have hh : waiterId ∈ ((s.handReply waiterId entry).keepRequest waiterId entry.withoutReply
      reasons false now).handed := mem_handed_keepRequest (mem_handed_handReply ho)
  cases a with
  | pending | submitPluginHost => exact .inl (hk false)
  | again => exact .inl (hk true)
  | ready | finishedInternal => exact .inl (hasEnded_endRequest _ _ _ _ _).wakeShutdownWaiter
  | deliverStatusResponse submitted =>
    cases submitted with
    | true => exact .inr hh
    | false => exact .inl (hk true)
  | statusResponseRefused shutdown | statusResponseDelivered shutdown =>
    exact .inl ((hasEnded_endRequest ..).finishStatusDelivery shutdown)
  | preparePluginResponse | deliverSessionType => exact .inr hh

def Serves (s : ControlState) (waiterId : ℕ) (reasons : Finset ReadyReason) : Prop :=
  ∃ row entry, s.ownerReady.queued.lookup waiterId = some row ∧ row.reasons = reasons ∧
    s.pendingRequests.lookup waiterId = some entry ∧ entry.mustFinish = false ∧
    entry.replyOwned = true

theorem poll_of_serves (h : s.Serves waiterId reasons)
    (turn : ContinuationTurn) (o : ObligationPoll) (now : ℕ) :
    ∃ entry, entry.mustFinish = false ∧ entry.replyOwned = true ∧ s.poll waiterId turn o now =
        ({ s with
          ownerReady := s.ownerReady.pop waiterId
          pendingRequests := s.pendingRequests.erase waiterId } :
          ControlState).pollReadyRequestItem waiterId entry reasons turn now := by
  obtain ⟨row, entry, hrow, rfl, he, hr, ho⟩ := h
  refine ⟨{ entry with readyKey := none }, hr, ho, ?_⟩
  unfold poll
  rw [hrow]
  dsimp only
  rw [he]

theorem poll_deadline (h : s.Serves waiterId reasons)
    (hd : .deadline ∈ reasons) (turn : ContinuationTurn) (o : ObligationPoll)
    (now : ℕ) :
    (s.poll waiterId turn o now).HasEnded waiterId ∨
      waiterId ∈ (s.poll waiterId turn o now).handed := by
  obtain ⟨entry, hr, ho, hp⟩ := poll_of_serves h turn o now
  rw [hp]
  unfold pollReadyRequestItem
  split
  · exact .inl (hasEnded_retire ..)
  split
  · rw [keepRequest_of_deadline hd hr ho]
    exact .inl (hasEnded_retire ..)
  · exact applyPoll_of_deadline hd hr ho _ _

theorem poll_deadline_alone (h : s.Serves waiterId {.deadline}) (turn : ContinuationTurn)
    (o : ObligationPoll) (now : ℕ) :
    (s.poll waiterId turn o now).HasEnded waiterId ∧
      (s.poll waiterId turn o now).handed = s.handed := by
  obtain ⟨entry, hr, ho, hp⟩ := poll_of_serves h turn o now
  rw [hp]
  unfold pollReadyRequestItem
  split
  · exact ⟨hasEnded_retire .., handed_retire ..⟩
  · rw [if_pos subset_rfl, keepRequest_of_deadline (Finset.mem_singleton_self _) hr ho]
    exact ⟨hasEnded_retire .., handed_retire ..⟩

def endings (s : ControlState) (waiterId : ℕ) : List Ended :=
  s.ended.filter fun last => last.waiterId = waiterId

/-- The life of one request. What its waiter has after its end belongs to the obligation of its
retire hook. -/
structure EndsOnce (tidy : Prop) (s : ControlState) (waiterId : ℕ) : Prop where
  ends : s.admitted.count waiterId =
    (s.pendingRequests.lookup waiterId).elim 0 (fun _ => 1) + (s.endings waiterId).length
  once : s.admitted.count waiterId ≤ 1
  replied : s.handed.count waiterId ≤ 1
  mustFinish : ∀ last ∈ s.endings waiterId, last.ending.isRetired = true →
    last.entry.mustFinish = false
  hooked : s.hooks.count waiterId ≤ 1
  hookRetired : waiterId ∈ s.hooks → ∃ last ∈ s.endings waiterId, last.ending.isRetired = true
  completion : tidy → s.HasEnded waiterId → s.hostCompletions.lookup waiterId = none
  cleared : s.HasEnded waiterId → s.budget.obligations.lookup waiterId = none →
    s.ownerReady.queued.lookup waiterId = none ∧ s.deadlines.states.lookup waiterId = none
  retained : (s.budget.obligations.lookup waiterId).isSome → ∀ last ∈ s.endings waiterId,
    last.ending.isRetired = true ∧ last.entry.retire = some .retainOperation

theorem HasEnded.mem (h : s.HasEnded waiterId) : ∃ last, last ∈ s.endings waiterId := by
  obtain ⟨last, hl, hid⟩ := h
  exact ⟨last, mem_filter.mpr ⟨hl, decide_eq_true hid⟩⟩

theorem Sound.pending_of_ended (h : Sound tidy past s) (he : s.HasEnded waiterId) :
    s.pendingRequests.lookup waiterId = none := by
  obtain ⟨last, hl⟩ := he.mem
  cases hentry : s.pendingRequests.lookup waiterId with
  | none => rfl
  | some =>
    have hn : s.endings waiterId = [] := (h.waiter waiterId).ended_of_pending hentry
    rw [hn] at hl
    exact absurd hl not_mem_nil

theorem Sound.handed_le_one (h : Sound tidy past s) (waiterId : ℕ) :
    s.handed.count waiterId ≤ 1 := by
  have hr : ∀ entry, replies entry ≤ 1 := by
    intro entry
    unfold replies
    split <;> omega
  cases he : s.pendingRequests.lookup waiterId with
  | some entry =>
    have hh : s.handed.count waiterId = replies entry := (h.waiter waiterId).owned entry he
    exact hh ▸ hr entry
  | none =>
    cases hended : s.endings waiterId with
    | nil =>
      have hh : s.handed.count waiterId = 0 := (h.waiter waiterId).unused he hended
      omega
    | cons last =>
      have hh : s.handed.count waiterId = replies last.entry :=
        (h.waiter waiterId).closed last (show last ∈ s.endings waiterId from hended ▸ mem_cons_self)
      exact hh ▸ hr last.entry

theorem Sound.endsOnce (h : Sound tidy past s) (waiterId : ℕ) : EndsOnce tidy s waiterId := by
  have hv := h.waiter waiterId
  have hlength : (s.endings waiterId).length ≤ 1 := by
    have ha : s.admitted.count waiterId =
      (s.pendingRequests.lookup waiterId).elim 0 (fun _ => 1) + (s.endings waiterId).length :=
      hv.admitted
    have ho : s.admitted.count waiterId ≤ 1 := hv.once
    omega
  have hh : s.hooks.count waiterId ≤
      ((s.endings waiterId).filter fun last => last.ending.isRetired).length := hv.hooks
  refine
    { ends := hv.admitted, once := hv.once, replied := h.handed_le_one waiterId
      mustFinish := hv.retired
      hooked := hh.trans ((length_filter_le _ _).trans hlength)
      hookRetired := fun hm => ?_
      completion := fun ht he => ?_
      cleared := fun he hn => ⟨?_, ?_⟩
      retained := hv.kept }
  · have hpos := (count_pos_iff.mpr hm).trans_le hh
    obtain ⟨last, hl⟩ := exists_mem_of_length_pos hpos
    exact ⟨last, (mem_filter.mp hl).1, (mem_filter.mp hl).2⟩
  · have hp := h.pending_of_ended he
    cases hc : s.hostCompletions.lookup waiterId with
    | none => rfl
    | some =>
      have hs : (s.pendingRequests.lookup waiterId).isSome :=
        hv.completion ht (show (s.hostCompletions.lookup waiterId).isSome from hc ▸ rfl)
      rw [hp] at hs
      cases hs
  · have hp := h.pending_of_ended he
    cases hr : s.ownerReady.queued.lookup waiterId with
    | none => rfl
    | some row =>
      obtain ⟨entry, hentry, -⟩ := (hv.row row hr).2 hn
      rw [show (s.view waiterId).pending = none from hp] at hentry
      cases hentry
  · have hp := h.pending_of_ended he
    cases hd : s.deadlines.states.lookup waiterId with
    | none => rfl
    | some =>
      have hs : (s.pendingRequests.lookup waiterId).isSome ∨
          (s.budget.obligations.lookup waiterId).isSome :=
        hv.deadline (show (s.deadlines.states.lookup waiterId).isSome from hd ▸ rfl)
      rw [hp, hn] at hs
      rcases hs with hs | hs <;> cases hs

structure Closed (s later : ControlState) (waiterId : ℕ) : Prop where
  endings : later.endings waiterId = s.endings waiterId
  handed : later.handed.count waiterId = s.handed.count waiterId

theorem Sound.closed (h : Sound tidy past s) (h' : Sound tidy s.ended s')
    (he : s.HasEnded waiterId) : Closed s s' waiterId := by
  obtain ⟨last, hl⟩ := he.mem
  have hs : s.endings waiterId <:+ s'.endings waiterId := h'.history.filter _
  refine ⟨?_, ?_⟩
  · have hone : s'.admitted.count waiterId =
        (s'.pendingRequests.lookup waiterId).elim 0 (fun _ => 1) + (s'.endings waiterId).length :=
      (h'.waiter waiterId).admitted
    have ho : s'.admitted.count waiterId ≤ 1 := (h'.waiter waiterId).once
    have hp : 0 < (s.endings waiterId).length := length_pos_of_mem hl
    exact (hs.eq_of_length_le (by omega)).symm
  · have hb : s.handed.count waiterId = replies last.entry := (h.waiter waiterId).closed last hl
    have ha : s'.handed.count waiterId = replies last.entry :=
      (h'.waiter waiterId).closed last (hs.subset hl)
    rw [ha, hb]

structure Settles (s : ControlState) (step : Step) (later : ControlState) : Prop where
  departure : ∀ waiterId client, s.Waits waiterId client → s.Leaves client step →
    later.Abandoned waiterId ∧ later.handed.count waiterId = s.handed.count waiterId
  deadline : ∀ waiterId turn obligation now reasons, step = .poll waiterId turn obligation now →
    s.Serves waiterId reasons → .deadline ∈ reasons →
      (s.step step).HasEnded waiterId ∨ waiterId ∈ (s.step step).handed
  alone : ∀ waiterId turn obligation now, step = .poll waiterId turn obligation now →
    s.Serves waiterId {.deadline} →
      later.HasEnded waiterId ∧ later.handed.count waiterId = s.handed.count waiterId

theorem HasEnded.mono (h : s.HasEnded waiterId) (hs : s.ended <:+ s'.ended) :
    s'.HasEnded waiterId := by
  obtain ⟨last, hl, hid⟩ := h
  exact ⟨last, hs.subset hl, hid⟩

theorem Abandoned.hasEnded (h : s.Abandoned waiterId) : s.HasEnded waiterId := by
  obtain ⟨entry, hm⟩ := h
  exact ⟨_, hm, rfl⟩

theorem Sound.settles (h : Sound tidy past s) {step : Step} {l : ControlState}
    (hstep : Sound tidy past (s.step step)) (hl : Sound tidy (s.step step).ended l) :
    Settles s step l := by
  have hact : s.step step = s.act step := by
    unfold ControlState.step
    rw [h.running]
    rfl
  refine
    { departure := fun waiterId client hw hleaves => ?_
      deadline := fun waiterId turn o now reasons hp hs hd => ?_
      alone := fun waiterId turn o now hp hs => ?_ }
  · obtain ⟨hsilent, ho⟩ := act_leaves hw hleaves
    rw [← hact] at hsilent ho
    refine ⟨?_, ?_⟩
    · obtain ⟨entry, hm⟩ := ho
      exact ⟨entry, hl.history.subset hm⟩
    · rw [(hstep.closed hl ho.hasEnded).handed, hsilent.handed]
  · rw [hact, hp]
    exact poll_deadline hs hd turn o now
  · have ha := poll_deadline_alone hs turn o now
    rw [← show s.act step = s.poll waiterId turn o now by rw [hp]; rfl, ← hact] at ha
    exact ⟨ha.1.mono hl.history, by rw [(hstep.closed hl ha.1).handed, ha.2]⟩

theorem tidyRun_append : s.TidyRun (b ++ a) ↔ s.TidyRun b ∧ (s.run b).TidyRun a := by
  induction b generalizing s with
  | nil => exact ⟨fun h => ⟨trivial, h⟩, And.right⟩
  | cons _ _ ih =>
    constructor
    · intro h
      obtain ⟨hb, ha⟩ := ih.mp (h.2 _ rfl)
      exact ⟨⟨h.1, fun _ hn => some.inj hn ▸ hb⟩, ha⟩
    · intro h
      exact ⟨h.1.1, fun _ hn => some.inj hn ▸ ih.mpr ⟨h.1.2 _ rfl, h.2⟩⟩

theorem run_append (s : ControlState) (b a : List Step) : s.run (b ++ a) = (s.run b).run a :=
  foldl_append

/-- Every admitted request is pending or has ended, once and in one way. After its end nothing is
added, and only the obligation of its retire hook may be scheduled. The departure of its client ends
a retirable request without a reply, and so does its deadline served alone. Only that its Host
completion is gone depends on the continuations. -/
theorem run_requests_end (steps : List Step) :
    (new.run steps).halted = false ∧
      (∀ waiterId, EndsOnce (new.TidyRun steps) (new.run steps) waiterId) ∧
      ∀ before after, steps = before ++ after → (∀ waiterId, (new.run before).HasEnded waiterId →
          Closed (new.run before) (new.run steps) waiterId) ∧
        ∀ step rest, after = step :: rest → Settles (new.run before) step (new.run steps) := by
  have hsound : ∀ before after, steps = before ++ after →
      Sound (new.TidyRun steps) [] (new.run before) ∧
        Sound (new.TidyRun steps) (new.run before).ended (new.run steps) := by
    rintro before after rfl
    rw [tidyRun_append, run_append]
    have hbefore : Sound (new.TidyRun before ∧ (new.run before).TidyRun after) []
        (new.run before) := sound_new.run before And.left
    exact ⟨hbefore, Sound.run { hbefore with history := suffix_rfl } after And.right⟩
  have hend := (hsound steps [] (append_nil _).symm).1
  refine ⟨hend.running, hend.endsOnce, fun before after hsplit => ⟨fun waiterId hended => ?_, ?_⟩⟩
  · exact (hsound before after hsplit).1.closed (hsound before after hsplit).2 hended
  rintro step rest rfl
  have hstep := hsound (before ++ [step]) rest (by rw [hsplit, append_assoc]; rfl)
  rw [show new.run (before ++ [step]) = (new.run before).step step from run_append ..] at hstep
  exact (hsound before _ hsplit).1.settles hstep.1 hstep.2

def departingClient : List Step :=
  [.connect, .request (some (.connection 0)) false
      (some ⟨false, false, some .retainOperation, .controlIngress, false⟩) 0,
    .connectionCleanup 0 true 5]

theorem run_requests_end_departing :
    new.TidyRun departingClient ∧ (new.run departingClient).HasEnded 0 ∧
      (∀ waiterId, EndsOnce True (new.run departingClient) waiterId) ∧
      Settles (new.run (departingClient.take 2)) (.connectionCleanup 0 true 5)
        (new.run departingClient) :=
  have htidy : new.TidyRun departingClient := by decide +kernel
  have hend := run_requests_end departingClient
  ⟨htidy, by decide +kernel, eq_true htidy ▸ hend.2.1,
    (hend.2.2 (departingClient.take 2) _ rfl).2 _ [] rfl⟩

/-- The deadline of a request fires, its completion arrives before the row is served, and its
continuation answers. -/
def answeredLate : List Step :=
  [.request none false (some ⟨false, false, none, .controlIngress, false⟩) 0,
    .poll 0 ⟨false, [], false, .pending⟩ .pending 1,
    .deadline 0 30000,
    .coreCompletion 0 1,
    .poll 0 ⟨false, [], false, .ready false⟩ .pending 30001]

/-- The reply is sent although the deadline passed before, and a retire hook leaves its waiter
scheduled. -/
theorem late_answer_is_sent :
    (∃ row entry, (new.run (answeredLate.take 4)).ownerReady.queued.lookup 0 = some row ∧
      .deadline ∈ row.reasons ∧
      (new.run (answeredLate.take 4)).pendingRequests.lookup 0 = some entry ∧
      entry.mustFinish = false ∧ entry.replyOwned = true) ∧
    (new.run (answeredLate.take 4)).handed = [] ∧ (new.run answeredLate).handed = [0] ∧
    (new.run departingClient).HasEnded 0 ∧
    ((new.run departingClient).ownerReady.queued.lookup 0).isSome ∧
    ((new.run departingClient).deadlines.states.lookup 0).isSome := by
  refine ⟨⟨_, _, rfl, ?_, rfl, ?_, ?_⟩, ?_⟩ <;> decide +kernel

end ControlState

end BotsterHub.Owner
