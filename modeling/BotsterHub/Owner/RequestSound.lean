import BotsterHub.Lib.Machine
import BotsterHub.Owner.RequestViews

/-!
The steps of the owner keep the views of its waiters sound.

While its continuation runs, a request is out of the map, so nothing can mark it ready, complete it
or retire it; it goes back into the map or ends.
-/

namespace BotsterHub.Owner

open Machine List Option AList DeadlineIndex ControlState ReadyQueues Sound View

def ControlPoll.endsStatus : ControlPoll → Bool
  | .statusResponseRefused _ | .statusResponseDelivered _ => true
  | _ => false

def PendingControlRequest.unkeyed (entry : PendingControlRequest) : PendingControlRequest :=
  { entry with readyKey := none }

namespace ControlState

variable {tidy : Prop} {past : List Ended} {s s' : ControlState} {waiterId other : ℕ}
  {entry : PendingControlRequest}

theorem Sound.retainOwnerObligation (h : Sound tidy past s) (hu : waiterId < s.nextWaiter)
    (hp : (s.view waiterId).pending = none) (hd : (s.view waiterId).deadline = none)
    (hk : View.Retained (s.view waiterId).ended) (now : ℕ) :
    Sound tidy past (s.retainOwnerObligation waiterId now) :=
  h.touch (touches_retainOwnerObligation hd now)
    ((h.waiter waiterId).retain hp hk (waiterId_markKey (h.waiter waiterId) _ _) _)
    fun hle => absurd hu (Nat.not_lt.mpr hle)

theorem retained_of_empty (he : s.view waiterId = .empty) :
    View.Retained (s.view waiterId).ended := by
  rw [he]
  exact fun _ hm => absurd hm not_mem_nil

theorem Sound.allocate (h : Sound tidy past s) :
    Sound tidy past { s with nextWaiter := s.nextWaiter + 1 } :=
  { h with fresh := fun other hle => h.fresh other (Nat.le_of_succ_le hle) }

theorem Sound.allocateAndRetain (h : Sound tidy past s) (now : ℕ) :
    Sound tidy past (s.allocateAndRetain now) := by
  have he := h.fresh s.nextWaiter le_rfl
  exact h.allocate.retainOwnerObligation (Nat.lt_succ_self _) (congrArg pending he)
    (congrArg deadline he) (retained_of_empty he) now

theorem Away.allocateAndRetain (h : Away tidy past s waiterId entry) (now : ℕ) :
    Away tidy past (s.allocateAndRetain now) waiterId entry := by
  have hne : s.nextWaiter ≠ waiterId := (Nat.ne_of_lt h.used).symm
  have he : s.view s.nextWaiter = .empty := by
    rw [← view_putBack_of_ne s entry hne]
    exact h.sound.fresh s.nextWaiter le_rfl
  have ha : Away tidy past { s with nextWaiter := s.nextWaiter + 1 } waiterId entry :=
    ⟨h.gone, h.sound.allocate⟩
  exact ha.touch hne (touches_retainOwnerObligation (s := { s with nextWaiter := s.nextWaiter + 1 })
      (congrArg deadline he) now)
    ((ha.others hne).retain (congrArg pending he) (retained_of_empty he)
      (waiterId_markKey (ha.others hne) _ _) _)
    fun hle => absurd (Nat.lt_succ_self _) (Nat.not_lt.mpr hle)

theorem Away.row_none (h : Away tidy past s waiterId entry) (hk : entry.readyKey = none) :
    (s.view waiterId).row = none := by
  cases hrow : (s.view waiterId).row with
  | none => rfl
  | some row =>
    obtain ⟨other, ho, hr⟩ := (h.here.row row hrow).2 (h.here.apart rfl)
    rw [← some.inj ho, hk] at hr
    cases hr

theorem touches_endRequest (s : ControlState) (waiterId : ℕ) (entry : PendingControlRequest)
    (r : Finset ReadyReason) (e : Ending) :
    Touches waiterId
      (fun v => { v with deadline := none, ended := ⟨waiterId, entry, e⟩ :: v.ended }) s
      (s.endRequest waiterId entry r e) := by
  unfold endRequest countPastDeadline
  dsimp only
  have hv : ∀ c : OwnerBudgetCounters, Touches waiterId
      (fun v => { v with deadline := none, ended := ⟨waiterId, entry, e⟩ :: v.ended }) s
      { s with
        budget.counters := c
        deadlines := s.deadlines.retire waiterId
        ended := ⟨waiterId, entry, e⟩ :: s.ended } := by
    intro c
    refine touches_of_view (fun other => ?_) rfl rfl (suffix_cons _ _)
    rcases eq_or_ne other waiterId with rfl | hne
    · simp [view, lookup_retire]
    · simp [view, lookup_retire, hne, hne.symm]
  split
  · split
    · exact hv s.budget.counters
    · exact hv _
  · exact hv s.budget.counters

theorem Away.endRequest (h : Away tidy past s waiterId entry) (hk : entry.readyKey = none)
    (hc : tidy → (s.view waiterId).completion = none) (r : Finset ReadyReason)
    (he : e.isRetired = false) :
    Sound tidy past (s.endRequest waiterId entry r e) := by
  refine h.settle (touches_endRequest s waiterId entry r e) ?_
  have hclosed := h.here.close ⟨waiterId, entry, e⟩ hc
    (h.here.owned entry rfl) fun hr => by rw [he] at hr; cases hr
  rw [← h.row_none hk, ← h.gone] at hclosed
  exact hclosed

def retired (s : ControlState) (waiterId : ℕ) (entry : PendingControlRequest)
    (reason : RetireReason) : ControlState :=
  ({ s with
    ownerReady := entry.readyKey.elim s.ownerReady s.ownerReady.remove
    deadlines := s.deadlines.retire waiterId
    hostCompletions := s.hostCompletions.erase waiterId
    budget.counters.retiredAbandoned := s.budget.counters.retiredAbandoned + 1 } :
    ControlState).conclude waiterId entry (.retired reason)

theorem retire_eq (s : ControlState) (waiterId : ℕ) (entry : PendingControlRequest)
    (reason : RetireReason) (now : ℕ) :
    ∃ pendingRequests ownerReady deadlines obligations halted hooks,
      s.retire waiterId entry reason now =
        { s.retired waiterId entry reason with
          pendingRequests, ownerReady, deadlines, halted, hooks
          budget.obligations := obligations } := by
  obtain ⟨_, _, _, _, _, hh⟩ :=
    (s.retired waiterId entry reason).runHook_eq waiterId entry.retire now
  obtain ⟨pendingRequests, ownerReady, hw⟩ := wakeShutdownWaiter_eq
    ((s.retired waiterId entry reason).runHook waiterId entry.retire now)
  exact ⟨_, _, _, _, _, _, hw.trans
    (congrArg (fun s : ControlState => { s with pendingRequests, ownerReady }) hh)⟩

theorem touches_retired (h : Away tidy past s waiterId entry) (r : RetireReason) : Touches waiterId
      (fun v => { v with
        row := none, deadline := none, completion := none
        ended := ⟨waiterId, entry, .retired r⟩ :: v.ended }) s
      (s.retired waiterId entry r) := by
  have hrow : (entry.readyKey.elim s.ownerReady s.ownerReady.remove).queued.lookup waiterId =
      none := by
    cases hk : entry.readyKey with
    | none => exact h.row_none hk
    | some key =>
      have hid : key.waiterId = waiterId := h.here.keyed entry rfl key hk
      rw [← hid]
      refine lookup_remove_self fun row hl => ?_
      obtain ⟨other, ho, hr⟩ := (h.here.row row (hid ▸ hl)).2 (h.here.apart rfl)
      rw [← some.inj ho, hk] at hr
      exact (some.inj hr).symm
  have hrows : ∀ other, other ≠ waiterId →
      (entry.readyKey.elim s.ownerReady s.ownerReady.remove).queued.lookup other =
        s.ownerReady.queued.lookup other := by
    intro other hne
    cases hk : entry.readyKey with
    | none => rfl
    | some key =>
      have hid : key.waiterId = waiterId := h.here.keyed entry rfl key hk
      exact lookup_remove_of_ne (hid ▸ hne)
  refine touches_of_view (fun other => ?_) rfl rfl (suffix_cons _ _)
  rcases eq_or_ne other waiterId with rfl | hne
  · simp [view, retired, conclude, hrow, lookup_retire]
  · simp [view, retired, conclude, hrows other hne, lookup_retire, hne, hne.symm]

theorem touches_hooks (s : ControlState) (waiterId : ℕ) :
    Touches waiterId (fun v => { v with hooks := v.hooks + 1 }) s
      { s with hooks := waiterId :: s.hooks } := by
  refine ⟨?_, fun other hne => ?_, rfl, rfl, suffix_rfl⟩
  · unfold view
    rw [count_cons_self]
  · unfold view
    rw [count_cons_of_ne hne.symm]

section

variable (h : Away tidy past s waiterId entry)
include h

theorem Away.retire (hr : entry.mustFinish = false)
    (r : RetireReason) (now : ℕ) : Sound tidy past (s.retire waiterId entry r now) := by
  have ht := touches_retired h r
  have hn : (s.view waiterId).ended = [] := h.here.ended_of_pending rfl
  have hs : Sound tidy past (s.retired waiterId entry r) := by
    refine h.settle ht ?_
    have hc := h.here.close ⟨waiterId, entry, .retired r⟩ (fun _ => rfl)
      (h.here.owned entry rfl) fun _ => hr
    rw [← h.gone] at hc
    exact hc
  have hhooks : ((s.retired waiterId entry r).view waiterId).hooks = 0 := by
    rw [ht.self]
    have := h.here.hooks
    rw [show ({ s.view waiterId with pending := some entry } : View).ended = [] from hn] at this
    exact Nat.le_zero.mp this
  have hh : Sound tidy past
      { s.retired waiterId entry r with hooks := waiterId :: (s.retired waiterId entry
        r).hooks } := by
    refine hs.touch (touches_hooks _ waiterId) ?_ fun hle => absurd h.used (Nat.not_lt.mpr hle)
    refine (hs.waiter waiterId).runHook ⟨waiterId, entry, .retired r⟩ ?_ rfl hhooks
    rw [ht.self, ← hn]
  refine Sound.wakeShutdownWaiter ?_
  unfold runHook
  split
  · exact hs
  · exact hh
  next hhook =>
  refine hh.retainOwnerObligation h.used ?_ ?_ ?_ now
  · exact (congrArg pending ht.self).trans h.gone
  · exact congrArg deadline ht.self
  intro last hl
  have he : last ∈ ((s.retired waiterId entry r).view waiterId).ended := hl
  rw [ht.self, hn, mem_singleton] at he
  rw [he]
  exact ⟨rfl, hhook⟩

theorem Away.setEntry
    (hr : entry'.replyOwned = entry.replyOwned) (hk : entry'.readyKey = entry.readyKey) :
    Away tidy past s waiterId entry' :=
  h.keep (f := id) ⟨rfl, fun _ _ => rfl, rfl, rfl, suffix_rfl⟩ h.gone (h.here.setEntry rfl hr hk)

theorem Away.congr
    (hv : ∀ waiterId, s'.view waiterId = s.view waiterId) (hn : s'.nextWaiter = s.nextWaiter)
    (hh : s'.halted = s.halted) (he : s'.ended = s.ended) :
    Away tidy past s' waiterId entry :=
  h.keep (f := id) ⟨hv waiterId, fun other _ => hv other, hn, hh, he ▸ suffix_rfl⟩ h.gone h.here

end

theorem touches_handed (s : ControlState) (waiterId : ℕ) :
    Touches waiterId (fun v => { v with handed := v.handed + 1 }) s
      { s with handed := waiterId :: s.handed } := by
  refine ⟨?_, fun other hne => ?_, rfl, rfl, suffix_rfl⟩
  · unfold view
    rw [count_cons_self]
  · unfold view
    rw [count_cons_of_ne hne.symm]

theorem Away.handReply (h : Away tidy past s waiterId entry) :
    Away tidy past (s.handReply waiterId entry) waiterId entry.withoutReply := by
  unfold ControlState.handReply
  split
  · next ho =>
    exact h.keep (touches_handed s waiterId) h.gone (h.here.handReply ho)
  · next ho =>
    exact h.setEntry (Bool.eq_false_of_not_eq_true ho).symm rfl

theorem completion_handReply (s : ControlState) (waiterId other : ℕ)
    (entry : PendingControlRequest) :
    ((s.handReply waiterId entry).view other).completion = (s.view other).completion := by
  unfold handReply
  split <;> rfl

theorem view_countPastDeadline (s : ControlState) (entry : PendingControlRequest) :
    (∀ waiterId, (s.countPastDeadline entry).view waiterId = s.view waiterId) ∧
      (s.countPastDeadline entry).nextWaiter = s.nextWaiter ∧
      (s.countPastDeadline entry).halted = s.halted ∧
      (s.countPastDeadline entry).ended = s.ended := by
  unfold countPastDeadline
  split <;> exact ⟨fun _ => rfl, rfl, rfl, rfl⟩

section

variable (h : Away tidy past s waiterId entry)

include h

theorem Away.countPastDeadline : Away tidy past (s.countPastDeadline entry) waiterId entry := by
  obtain ⟨hv, hn, hh, he⟩ := view_countPastDeadline s entry
  exact h.congr hv hn hh he

theorem Away.putBackReady (a : Bool) : Sound tidy past (s.putBackReady waiterId entry a) := by
  unfold ControlState.putBackReady
  split
  · exact h.sound.markOwnerReady ..
  · exact h.sound

theorem Away.keepRequest (r : Finset ReadyReason) (a : Bool) (now : ℕ) :
    Sound tidy past (s.keepRequest waiterId entry r a now) := by
  unfold ControlState.keepRequest
  split
  · split
    · have hf : Away tidy past (s.countPastDeadline entry) waiterId
          (flagPastDeadline entry) := h.countPastDeadline.setEntry rfl rfl
      exact hf.putBackReady a
    next hr =>
    exact h.retire (Bool.eq_false_of_not_eq_true fun hm => hr (.inl hm)) .deadline now
  · exact h.putBackReady a

theorem Away.markAll (w : List (ℕ × ReadyClass × ReadyReason)) :
    Away tidy past (w.foldl (fun s wake => s.markOwnerReady wake.1 wake.2.1 wake.2.2) s)
      waiterId entry := by
  induction w generalizing s with
  | nil => exact h
  | cons _ _ ih => exact ih (h.markOwnerReady _ _ _)

end

theorem hostCompletions_markAll (s : ControlState) (w : List (ℕ × ReadyClass × ReadyReason)) :
    (w.foldl (fun s wake => s.markOwnerReady wake.1 wake.2.1 wake.2.2) s).hostCompletions =
      s.hostCompletions := by
  induction w generalizing s with
  | nil => rfl
  | cons wake _ ih =>
    obtain ⟨_, _, hm⟩ := s.markOwnerReady_eq wake.1 wake.2.1 wake.2.2
    rw [foldl_cons, ih, hm]

theorem touches_takeCompletion (s : ControlState) (waiterId : ℕ) :
    Touches waiterId (fun v => { v with completion := none }) s
      { s with hostCompletions := s.hostCompletions.erase waiterId } := by
  refine touches_of_view (fun other => ?_) rfl rfl suffix_rfl
  rcases eq_or_ne other waiterId with rfl | hne <;> simp [view, *]

theorem Away.takeCompletion (h : Away tidy past s waiterId entry) :
    Away tidy past { s with hostCompletions := s.hostCompletions.erase waiterId } waiterId entry :=
  h.keep (touches_takeCompletion s waiterId) h.gone
    { h.here with completion := fun _ hs => absurd hs Bool.false_ne_true }

theorem Away.runContinuation (h : Away tidy past s waiterId entry) (turn : ContinuationTurn) :
    Away tidy past (s.runContinuation waiterId turn) waiterId entry := by
  refine Away.markAll ?_ turn.wakes
  have hs : ∀ {s : ControlState} (shutdownWaiter : Option ℕ),
      Away tidy past s waiterId entry → Away tidy past { s with shutdownWaiter } waiterId entry :=
    fun _ h => h.congr (fun _ => rfl) rfl rfl rfl
  split
  · exact hs _ h.takeCompletion
  · exact hs _ h

theorem Sound.finishStatusDelivery (h : Sound tidy past s) (shutdown : Bool) :
    Sound tidy past (s.finishStatusDelivery shutdown) := by
  unfold ControlState.finishStatusDelivery
  split
  · exact h.congr (fun _ => rfl) rfl rfl rfl
  · exact h.wakeShutdownWaiter

theorem Away.applyPoll (h : Away tidy past s waiterId entry) (hk : entry.readyKey = none)
    (r : Finset ReadyReason) (a : ControlPoll) (now : ℕ)
    (htidy : tidy → a.endsStatus = true → (s.view waiterId).completion = none) :
    Sound tidy past (s.applyPoll waiterId entry r a now) := by
  cases a with
  | pending | submitPluginHost => exact h.keepRequest r false now
  | again => exact h.keepRequest r true now
  | ready staleAttach =>
    refine Sound.wakeShutdownWaiter ?_
    have hc : Away tidy past
        { (if staleAttach then s.allocateAndRetain now else s) with
          hostCompletions := (if staleAttach then s.allocateAndRetain now else
            s).hostCompletions.erase waiterId } waiterId entry := by
      split
      · exact (h.allocateAndRetain now).takeCompletion
      · exact h.takeCompletion
    exact hc.handReply.endRequest hk (fun _ => (completion_handReply _ _ _ _).trans
      (congrArg completion (touches_takeCompletion _ waiterId).self)) r rfl
  | finishedInternal =>
    exact (h.takeCompletion.endRequest hk
      (fun _ => congrArg completion (touches_takeCompletion s waiterId).self) ∅
      rfl).wakeShutdownWaiter
  | deliverStatusResponse =>
    unfold ControlState.applyPoll
    dsimp only
    split
    · exact h.handReply.keepRequest r false now
    · exact h.keepRequest r true now
  | statusResponseRefused shutdown =>
    refine (h.handReply.endRequest hk (fun ht => ?_) r rfl).finishStatusDelivery shutdown
    rw [completion_handReply]
    exact htidy ht rfl
  | statusResponseDelivered shutdown =>
    exact (h.endRequest hk (fun ht => htidy ht rfl) r rfl).finishStatusDelivery shutdown
  | preparePluginResponse | deliverSessionType => exact h.handReply.keepRequest r false now

theorem completion_runContinuation (s : ControlState) (waiterId : ℕ) (turn : ContinuationTurn)
    (h : turn.takesCompletion = true ∨ (s.view waiterId).completion = none) :
    ((s.runContinuation waiterId turn).view waiterId).completion = none := by
  unfold runContinuation
  show lookup waiterId (hostCompletions _) = none
  rw [hostCompletions_markAll]
  split
  · rw [lookup_erase_eq, if_pos rfl]
  · next ht => exact h.resolve_left ht

theorem Away.pollReadyRequestItem (h : Away tidy past s waiterId entry)
    (hk : entry.readyKey = none) (r : Finset ReadyReason) (turn : ContinuationTurn)
    (now : ℕ)
    (htidy : tidy → turn.answer.endsStatus = true →
      turn.takesCompletion = true ∨ (s.view waiterId).completion = none) :
    Sound tidy past (s.pollReadyRequestItem waiterId entry r turn now) := by
  unfold ControlState.pollReadyRequestItem
  split
  · next hc => exact h.retire hc.1 .replyClosed now
  split
  · exact h.keepRequest r false now
  · exact (h.runContinuation turn).applyPoll hk r turn.answer now fun ht he =>
      completion_runContinuation s waiterId turn (htidy ht he)

theorem touches_serveObligation (s : ControlState) (waiterId : ℕ)
    (obligation : Option CleanupObligation) (counters : OwnerBudgetCounters) (done : Bool) :
    Touches waiterId
      (fun v => { v with row := none, obligation, deadline := if done then none else v.deadline }) s
      { s with
        ownerReady := s.ownerReady.pop waiterId
        deadlines := if done then s.deadlines.retire waiterId else s.deadlines
        budget.counters := counters
        budget.obligations := obligation.elim (s.budget.obligations.erase waiterId)
          ((s.budget.obligations.erase waiterId).insert waiterId) } := by
  have ho : ∀ other, (obligation.elim (s.budget.obligations.erase waiterId)
        ((s.budget.obligations.erase waiterId).insert waiterId)).lookup other =
        if other = waiterId then obligation else s.budget.obligations.lookup other := by
    intro other
    cases obligation with
    | none =>
      show (s.budget.obligations.erase waiterId).lookup other = _
      rw [lookup_erase_eq]
    | some obligation =>
      show ((s.budget.obligations.erase waiterId).insert waiterId obligation).lookup other = _
      rw [lookup_insert_eq, lookup_erase_eq]
      split <;> rfl
  have hd : ∀ other,
      (if done then s.deadlines.retire waiterId else s.deadlines).states.lookup other =
        if other = waiterId ∧ done = true then none else s.deadlines.states.lookup other := by
    intro other
    cases done with
    | true => simp [lookup_retire]
    | false => simp
  refine touches_of_view (fun other => ?_) rfl rfl suffix_rfl
  unfold view
  dsimp only
  rw [ho, hd, lookup_pop]
  cases done <;> split <;> simp [*]

theorem Sound.pollOwnerObligationItem (h : Sound tidy past s) (hu : waiterId < s.nextWaiter)
    (hp : s.pendingRequests.lookup waiterId = none)
    (hk : View.Retained (s.view waiterId).ended) (obligation : CleanupObligation)
    (reasons : Finset ReadyReason) (result : ObligationPoll) :
    Sound tidy past
      (({ s with
        ownerReady := s.ownerReady.pop waiterId
        budget.obligations := s.budget.obligations.erase waiterId } :
        ControlState).pollOwnerObligationItem waiterId obligation reasons result) := by
  -- the counters are not followed
  have hs : ∀ obligation counters, Sound tidy past
        { s with
          ownerReady := s.ownerReady.pop waiterId
          budget.counters := counters
          budget.obligations := (s.budget.obligations.erase waiterId).insert waiterId
            obligation } := fun obligation counters =>
    h.touch (touches_serveObligation s waiterId (some obligation) counters false)
      ((h.waiter waiterId).serveObligation hp (fun _ => hk) fun _ => rfl)
      fun hle => absurd hu (Nat.not_lt.mpr hle)
  have hd : ∀ counters, Sound tidy past
        { s with
          ownerReady := s.ownerReady.pop waiterId
          deadlines := s.deadlines.retire waiterId
          budget.counters := counters
          budget.obligations := s.budget.obligations.erase waiterId } := fun counters =>
    h.touch (touches_serveObligation s waiterId none counters true)
      ((h.waiter waiterId).serveObligation hp nofun nofun) fun _ => rfl
  unfold ControlState.pollOwnerObligationItem
  by_cases hl : ReadyReason.deadline ∈ reasons ∧ obligation.pastDeadline = false
  · simp only [if_pos hl]
    cases result with
    | pending => exact hs _ _
    | readyAgain => exact (hs _ _).markObligationReady _ _
    | done => exact hd _
  · simp only [if_neg hl]
    cases result with
    | pending => exact hs obligation s.budget.counters
    | readyAgain => exact (hs obligation s.budget.counters).markObligationReady _ _
    | done => exact hd s.budget.counters

theorem touches_pop (s : ControlState) (waiterId : ℕ) :
    Touches waiterId (fun v => { v with row := none }) s
      { s with ownerReady := s.ownerReady.pop waiterId } := by
  refine touches_of_view (fun other => ?_) rfl rfl suffix_rfl
  rcases eq_or_ne other waiterId with rfl | hne <;> simp [view, lookup_pop, *]

theorem Sound.serve (h : Sound tidy past s) (he : s.pendingRequests.lookup waiterId = some entry) :
    Away tidy past
      { s with
        ownerReady := s.ownerReady.pop waiterId
        pendingRequests := s.pendingRequests.erase waiterId } waiterId
      { entry with readyKey := none } := by
  have ht := touches_pop { s with pendingRequests := s.pendingRequests.erase waiterId } waiterId
  exact (h.away he).keep ht (h.away he).gone ((h.away he).here.serve rfl)

/-- No status delivery is reported while a Host completion of the waiter is stored. -/
def Tidy (s : ControlState) : Step → Prop
  | .poll waiterId turn _ _ =>
    turn.answer.endsStatus = true →
      turn.takesCompletion = true ∨ s.hostCompletions.lookup waiterId = none
  | _ => True

instance (s : ControlState) (step : Step) : Decidable (s.Tidy step) := by
  unfold Tidy
  split <;> infer_instance

theorem Sound.poll (h : Sound tidy past s) (turn : ContinuationTurn) (o : ObligationPoll)
    (now : ℕ) (ht : tidy → s.Tidy (.poll waiterId turn o now)) :
    Sound tidy past (s.poll waiterId turn o now) := by
  unfold ControlState.poll
  split
  · exact h
  next row hrow =>
  have hu : waiterId < s.nextWaiter := h.used fun he =>
    some_ne_none row (hrow ▸ congrArg View.row he)
  dsimp only
  split
  · next hentry =>
    exact (h.serve hentry).pollReadyRequestItem rfl row.reasons turn now ht
  next hn =>
  split
  · next hr =>
    exact h.pollOwnerObligationItem hu hn
      ((h.waiter waiterId).kept (show (s.budget.obligations.lookup waiterId).isSome from
        hr ▸ rfl)) _ row.reasons o
  · refine h.touch (touches_pop s waiterId) ?_ fun _ => rfl
    exact (h.waiter waiterId).serveObligation hn (h.waiter waiterId).kept fun hs =>
      ((h.waiter waiterId).deadline hs).resolve_left fun hp => by
        rw [show (s.view waiterId).pending = none from hn] at hp
        cases hp

theorem touches_give (he : s.view waiterId = .empty) (entry : PendingControlRequest)
    (deadlines : DeadlineIndex)
    (hd : ∀ other, other ≠ waiterId →
      deadlines.states.lookup other = s.deadlines.states.lookup other) :
    Touches waiterId
      (fun v => { v with
        admitted := 1, pending := some entry, deadline := deadlines.states.lookup waiterId }) s
      { s with
        pendingRequests := s.pendingRequests.insert waiterId entry
        admitted := waiterId :: s.admitted
        deadlines } := by
  have hc : s.admitted.count waiterId = 0 := congrArg View.admitted he
  refine touches_of_view (fun other => ?_) rfl rfl suffix_rfl
  rcases eq_or_ne other waiterId with rfl | hne
  · simp [view, hc]
  · simp [view, hne, hne.symm, hd other hne]

section

variable (h : Sound tidy past s)

include h

theorem Sound.insertRequest (he : s.view waiterId = .empty)
    (hu : waiterId < s.nextWaiter) (hk : entry.readyKey = none)
    (ho : entry.replyOwned = true) (deadline : Option ℕ) (readyClass : ReadyClass) (now : ℕ) :
    Sound tidy past (s.insertRequest waiterId entry deadline readyClass now) := by
  have hg : ∀ deadlines : DeadlineIndex, (∀ other, other ≠ waiterId →
        deadlines.states.lookup other = s.deadlines.states.lookup other) →
      Sound tidy past
        { s with
          pendingRequests := s.pendingRequests.insert waiterId
            { entry with deadlineKey := deadline }
          admitted := waiterId :: s.admitted
          deadlines } := by
    intro deadlines hd
    refine h.touch (touches_give he _ deadlines hd) ?_ fun hle => absurd hu (Nat.not_lt.mpr hle)
    rw [he]
    exact sound_given
      (show ({ entry with deadlineKey := deadline } : PendingControlRequest).readyKey = none
        from hk) ho _
  unfold ControlState.insertRequest
  cases deadline with
  | none => exact (hg s.deadlines fun _ _ => rfl).markOwnerReady _ _ _
  | some instant =>
    dsimp only
    rw [arm_of_none (congrArg deadline he)]
    dsimp only
    have hm := (hg ⟨s.deadlines.states.insert waiterId ⟨some instant, none⟩⟩
      fun other hne => by rw [lookup_insert_eq, if_neg hne]).markOwnerReady waiterId
        readyClass .initial
    split
    · exact hm.markOwnerReady ..
    · exact hm

theorem Sound.refuse : Sound tidy past s.refuse := h.congr (fun _ => rfl) rfl rfl rfl

theorem Sound.handleAs (c : Option Client) (p : Bool) (started : Option StartedRequest) (now : ℕ) :
    Sound tidy past (s.handleAs c p started now) := by
  unfold ControlState.handleAs
  split
  · exact h
  split
  · exact h
  split
  · exact h.refuse
  have he := h.fresh s.nextWaiter le_rfl
  split
  · exact h.allocate
  next started =>
  split
  · have hm : Sound tidy past
        { s with nextWaiter := s.nextWaiter + 1, shutdownWaiter := some s.nextWaiter } :=
      h.allocate.congr (fun _ => rfl) rfl rfl rfl
    exact hm.insertRequest he (Nat.lt_succ_self _) rfl rfl ..
  · exact h.allocate.insertRequest he (Nat.lt_succ_self _) rfl rfl ..

theorem Sound.acceptInternal (spawn : Bool) (r : ReadyClass) (d : Option ℕ) (now : ℕ) :
    Sound tidy past (s.acceptInternal spawn r d now) := by
  unfold ControlState.acceptInternal
  split
  · exact h.refuse
  · exact h.allocate.insertRequest (h.fresh s.nextWaiter le_rfl) (Nat.lt_succ_self _) rfl rfl ..

end

section

variable (s)

theorem unkeyed_markOwnerReady (waiterId : ℕ) (r : ReadyClass) (reason : ReadyReason) (other : ℕ) :
    ((s.markOwnerReady waiterId r reason).pendingRequests.lookup other).map (·.unkeyed) =
      (s.pendingRequests.lookup other).map (·.unkeyed) := by
  unfold markOwnerReady
  split
  · rfl
  next he =>
  rw [lookup_insert_eq]
  split
  · next heq =>
    rw [heq, he]
    rfl
  · rfl

theorem unkeyed_wakeShutdownWaiter (other : ℕ) :
    (s.wakeShutdownWaiter.pendingRequests.lookup other).map (·.unkeyed) =
      (s.pendingRequests.lookup other).map (·.unkeyed) := by
  unfold wakeShutdownWaiter
  split
  · exact unkeyed_markOwnerReady s _ _ _ other
  · rfl

theorem unkeyed_retire (waiterId : ℕ) (entry : PendingControlRequest)
    (r : RetireReason) (now other : ℕ) :
    ((s.retire waiterId entry r now).pendingRequests.lookup other).map (·.unkeyed) =
      (s.pendingRequests.lookup other).map (·.unkeyed) := by
  obtain ⟨_, _, _, _, _, hh⟩ := (s.retired waiterId entry r).runHook_eq waiterId entry.retire now
  refine (unkeyed_wakeShutdownWaiter _ other).trans ?_
  rw [← retired, hh]
  rfl

theorem unkeyed_retireOne (now waiterId other : ℕ) :
    ((s.retireOne now waiterId).pendingRequests.lookup other).map (·.unkeyed) =
      if other = waiterId then none else (s.pendingRequests.lookup other).map (·.unkeyed) := by
  unfold retireOne
  split
  · next hn =>
    split
    · next heq => rw [heq, hn]; rfl
    · rfl
  · rw [unkeyed_retire]
    rw [lookup_erase_eq]
    split <;> rfl

end

def LeftBehind (client : Client) (entry : PendingControlRequest) : Prop :=
  entry.client = some client ∧ entry.mustFinish = false

theorem leftBehind_retireOne (h : ∀ entry ∈ s.pendingRequests.lookup other, LeftBehind c entry) :
    ∀ entry ∈ (s.retireOne now waiterId).pendingRequests.lookup other, LeftBehind c entry := by
  intro entry he
  have hm := unkeyed_retireOne s now waiterId other
  rw [show (s.retireOne now waiterId).pendingRequests.lookup other = some entry from he] at hm
  split at hm
  · cases hm
  obtain ⟨b, hb, hu⟩ := map_eq_some_iff.mp hm.symm
  have hl := h b hb
  exact ⟨(congrArg (·.client) hu).symm.trans hl.1, (congrArg (·.mustFinish) hu).symm.trans hl.2⟩

theorem Sound.retireOne (h : Sound tidy past s)
    (hr : ∀ entry ∈ s.pendingRequests.lookup waiterId, entry.mustFinish = false) (now : ℕ) :
    Sound tidy past (s.retireOne now waiterId) := by
  unfold ControlState.retireOne
  split
  · exact h
  · next entry he => exact (h.away he).retire (hr entry he) .clientLeft now

theorem Sound.retireAll (h : Sound tidy past s) (c : Client) (now : ℕ) (w : List ℕ)
    (hl : ∀ waiterId ∈ w, ∀ entry ∈ s.pendingRequests.lookup waiterId,
      LeftBehind c entry) : Sound tidy past (w.foldl (ControlState.retireOne now) s) := by
  induction w generalizing s with
  | nil => exact h
  | cons waiterId _ ih =>
    refine ih (h.retireOne (fun entry he => (hl waiterId mem_cons_self entry he).2)
      now) fun other ho => ?_
    exact leftBehind_retireOne (hl other (mem_cons_of_mem _ ho))

theorem mem_abandoned : waiterId ∈ s.abandoned c ↔
      ∃ entry, s.pendingRequests.lookup waiterId = some entry ∧ LeftBehind c entry := by
  unfold abandoned LeftBehind
  rw [List.mem_filter, Option.any_eq_true]
  constructor
  · rintro ⟨_, entry, he, hl⟩
    exact ⟨entry, he, of_decide_eq_true hl⟩
  rintro ⟨entry, he, hl⟩
  have hm : waiterId ∈ s.pendingRequests := lookup_isSome.mp (he ▸ rfl)
  exact ⟨mem_keysAfter.mpr ⟨hm, past_none waiterId⟩, entry, he, decide_eq_true hl⟩

theorem Sound.retireAbandonedRequests (h : Sound tidy past s) (c : Client) (now : ℕ) :
    Sound tidy past (s.retireAbandonedRequests c now) := by
  refine h.retireAll c now _ fun waiterId hm entry he => ?_
  obtain ⟨entry', he', hl⟩ := mem_abandoned.mp hm
  rw [he'] at he
  exact (some.inj he) ▸ hl

theorem Sound.connectionCleanup (h : Sound tidy past s) (n : ℕ) (r : Bool)
    (now : ℕ) : Sound tidy past (s.connectionCleanup n r now) := by
  have hc : Sound tidy past { s with liveConnections := s.liveConnections.erase n } :=
    h.congr (fun _ => rfl) rfl rfl rfl
  unfold ControlState.connectionCleanup
  split
  · exact (hc.retireAbandonedRequests _ now).allocateAndRetain now
  · exact hc.retireAbandonedRequests _ now

theorem Sound.releasePeer (h : Sound tidy past s) (r : Bool) (now : ℕ)
    (g : String) : Sound tidy past (s.releasePeer r now g) := by
  have hr : Sound tidy past (s.withoutPeer g) := h.congr (fun _ => rfl) rfl rfl rfl
  unfold ControlState.releasePeer
  split
  · split
    · exact hr.allocateAndRetain now
    · exact hr
  · exact h

theorem Sound.foldl {α : Type*} {f : ControlState → α → ControlState}
    (hs : ∀ {s : ControlState}, Sound tidy past s → ∀ a, Sound tidy past (f s a))
    (h : Sound tidy past s) (as : List α) : Sound tidy past (as.foldl f s) := by
  induction as generalizing s with
  | nil => exact h
  | cons a as ih => exact ih (hs h a)

theorem Sound.peerClosed (h : Sound tidy past s) (removed : List String) (r : Bool)
    (now : ℕ) : Sound tidy past (s.peerClosed removed r now) :=
  foldl (fun h => h.releasePeer r now)
    (foldl (fun h g => h.retireAbandonedRequests (.grant g) now) h removed) _

theorem Sound.used_of_pending (h : Sound tidy past s)
    (he : s.pendingRequests.lookup waiterId = some entry) : waiterId < s.nextWaiter :=
  h.used fun hempty => some_ne_none entry (he ▸ congrArg pending hempty)

theorem touches_putBack (s : ControlState) (waiterId : ℕ) (entry : PendingControlRequest) :
    Touches waiterId (fun v => { v with pending := some entry }) s (s.putBack waiterId entry) :=
  ⟨view_putBack_self s waiterId entry, fun _ => view_putBack_of_ne s entry, rfl, rfl, suffix_rfl⟩

theorem Sound.putBack (h : Sound tidy past s)
    (he : s.pendingRequests.lookup waiterId = some entry) (entry' : PendingControlRequest)
    (hr : entry'.replyOwned = entry.replyOwned) (hk : entry'.readyKey = entry.readyKey) :
    Sound tidy past (s.putBack waiterId entry') :=
  h.touch (touches_putBack s waiterId entry') ((h.waiter waiterId).setEntry he hr hk)
    fun hle => absurd (h.used_of_pending he) (Nat.not_lt.mpr hle)

theorem touches_setObligation (s : ControlState) (waiterId : ℕ) (obligation : CleanupObligation) :
    Touches waiterId (fun v => { v with obligation := some obligation }) s
      { s with budget.obligations := s.budget.obligations.insert waiterId obligation } := by
  refine touches_of_view (fun other => ?_) rfl rfl suffix_rfl
  rcases eq_or_ne other waiterId with rfl | hne <;> simp [view, *]

theorem Sound.setObligation (h : Sound tidy past s)
    (hp : s.pendingRequests.lookup waiterId = none) {obligation : CleanupObligation}
    (ho : s.budget.obligations.lookup waiterId = some obligation)
    (obligation' : CleanupObligation) :
    Sound tidy past
      { s with budget.obligations := s.budget.obligations.insert waiterId obligation' } := by
  have hu : waiterId < s.nextWaiter := h.used fun he =>
    some_ne_none obligation (ho ▸ congrArg View.obligation he)
  have hk := (h.waiter waiterId).kept
    (show (s.budget.obligations.lookup waiterId).isSome from ho ▸ rfl)
  exact h.touch (touches_setObligation s waiterId obligation')
    ((h.waiter waiterId).setObligation hp hk obligation')
    fun hle => absurd hu (Nat.not_lt.mpr hle)

theorem Sound.absorbCoreCompletion (h : Sound tidy past s) (waiterId p : ℕ) :
    Sound tidy past (s.absorbCoreCompletion waiterId p) := by
  unfold ControlState.absorbCoreCompletion
  split
  · next entry he =>
    split
    · exact (h.putBack he { entry with lastCorePhase := p } rfl rfl).markOwnerReady ..
    · exact h
  · next hn =>
    split
    · exact h
    next ho =>
    exact guarded h fun _ => (h.setObligation hn ho _).markObligationReady _ _

theorem touches_storeCompletion (s : ControlState) (waiterId p : ℕ) :
    Touches waiterId (fun v => { v with completion := some p }) s
      { s with hostCompletions := s.hostCompletions.insert waiterId p } := by
  refine touches_of_view (fun other => ?_) rfl rfl suffix_rfl
  rcases eq_or_ne other waiterId with rfl | hne <;> simp [view, *]

section

variable (h : Sound tidy past s)

include h

theorem Sound.absorbHostCompletion (waiterId p : ℕ) :
    Sound tidy past (s.absorbHostCompletion waiterId p) := by
  unfold ControlState.absorbHostCompletion
  split
  · exact h
  next entry he =>
  refine guarded h fun _ => ?_
  have hs : Sound tidy past { s with hostCompletions := s.hostCompletions.insert waiterId p } := by
    refine h.touch (touches_storeCompletion s waiterId p)
      { h.waiter waiterId with completion := fun _ _ => ?_ }
      fun hle => absurd (h.used_of_pending he) (Nat.not_lt.mpr hle)
    show (s.pendingRequests.lookup waiterId).isSome
    rw [he]
    rfl
  exact (hs.putBack he { entry with lastHostPhase := p } rfl rfl).markOwnerReady ..

theorem Sound.popDue {deadlines : DeadlineIndex} {now : ℕ}
    (hd : s.deadlines.popDue waiterId now = some deadlines) :
    Sound tidy past { s with deadlines } := by
  obtain ⟨hs, ho⟩ := lookup_popDue hd
  have ht : Touches waiterId (fun v => { v with deadline := deadlines.states.lookup waiterId }) s
      { s with deadlines } := by
    refine ⟨rfl, fun other hne => ?_, rfl, rfl, suffix_rfl⟩
    unfold view
    rw [ho other hne]
  refine h.touch ht
    { h.waiter waiterId with deadline := fun _ => (h.waiter waiterId).deadline hs } fun hle => ?_
  rw [show s.deadlines.states.lookup waiterId = none from
    congrArg deadline (h.fresh waiterId hle)] at hs
  cases hs

theorem Sound.markDueOwnerDeadline (waiterId now : ℕ) :
    Sound tidy past (s.markDueOwnerDeadline waiterId now) := by
  unfold ControlState.markDueOwnerDeadline
  split
  · exact h
  next hd =>
  have hd := h.popDue hd
  dsimp only
  split
  · next entry he =>
    exact (hd.putBack he { entry with deadlineKey := none } rfl rfl).markOwnerReady ..
  next hn =>
  split
  · next ho =>
    exact (hd.setObligation hn ho _).markObligationReady _ _
  · exact hd

theorem Sound.closeReply (waiterId : ℕ) : Sound tidy past (s.closeReply waiterId) := by
  unfold ControlState.closeReply
  split
  · exact h
  · next entry he =>
    exact h.putBack he { entry with receiverClosed := true } rfl rfl

end

theorem sound_new : Sound tidy [] new where
  waiter := sound_empty
  fresh _ _ := rfl
  running := rfl
  history := suffix_rfl

theorem Sound.act (h : Sound tidy past s) (step : Step) (ht : tidy → s.Tidy step) :
    Sound tidy past (s.act step) := by
  cases step with
  | request client peerLive started now => exact h.handleAs client peerLive started now
  | acceptInternal spawn r deadline now =>
    exact h.acceptInternal spawn r deadline now
  | connect =>
    unfold ControlState.act ControlState.connect
    dsimp only
    split
    · exact h.refuse
    · exact h.congr (fun _ => rfl) rfl rfl rfl
  | connectionCleanup number runtime now =>
    exact guarded h fun _ => h.connectionCleanup number runtime now
  | hello =>
    refine guarded h fun _ => ?_
    unfold admitPeer
    split
    · exact h.refuse
    · exact h.congr (fun _ => rfl) rfl rfl rfl
  | peerClosed removed runtime now => exact h.peerClosed removed runtime now
  | bind _ now =>
    unfold ControlState.act ControlState.bind
    dsimp only
    split
    · exact h
    split
    · exact h.refuse
    · exact h.allocateAndRetain now
  | coreCompletion waiterId phase => exact h.absorbCoreCompletion waiterId phase
  | hostCompletion waiterId phase => exact h.absorbHostCompletion waiterId phase
  | mark waiterId r reason => exact h.markOwnerReady waiterId r reason
  | deadline waiterId now => exact h.markDueOwnerDeadline waiterId now
  | closeReply waiterId => exact h.closeReply waiterId
  | poll _ turn o now => exact h.poll turn o now ht

theorem Sound.step (h : Sound tidy past s) (step : Step) (ht : tidy → s.Tidy step) :
    Sound tidy past (s.step step) := by
  unfold ControlState.step
  rw [h.running]
  exact h.act step ht

def TidyRun (s : ControlState) (steps : List Step) : Prop :=
  Machine.Along (fun s step => some (s.step step)) Tidy s steps

instance (s : ControlState) (steps : List Step) : Decidable (TidyRun s steps) := by
  unfold TidyRun
  infer_instance

theorem Sound.run (h : Sound tidy past s) (steps : List Step) (htidy : tidy → s.TidyRun steps) :
    Sound tidy past (s.run steps) := by
  induction steps generalizing s with
  | nil => exact h
  | cons step _ ih =>
    exact ih (h.step step fun ht => (htidy ht).1) fun ht => (htidy ht).2 _ rfl

/-- Nothing is scheduled for a waiter that is gone: a ready row or a deadline belongs to a pending
request or to an obligation, never to both. What must finish is never retired. -/
theorem run_schedules_live (steps : List Step) (waiterId : ℕ) :
    let v := (new.run steps).view waiterId
    (v.row.isSome ∨ v.deadline.isSome → v.pending.isSome ∨ v.obligation.isSome) ∧
      (v.pending.isSome → v.obligation = none) ∧
      ∀ ended ∈ v.ended, ended.ending.isRetired = true → ended.entry.mustFinish = false := by
  have h := (sound_new.run steps False.elim).waiter waiterId
  refine ⟨fun hs => hs.elim (fun hr => ?_) h.deadline, h.apart, h.retired⟩
  obtain ⟨row, hrow⟩ := isSome_iff_exists.mp hr
  cases ho : ((new.run steps).view waiterId).obligation with
  | some => exact .inr rfl
  | none =>
    obtain ⟨entry, he, -⟩ := (h.row row hrow).2 ho
    exact .inl (isSome_of_mem he)

end ControlState

end BotsterHub.Owner
