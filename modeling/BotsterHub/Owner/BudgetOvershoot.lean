import BotsterHub.Owner.RequestEndings

/-!
How far the owner's budget can be passed.

New work is admitted below the bound. Cleanup is never refused and takes the place of what it
cleans up, except the cleanup of a connection, which has no counted unit to replace: bounded is
the load with the live connections.
-/

namespace BotsterHub.Owner

open Machine List AList Finset DeadlineIndex ControlState

namespace ControlState

variable {s s' s'' : ControlState} {waiterId n m : ℕ} {entry : PendingControlRequest}

structure Costs (n : ℕ) (s s' : ControlState) : Prop where
  load : s'.load ≤ s.load + n
  live : s'.liveConnections = s.liveConnections
  bound : s'.budget.bound = s.budget.bound
  refused : s'.budget.counters.refused = s.budget.counters.refused

structure Spends (n : ℕ) (s s' : ControlState) : Prop extends Costs n s s' where
  obligations : ∀ waiterId, (s.budget.obligations.lookup waiterId).isSome →
    (s'.budget.obligations.lookup waiterId).isSome

theorem Spends.refl (s : ControlState) : Spends 0 s s := ⟨⟨le_rfl, rfl, rfl, rfl⟩, fun _ => id⟩

theorem Costs.trans (h : Costs n s s') (h' : Costs m s' s'') : Costs (n + m) s s'' where
  load := by have := h.load; have := h'.load; omega
  live := h'.live.trans h.live
  bound := h'.bound.trans h.bound
  refused := h'.refused.trans h.refused

theorem Spends.trans (h : Spends n s s') (h' : Spends m s' s'') : Spends (n + m) s s'' :=
  ⟨h.toCosts.trans h'.toCosts, fun waiterId hs => h'.obligations waiterId
    (h.obligations waiterId hs)⟩

theorem Spends.mono (h : Spends n s s') (hle : n ≤ m) : Spends m s s' :=
  { h with load := h.load.trans (Nat.add_le_add_left hle _) }

theorem Spends.foldl {α : Type*} {f : ControlState → α → ControlState}
    (hs : ∀ s a, Spends 0 s (f s a)) (s : ControlState) (as : List α) :
    Spends 0 s (as.foldl f s) :=
  foldlRecOn as f (.refl s) fun s' h a _ => h.trans (hs s' a)

def budgeted (s : ControlState) :=
  (s.pendingRequests, s.liveConnections, s.budget.obligations, s.budget.admittedPeers,
    s.budget.bound, s.budget.counters.refused)

theorem Spends.of_eq (h : s'.budgeted = s.budgeted) : Spends 0 s s' := by
  simp only [budgeted, Prod.mk.injEq] at h
  obtain ⟨hp, hl, ho, hpeers, hb, hr⟩ := h
  refine ⟨⟨?_, hl, hb, hr⟩, fun waiterId hs => ho ▸ hs⟩
  unfold load
  rw [hp, ho, hpeers, Nat.add_zero]

theorem count_insert_le {κ ν : Type*} [DecidableEq κ] (d : Dict κ ν) (k : κ) (v : ν) :
    (d.insert k v).total (fun _ => 1) ≤ d.total (fun _ => 1) + 1 := by
  rw [total_insert_eq, Nat.add_comm]
  refine Nat.add_le_add_right ?_ 1
  cases hk : d.lookup k with
  | none => exact (total_erase_of_none d _ hk).le
  | some =>
    rw [total_erase d _ hk]
    exact Nat.le_add_left _ _

theorem count_insert_of_some {κ ν : Type*} [DecidableEq κ] (d : Dict κ ν) {k : κ} {w : ν} (v : ν)
    (hk : d.lookup k = some w) : (d.insert k v).total (fun _ => 1) = d.total (fun _ => 1) :=
  Nat.add_right_cancel (total_insert_of_some d (fun _ => 1) v hk)

theorem spends_putBack (s : ControlState) (waiterId : ℕ) (entry : PendingControlRequest) :
    Spends 1 s (s.putBack waiterId entry) := by
  refine ⟨⟨?_, rfl, rfl, rfl⟩, fun _ => id⟩
  have := count_insert_le s.pendingRequests waiterId entry
  unfold load putBack
  dsimp only
  omega

theorem spends_replace (he : s.pendingRequests.lookup waiterId = some entry)
    (entry' : PendingControlRequest) : Spends 0 s (s.putBack waiterId entry') := by
  refine ⟨⟨?_, rfl, rfl, rfl⟩, fun _ => id⟩
  unfold load putBack
  rw [count_insert_of_some s.pendingRequests entry' he, Nat.add_zero]

theorem load_takeOut (he : s.pendingRequests.lookup waiterId = some entry) :
    { s with pendingRequests := s.pendingRequests.erase waiterId }.load + 1 =
      s.load := by
  have := total_erase s.pendingRequests (fun _ => 1) he
  unfold load
  dsimp only
  omega

theorem isSome_setObligation {m : Dict ℕ CleanupObligation} {o : CleanupObligation}
    (hs : (m.lookup other).isSome) : ((m.insert waiterId o).lookup other).isSome := by
  rw [lookup_insert_eq]
  split
  · rfl
  · exact hs

theorem spends_setObligation {obligation : CleanupObligation}
    (ho : s.budget.obligations.lookup waiterId = some obligation)
    (obligation' : CleanupObligation) :
    Spends 0 s
      { s with budget.obligations := s.budget.obligations.insert waiterId obligation' } := by
  refine ⟨⟨?_, rfl, rfl, rfl⟩, fun _ => isSome_setObligation⟩
  unfold load
  rw [count_insert_of_some s.budget.obligations obligation' ho, Nat.add_zero]

theorem spends_addObligation (s : ControlState) (waiterId : ℕ) (o : CleanupObligation) : Spends 1 s
      { s with budget.obligations := s.budget.obligations.insert waiterId o } := by
  refine ⟨⟨?_, rfl, rfl, rfl⟩, fun _ => isSome_setObligation⟩
  have := count_insert_le s.budget.obligations waiterId o
  unfold load
  dsimp only
  omega

section

variable (s)

theorem spends_markOwnerReady (waiterId : ℕ) (r : ReadyClass)
    (reason : ReadyReason) : Spends 0 s (s.markOwnerReady waiterId r reason) := by
  unfold markOwnerReady
  split
  · exact .refl s
  next entry he =>
  have hr := spends_replace he
    { entry with readyKey := some (s.ownerReady.mark waiterId r {reason}).1 }
  exact ⟨⟨hr.load, rfl, rfl, rfl⟩, hr.obligations⟩

theorem spends_wakeShutdownWaiter : Spends 0 s s.wakeShutdownWaiter := by
  unfold wakeShutdownWaiter
  split
  · exact spends_markOwnerReady s ..
  · exact .refl s

theorem spends_markObligationReady (waiterId : ℕ) (r : ReadyReason) :
    Spends 0 s (s.markObligationReady waiterId r) := by
  unfold markObligationReady
  split
  · exact .refl s
  next o ho =>
  have hs := spends_setObligation ho
    { o with readyKey := some (s.ownerReady.mark waiterId .cleanup {r}).1 }
  exact ⟨⟨hs.load, rfl, rfl, rfl⟩, hs.obligations⟩

theorem spends_retainOwnerObligation (waiterId now : ℕ) :
    Spends 1 s (s.retainOwnerObligation waiterId now) := by
  unfold retainOwnerObligation
  split
  · have hh : Spends 0 s { s with halted := true } := Spends.of_eq rfl
    exact hh.mono (Nat.zero_le 1)
  next deadlines _ =>
  have ha := spends_addObligation { s with deadlines } waiterId
    ⟨none, some (now + retainedOperationDeadline), 0, false⟩
  have hs : Spends 0 s { s with deadlines } := Spends.of_eq rfl
  exact (hs.trans ha).trans (spends_markObligationReady ..)

theorem spends_allocateAndRetain (now : ℕ) : Spends 1 s (s.allocateAndRetain now) := by
  have ha : Spends 0 s { s with nextWaiter := s.nextWaiter + 1 } := Spends.of_eq rfl
  exact ha.trans (spends_retainOwnerObligation _ _ now)

end

section

variable (s) (waiterId)

theorem spends_runHook (hook : Option RetireHook) (now : ℕ) :
    Spends 1 s (s.runHook waiterId hook now) := by
  have hr : Spends 0 s { s with hooks := waiterId :: s.hooks } := Spends.of_eq rfl
  unfold runHook
  split
  · exact (Spends.refl s).mono (Nat.zero_le 1)
  · exact hr.mono (Nat.zero_le 1)
  · exact hr.trans (spends_retainOwnerObligation _ waiterId now)

section

variable (entry)

theorem spends_retire
    (r : RetireReason) (now : ℕ) : Spends 1 s (s.retire waiterId entry r now) := by
  have hr : Spends 0 s (s.retired waiterId entry r) := Spends.of_eq rfl
  exact (hr.trans (spends_runHook _ waiterId entry.retire now)).trans (spends_wakeShutdownWaiter _)

theorem spends_countPastDeadline : Spends 0 s (s.countPastDeadline entry) := by
  unfold countPastDeadline
  split
  · exact .refl s
  · exact Spends.of_eq rfl

section

variable (reasons : Finset ReadyReason)

theorem spends_keepRequest (a : Bool) (now : ℕ) :
    Spends 1 s (s.keepRequest waiterId entry reasons a now) := by
  have hp : ∀ (s : ControlState) (entry : PendingControlRequest),
      Spends 1 s (s.putBackReady waiterId entry a) := by
    intro s entry
    unfold putBackReady
    split
    · exact (spends_putBack s waiterId entry).trans (spends_markOwnerReady ..)
    · exact spends_putBack s waiterId entry
  unfold keepRequest
  split
  · split
    · exact (spends_countPastDeadline s entry).trans (hp _ _)
    · exact spends_retire s waiterId entry .deadline now
  · exact hp s entry

theorem spends_endRequest (e : Ending) : Spends 0 s (s.endRequest waiterId entry reasons e) := by
  unfold endRequest
  dsimp only
  split
  · refine (spends_countPastDeadline s entry).trans (m := 0) ?_
    exact Spends.of_eq rfl
  · exact Spends.of_eq rfl

theorem spends_handReply : Spends 0 s (s.handReply waiterId entry) := by
  unfold handReply
  split
  · exact Spends.of_eq rfl
  · exact .refl s

theorem spends_takeCompletion :
    Spends 0 s { s with hostCompletions := s.hostCompletions.erase waiterId } :=
  Spends.of_eq rfl

theorem spends_finishStatusDelivery (shutdown : Bool) :
    Spends 0 s (s.finishStatusDelivery shutdown) := by
  unfold finishStatusDelivery
  split
  · exact Spends.of_eq rfl
  · exact spends_wakeShutdownWaiter s

theorem spends_applyPoll (a : ControlPoll) (now : ℕ) :
    Spends 1 s (s.applyPoll waiterId entry reasons a now) := by
  have hh := (spends_handReply s waiterId entry).trans
    (spends_keepRequest _ waiterId entry.withoutReply reasons false now)
  cases a with
  | pending | submitPluginHost => exact spends_keepRequest s waiterId entry reasons false now
  | again => exact spends_keepRequest s waiterId entry reasons true now
  | ready staleAttach =>
    have hs : Spends 1 s (if staleAttach then s.allocateAndRetain now else s) := by
      split
      · exact spends_allocateAndRetain s now
      · exact (Spends.refl s).mono (Nat.zero_le 1)
    exact (((hs.trans (spends_takeCompletion _ waiterId)).trans
      (spends_handReply _ waiterId entry)).trans (spends_endRequest ..)).trans
        (spends_wakeShutdownWaiter _)
  | finishedInternal =>
    exact (((spends_takeCompletion s waiterId).trans (spends_endRequest ..)).trans
      (spends_wakeShutdownWaiter _)).mono (Nat.zero_le 1)
  | deliverStatusResponse submitted =>
    cases submitted with
    | true => exact hh
    | false => exact spends_keepRequest s waiterId entry reasons true now
  | statusResponseRefused shutdown =>
    exact (((spends_handReply s waiterId entry).trans (spends_endRequest ..)).trans
      (spends_finishStatusDelivery _ shutdown)).mono (Nat.zero_le 1)
  | statusResponseDelivered shutdown =>
    exact ((spends_endRequest s waiterId entry reasons .status).trans
      (spends_finishStatusDelivery _ shutdown)).mono (Nat.zero_le 1)
  | preparePluginResponse | deliverSessionType => exact hh

theorem spends_runContinuation (turn : ContinuationTurn) :
    Spends 0 s (s.runContinuation waiterId turn) := by
  refine Spends.trans ?_ (Spends.foldl (fun s wake =>
    spends_markOwnerReady s wake.1 wake.2.1 wake.2.2) _ turn.wakes)
  exact Spends.of_eq rfl

theorem spends_pollReadyRequestItem (turn : ContinuationTurn)
    (now : ℕ) : Spends 1 s (s.pollReadyRequestItem waiterId entry reasons turn now) := by
  unfold pollReadyRequestItem
  split
  · exact spends_retire s waiterId entry .replyClosed now
  split
  · exact spends_keepRequest s waiterId entry reasons false now
  · exact (spends_runContinuation s waiterId turn).trans
      (spends_applyPoll _ waiterId entry reasons turn.answer now)

end

end

end

theorem spends_request (he : s.pendingRequests.lookup waiterId = some entry)
    (h : Spends 1 { s with pendingRequests := s.pendingRequests.erase waiterId } s') :
    Spends 0 s s' := by
  refine ⟨⟨?_, h.live, h.bound, h.refused⟩, h.obligations⟩
  have := load_takeOut he
  have := h.load
  omega

theorem spends_retireOne (s : ControlState) (now waiterId : ℕ) :
    Spends 0 s (s.retireOne now waiterId) := by
  unfold retireOne
  split
  · exact .refl s
  · next entry he =>
    exact spends_request he (spends_retire _ waiterId entry .clientLeft now)

theorem spends_retireAbandonedRequests (s : ControlState) (c : Client) (now : ℕ) :
    Spends 0 s (s.retireAbandonedRequests c now) :=
  Spends.foldl (fun s => spends_retireOne s now) s _

theorem spends_releasePeer (r : Bool) (now : ℕ) (s : ControlState) (g : String) :
    Spends 0 s (s.releasePeer r now g) := by
  refine guarded (.refl s) fun hm => ?_
  have hr := spends_allocateAndRetain (s.withoutPeer g) now
  have hl : (s.withoutPeer g).load + 1 = s.load := by
    have := card_erase_add_one hm
    unfold load withoutPeer
    dsimp only
    omega
  split
  · refine ⟨⟨?_, hr.live, hr.bound, hr.refused⟩, hr.obligations⟩
    have := hr.load
    omega
  · exact ⟨⟨by omega, rfl, rfl, rfl⟩, fun _ => id⟩

theorem spends_peerClosed (s : ControlState) (removed : List String) (r : Bool)
    (now : ℕ) : Spends 0 s (s.peerClosed removed r now) :=
  (Spends.foldl (fun s g => spends_retireAbandonedRequests s (.grant g) now) s
    removed).trans (Spends.foldl (spends_releasePeer r now) _ _)

theorem spends_connectionCleanup (s : ControlState) (number : ℕ) (r : Bool) (now : ℕ) :
    Spends 1 { s with liveConnections := s.liveConnections.erase number }
      (s.connectionCleanup number r now) := by
  have hr := spends_retireAbandonedRequests
    { s with liveConnections := s.liveConnections.erase number } (.connection number) now
  unfold connectionCleanup
  split
  · exact hr.trans (spends_allocateAndRetain _ now)
  · exact hr.mono (Nat.zero_le 1)

theorem spends_pollRequest (he : s.pendingRequests.lookup waiterId = some entry)
    (reasons : Finset ReadyReason) (turn : ContinuationTurn) (now : ℕ) :
    Spends 0 s
      (({ s with
        ownerReady := s.ownerReady.pop waiterId
        pendingRequests := s.pendingRequests.erase waiterId } :
        ControlState).pollReadyRequestItem waiterId { entry with readyKey := none } reasons turn
          now) := by
  have hp := spends_pollReadyRequestItem
    { s with
      ownerReady := s.ownerReady.pop waiterId
      pendingRequests := s.pendingRequests.erase waiterId } waiterId
    { entry with readyKey := none } reasons turn now
  exact spends_request he ⟨⟨hp.load, hp.live, hp.bound, hp.refused⟩, hp.obligations⟩

theorem costs_pollOwnerObligationItem
    (hretained : s.budget.obligations.lookup waiterId = some retained)
    (obligation : CleanupObligation) (reasons : Finset ReadyReason) (result : ObligationPoll) :
    Costs 0 s
      (({ s with
        ownerReady := s.ownerReady.pop waiterId
        budget.obligations := s.budget.obligations.erase waiterId } :
        ControlState).pollOwnerObligationItem waiterId obligation reasons result) := by
  have he := total_erase s.budget.obligations (fun _ => 1) hretained
  have hp : ∀ (obligation : CleanupObligation) (ownerReady : ReadyQueues ReadyReason)
      (counters : OwnerBudgetCounters), counters.refused = s.budget.counters.refused → Costs 0 s
        { s with
          ownerReady := ownerReady
          budget.counters := counters
          budget.obligations := (s.budget.obligations.erase waiterId).insert waiterId
            obligation } := by
    intro obligation ownerReady counters hr
    refine ⟨?_, rfl, rfl, hr⟩
    have := count_insert_le (s.budget.obligations.erase waiterId) waiterId obligation
    unfold load
    dsimp only
    omega
  have hd : ∀ (deadlines : DeadlineIndex) (ownerReady : ReadyQueues ReadyReason)
      (counters : OwnerBudgetCounters), counters.refused = s.budget.counters.refused → Costs 0 s
        { s with
          ownerReady := ownerReady
          deadlines := deadlines
          budget.counters := counters
          budget.obligations := s.budget.obligations.erase waiterId } := by
    intro deadlines ownerReady counters hr
    refine ⟨?_, rfl, rfl, hr⟩
    unfold load
    dsimp only
    omega
  unfold pollOwnerObligationItem
  by_cases hl : ReadyReason.deadline ∈ reasons ∧ obligation.pastDeadline = false
  · simp only [if_pos hl]
    cases result with
    | pending => exact hp _ _ _ rfl
    | readyAgain =>
      refine Costs.trans (hp _ _ _ ?_) (spends_markObligationReady _ waiterId .initial).toCosts
      rfl
    | done => exact hd _ _ _ rfl
  · simp only [if_neg hl]
    cases result with
    | pending => exact hp obligation _ s.budget.counters rfl
    | readyAgain =>
      refine (hp obligation (s.ownerReady.pop waiterId) s.budget.counters rfl).trans (m := 0) ?_
      exact (spends_markObligationReady _ waiterId .initial).toCosts
    | done => exact hd _ _ s.budget.counters rfl

section

variable (s)

theorem costs_poll (waiterId : ℕ) (turn : ContinuationTurn)
    (obligation : ObligationPoll) (now : ℕ) : Costs 0 s (s.poll waiterId turn obligation now) := by
  unfold poll
  split
  · exact (Spends.refl s).toCosts
  dsimp only
  split
  · next he => exact (spends_pollRequest he _ turn now).toCosts
  split
  · next hr => exact costs_pollOwnerObligationItem hr _ _ _
  · exact Spends.toCosts (Spends.of_eq rfl)

theorem spends_insertRequest (waiterId : ℕ) (entry : PendingControlRequest)
    (deadline : Option ℕ) (readyClass : ReadyClass) (now : ℕ) :
    Spends 1 s (s.insertRequest waiterId entry deadline readyClass now) := by
  have ha : ∀ deadlines halted, Spends 1 s
      { s with
        pendingRequests := s.pendingRequests.insert waiterId { entry with deadlineKey := deadline }
        admitted := waiterId :: s.admitted
        deadlines
        halted } := by
    intro deadlines halted
    have hp := spends_putBack s waiterId { entry with deadlineKey := deadline }
    exact ⟨⟨hp.load, rfl, rfl, rfl⟩, hp.obligations⟩
  unfold insertRequest
  cases deadline with
  | none => exact (ha s.deadlines s.halted).trans (spends_markOwnerReady _ _ _ _)
  | some =>
    dsimp only
    split
    · exact ha s.deadlines true
    next deadlines _ =>
    have hm := (ha deadlines s.halted).trans (spends_markOwnerReady _ waiterId readyClass .initial)
    split
    · exact hm.trans (spends_markOwnerReady ..)
    · exact hm

theorem spends_absorbCoreCompletion (waiterId p : ℕ) :
    Spends 0 s (s.absorbCoreCompletion waiterId p) := by
  unfold absorbCoreCompletion
  split
  · next he =>
    split
    · exact (spends_replace he _).trans (spends_markOwnerReady ..)
    · exact .refl s
  · split
    · exact .refl s
    next ho =>
    split
    · exact (spends_setObligation ho _).trans (spends_markObligationReady ..)
    · exact .refl s

theorem spends_absorbHostCompletion (waiterId p : ℕ) :
    Spends 0 s (s.absorbHostCompletion waiterId p) := by
  unfold absorbHostCompletion
  split
  · exact .refl s
  next entry he =>
  split
  · have hs : Spends 0 s { s with hostCompletions := s.hostCompletions.insert waiterId p } :=
      Spends.of_eq rfl
    have hr := spends_replace
      (s := { s with hostCompletions := s.hostCompletions.insert waiterId p }) he
      { entry with lastHostPhase := p }
    exact (hs.trans hr).trans (spends_markOwnerReady ..)
  · exact .refl s

theorem spends_markDueOwnerDeadline (waiterId now : ℕ) :
    Spends 0 s (s.markDueOwnerDeadline waiterId now) := by
  unfold markDueOwnerDeadline
  split
  · exact .refl s
  next deadlines _ =>
  have hs : Spends 0 s { s with deadlines } := Spends.of_eq rfl
  dsimp only
  split
  · next entry he =>
    have hr := spends_replace (s := { s with deadlines }) he { entry with deadlineKey := none }
    exact (hs.trans hr).trans (spends_markOwnerReady ..)
  · split
    · next obligation ho =>
      have hr := spends_setObligation (s := { s with deadlines }) ho
        { obligation with deadlineKey := none }
      exact (hs.trans hr).trans (spends_markObligationReady ..)
    · exact hs

theorem spends_closeReply (waiterId : ℕ) : Spends 0 s (s.closeReply waiterId) := by
  unfold closeReply
  split
  · exact .refl s
  · next he => exact spends_replace he _

end

def weight (s : ControlState) : ℕ := s.load + s.liveConnections.card

structure Bounded (s s' : ControlState) : Prop where
  bound : s'.budget.bound = s.budget.bound
  weight : s'.weight ≤ s.weight ∨ s'.load ≤ s.budget.bound

theorem Costs.bounded (h : Costs 0 s s') : Bounded s s' := by
  refine ⟨h.bound, .inl ?_⟩
  unfold weight
  rw [h.live]
  exact Nat.add_le_add_right h.load _

theorem Spends.admitted (h : Spends 1 s s') (hr : ¬s.hasRoom = false) : Bounded s s' := by
  refine ⟨h.bound, .inr ?_⟩
  have hlt : s.load < s.budget.bound := of_decide_eq_true (Bool.eq_true_of_not_eq_false hr)
  exact h.load.trans hlt

section

variable (s)

theorem bounded_refuse : Bounded s s.refuse := ⟨rfl, Or.inl le_rfl⟩

theorem bounded_refl : Bounded s s := (Spends.refl s).bounded

theorem bounded_handleAs (c : Option Client) (p : Bool)
    (started : Option StartedRequest) (now : ℕ) :
    Bounded s (s.handleAs c p started now) := by
  unfold handleAs
  split
  · exact bounded_refl s
  split
  · exact bounded_refl s
  split
  · exact bounded_refuse s
  next hr =>
    refine Spends.admitted ?_ hr
    have ha : ∀ shutdownWaiter,
        Spends 0 s { s with nextWaiter := s.nextWaiter + 1, shutdownWaiter } :=
      fun _ => Spends.of_eq rfl
    split
    · exact (ha s.shutdownWaiter).mono (Nat.zero_le 1)
    split
    · exact (ha (some s.nextWaiter)).trans (spends_insertRequest ..)
    · exact (ha s.shutdownWaiter).trans (spends_insertRequest ..)

theorem bounded_acceptInternal (spawn : Bool) (r : ReadyClass) (d : Option ℕ) (now : ℕ) :
    Bounded s (s.acceptInternal spawn r d now) := by
  unfold acceptInternal
  split
  · exact bounded_refuse s
  next hr =>
  have ha : Spends 0 s { s with nextWaiter := s.nextWaiter + 1 } := Spends.of_eq rfl
  exact (ha.trans (spends_insertRequest ..)).admitted hr

theorem bounded_connect : Bounded s s.connect := by
  unfold connect
  split
  · exact bounded_refuse s
  next hr =>
  have hlt : s.load < s.budget.bound := of_decide_eq_true (Bool.eq_true_of_not_eq_false hr)
  exact ⟨rfl, .inr hlt.le⟩

end

theorem bounded_connectionCleanup (hl : number ∈ s.liveConnections)
    (r : Bool) (now : ℕ) : Bounded s (s.connectionCleanup number r now) := by
  have hc := spends_connectionCleanup s number r now
  refine ⟨hc.bound, .inl ?_⟩
  have hload : (s.connectionCleanup number r now).load ≤ s.load + 1 := hc.load
  have hcard := card_erase_add_one hl
  unfold weight
  rw [hc.live]
  dsimp only
  omega

theorem bounded_admitPeer (s : ControlState) (g : String) : Bounded s (s.admitPeer g) := by
  unfold admitPeer
  split
  · exact bounded_refuse s
  next hr =>
  refine Spends.admitted ⟨⟨?_, rfl, rfl, rfl⟩, fun _ => id⟩ hr
  have := card_insert_le g s.budget.admittedPeers
  unfold load
  dsimp only
  omega

theorem bounded_act (s : ControlState) (step : Step) : Bounded s (s.act step) := by
  cases step with
  | request client peerLive started now => exact bounded_handleAs s client peerLive started now
  | acceptInternal spawn r deadline now =>
    exact bounded_acceptInternal s spawn r deadline now
  | connect => exact bounded_connect s
  | connectionCleanup _ runtime now =>
    exact guarded (bounded_refl s) fun hl => bounded_connectionCleanup hl runtime now
  | hello grantId => exact guarded (bounded_refl s) fun _ => bounded_admitPeer s grantId
  | peerClosed removed runtime now =>
    exact (spends_peerClosed s removed runtime now).toCosts.bounded
  | bind _ now =>
    unfold act bind
    dsimp only
    split
    · exact bounded_refl s
    split
    · exact bounded_refuse s
    · next hr => exact (spends_allocateAndRetain s now).admitted hr
  | coreCompletion waiterId phase => exact (spends_absorbCoreCompletion s waiterId phase).bounded
  | hostCompletion waiterId phase => exact (spends_absorbHostCompletion s waiterId phase).bounded
  | mark waiterId r reason =>
    exact (spends_markOwnerReady s waiterId r reason).bounded
  | deadline waiterId now => exact (spends_markDueOwnerDeadline s waiterId now).bounded
  | closeReply waiterId => exact (spends_closeReply s waiterId).bounded
  | poll waiterId turn o now => exact (costs_poll s waiterId turn o now).bounded

/-- A step that raises the weight leaves the load within the bound. -/
theorem bounded_step (s : ControlState) (step : Step) : Bounded s (s.step step) := by
  unfold ControlState.step
  split
  · exact bounded_refl s
  · exact bounded_act s step

def LiveRun (limit : ℕ) (s : ControlState) (steps : List Step) : Prop :=
  Machine.Along (fun s step => some (s.step step))
    (fun s step => (s.step step).liveConnections.card ≤ limit) s steps

instance (limit : ℕ) (s : ControlState) (steps : List Step) :
    Decidable (LiveRun limit s steps) := by
  unfold LiveRun
  infer_instance

theorem run_weight (steps : List Step) (hl : LiveRun l s steps)
    (h : s.weight ≤ s.budget.bound + l) :
    (s.run steps).weight ≤ s.budget.bound + l := by
  induction steps generalizing s with
  | nil => exact h
  | cons step _ ih =>
    obtain ⟨hc, hr⟩ := hl
    obtain ⟨hb, hw⟩ := bounded_step s step
    rw [← hb] at h ⊢
    refine ih (hr _ rfl) ?_
    rcases hw with hle | ha
    · exact hle.trans h
    rw [hb]
    exact Nat.add_le_add ha hc

theorem isSome_retainOwnerObligation (hd : s.deadlines.states.lookup waiterId = none) (now : ℕ) :
    ((s.retainOwnerObligation waiterId now).budget.obligations.lookup waiterId).isSome := by
  unfold retainOwnerObligation
  rw [arm_of_none hd]
  refine (spends_markObligationReady _ waiterId .initial).obligations waiterId ?_
  rw [lookup_insert_eq, if_pos rfl]
  rfl

theorem isSome_allocateAndRetain (h : Sound tidy past s) (now : ℕ) :
    ((s.allocateAndRetain now).budget.obligations.lookup s.nextWaiter).isSome :=
  isSome_retainOwnerObligation (s := { s with nextWaiter := s.nextWaiter + 1 })
    (congrArg View.deadline (h.fresh s.nextWaiter le_rfl)) now

structure Steady (s s' : ControlState) : Prop where
  nextWaiter : s'.nextWaiter = s.nextWaiter
  peers : s'.budget.admittedPeers = s.budget.admittedPeers

theorem Steady.refl (s : ControlState) : Steady s s := ⟨rfl, rfl⟩

theorem Steady.trans (h : Steady s s') (h' : Steady s' s'') : Steady s s'' :=
  ⟨h'.nextWaiter.trans h.nextWaiter, h'.peers.trans h.peers⟩

theorem Steady.foldl {α : Type*} {f : ControlState → α → ControlState}
    (hs : ∀ s a, Steady s (f s a)) (s : ControlState) (as : List α) :
    Steady s (as.foldl f s) :=
  foldlRecOn as f (.refl s) fun s' h a _ => h.trans (hs s' a)

section

variable (s)

theorem steady_markOwnerReady (waiterId : ℕ) (r : ReadyClass)
    (reason : ReadyReason) : Steady s (s.markOwnerReady waiterId r reason) := by
  obtain ⟨_, _, hm⟩ := s.markOwnerReady_eq waiterId r reason
  rw [hm]
  exact ⟨rfl, rfl⟩

theorem steady_retainOwnerObligation (waiterId now : ℕ) :
    Steady s (s.retainOwnerObligation waiterId now) := by
  obtain ⟨_, _, _, _, hr⟩ := s.retainOwnerObligation_eq waiterId now
  rw [hr]
  exact ⟨rfl, rfl⟩

theorem steady_retireOne (now waiterId : ℕ) : Steady s (s.retireOne now waiterId) := by
  unfold retireOne
  split
  · exact .refl s
  next entry _ =>
  obtain ⟨_, _, _, _, _, _, hr⟩ := retire_eq
    { s with pendingRequests := s.pendingRequests.erase waiterId } waiterId entry .clientLeft now
  rw [hr]
  exact ⟨rfl, rfl⟩

theorem steady_retireAbandonedRequests (c : Client) (now : ℕ) :
    Steady s (s.retireAbandonedRequests c now) :=
  Steady.foldl (fun s => steady_retireOne s now) s _

theorem steady_runContinuation (waiterId : ℕ) (turn : ContinuationTurn) :
    Steady s (s.runContinuation waiterId turn) := by
  refine Steady.trans ?_ (Steady.foldl (fun s wake =>
    steady_markOwnerReady s wake.1 wake.2.1 wake.2.2) _ turn.wakes)
  exact ⟨rfl, rfl⟩

end

section

variable {tidy : Prop} {past : List Ended}

theorem isSome_connectionCleanup (h : Sound tidy past s) (number now : ℕ) :
    ((s.connectionCleanup number true now).budget.obligations.lookup s.nextWaiter).isSome := by
  have hc : Sound tidy past { s with liveConnections := s.liveConnections.erase number } :=
    h.congr (fun _ => rfl) rfl rfl rfl
  have hsteady := steady_retireAbandonedRequests
    { s with liveConnections := s.liveConnections.erase number } (.connection number) now
  have hs := isSome_allocateAndRetain (hc.retireAbandonedRequests (.connection number) now) now
  rw [hsteady.nextWaiter] at hs
  exact hs

theorem isSome_releasePeers (h : Sound tidy past s) (now : ℕ) (grants : List String) :
    (grants.foldl (releasePeer true now) s).nextWaiter =
        s.nextWaiter + (grants.toFinset ∩ s.budget.admittedPeers).card ∧
      ∀ waiterId, s.nextWaiter ≤ waiterId →
        waiterId < (grants.foldl (releasePeer true now) s).nextWaiter →
        ((grants.foldl (releasePeer true now) s).budget.obligations.lookup waiterId).isSome := by
  induction grants generalizing s with
  | nil => exact ⟨rfl, fun _ hle hlt => absurd hlt (Nat.not_lt.mpr hle)⟩
  | cons g grants ih =>
    rw [foldl_cons, toFinset_cons]
    by_cases hm : g ∈ s.budget.admittedPeers
    · have hr : s.releasePeer true now g = (s.withoutPeer g).allocateAndRetain now := by
        unfold releasePeer
        rw [if_pos hm]
        rfl
      have hsound := h.releasePeer true now g
      rw [hr] at hsound ⊢
      obtain ⟨hn, ho⟩ := ih hsound
      have hs : Steady { s.withoutPeer g with nextWaiter := s.nextWaiter + 1 }
          ((s.withoutPeer g).allocateAndRetain now) := steady_retainOwnerObligation ..
      rw [hs.nextWaiter, hs.peers] at hn
      rw [hs.nextWaiter] at ho
      have hc : (insert g grants.toFinset ∩ s.budget.admittedPeers).card =
          1 + (grants.toFinset ∩ s.budget.admittedPeers.erase g).card := by
        rw [insert_inter_of_mem hm, inter_erase, ← card_erase_add_one
          (mem_insert_self g (grants.toFinset ∩ s.budget.admittedPeers)),
          erase_insert_eq_erase, Nat.add_comm]
      refine ⟨by rw [hn, hc]; exact Nat.add_assoc .., fun waiterId hle hlt => ?_⟩
      rcases Nat.eq_or_lt_of_le hle with heq | hlt'
      · refine (Spends.foldl (spends_releasePeer true now) _ grants).obligations waiterId ?_
        rw [← heq]
        exact isSome_allocateAndRetain (s := s.withoutPeer g)
          (h.congr (fun _ => rfl) rfl rfl rfl) now
      · exact ho waiterId hlt' hlt
    · have hr : s.releasePeer true now g = s := by
        unfold releasePeer
        rw [if_neg hm]
      rw [hr, insert_inter_of_notMem hm]
      exact ih h

theorem isSome_peerClosed (h : Sound tidy past s) (r : List String) (now : ℕ) :
    (s.peerClosed r true now).nextWaiter =
        s.nextWaiter + (r.toFinset ∩ s.budget.admittedPeers).card ∧
      ∀ waiterId, s.nextWaiter ≤ waiterId → waiterId < (s.peerClosed r true now).nextWaiter →
        ((s.peerClosed r true now).budget.obligations.lookup waiterId).isSome := by
  have hs := Steady.foldl (fun s g => steady_retireAbandonedRequests s (.grant g) now) s r
  have hsound := Sound.foldl (fun h g => h.retireAbandonedRequests (.grant g) now) h r
  have hr := isSome_releasePeers hsound now (r.filter (· ∈ s.budget.admittedPeers))
  have hsame : (r.filter (· ∈ s.budget.admittedPeers)).toFinset ∩ s.budget.admittedPeers =
      r.toFinset ∩ s.budget.admittedPeers := by
    ext g
    simp
  rw [hs.nextWaiter, hs.peers, hsame] at hr
  exact hr

theorem isSome_applyPoll_stale (h : Away tidy past s waiterId entry)
    (reasons : Finset ReadyReason) (now : ℕ) :
    ((s.applyPoll waiterId entry reasons (.ready true) now).budget.obligations.lookup
      s.nextWaiter).isSome := by
  have hne : s.nextWaiter ≠ waiterId := (Nat.ne_of_lt h.used).symm
  have he : s.view s.nextWaiter = .empty := by
    rw [← view_putBack_of_ne s entry hne]
    exact h.sound.fresh s.nextWaiter le_rfl
  have hr : ((s.allocateAndRetain now).budget.obligations.lookup s.nextWaiter).isSome :=
    isSome_retainOwnerObligation (s := { s with nextWaiter := s.nextWaiter + 1 })
      (congrArg View.deadline he) now
  have hrest := (((spends_takeCompletion (s.allocateAndRetain now) waiterId).trans
    (spends_handReply _ waiterId entry)).trans
      (spends_endRequest _ waiterId entry.withoutReply reasons .reply)).trans
        (spends_wakeShutdownWaiter _)
  exact hrest.obligations s.nextWaiter hr

theorem isSome_staleAttach (h : Sound tidy past s)
    (hrow : s.ownerReady.queued.lookup waiterId = some row)
    (he : s.pendingRequests.lookup waiterId = some entry)
    (ho : ¬(entry.mustFinish = false ∧ entry.isReceiverClosed = true))
    (hr : ¬row.reasons ⊆ {.deadline})
    (ha : turn.answer = .ready true) (o : ObligationPoll) (now : ℕ) :
    ((s.poll waiterId turn o now).budget.obligations.lookup s.nextWaiter).isSome := by
  have hs := isSome_applyPoll_stale ((h.serve he).runContinuation turn) row.reasons now
  rw [(steady_runContinuation _ waiterId turn).nextWaiter, ← ha] at hs
  unfold poll
  rw [hrow]
  dsimp only
  rw [he]
  unfold pollReadyRequestItem
  dsimp only
  rw [if_neg hr]
  split
  · next hc => exact absurd hc ho
  · exact hs

theorem isSome_retire (s : ControlState) (waiterId : ℕ)
    (hr : entry.retire = some .retainOperation) (r : RetireReason) (now : ℕ) :
    ((s.retire waiterId entry r now).budget.obligations.lookup waiterId).isSome := by
  refine (spends_wakeShutdownWaiter _).obligations waiterId ?_
  rw [hr]
  refine isSome_retainOwnerObligation ?_ now
  show (s.deadlines.retire waiterId).states.lookup waiterId = none
  rw [lookup_retire, if_pos rfl]

end

/-- Cleanup is retained whatever the load is, and counts no refusal: routes of a connection and of
peers that left, the detach of a stale attach, the operation of a retired request. -/
structure CleanupAccepted (s : ControlState) : Prop where
  connection : ∀ number now, number ∈ s.liveConnections →
    ((s.step (.connectionCleanup number true now)).budget.obligations.lookup s.nextWaiter).isSome
  peers : ∀ removed now, (s.step (.peerClosed removed true now)).nextWaiter =
        s.nextWaiter + (removed.toFinset ∩ s.budget.admittedPeers).card ∧
      ∀ waiterId, s.nextWaiter ≤ waiterId →
        waiterId < (s.step (.peerClosed removed true now)).nextWaiter →
        ((s.step (.peerClosed removed true now)).budget.obligations.lookup waiterId).isSome
  staleAttach : ∀ waiterId row entry turn obligation now,
    s.ownerReady.queued.lookup waiterId = some row →
    s.pendingRequests.lookup waiterId = some entry →
    ¬(entry.mustFinish = false ∧ entry.isReceiverClosed = true) → ¬row.reasons ⊆ {.deadline} →
    turn.answer = .ready true →
    ((s.step (.poll waiterId turn obligation now)).budget.obligations.lookup s.nextWaiter).isSome
  operation : ∀ waiterId entry reason now, entry.retire = some .retainOperation →
    ((s.retire waiterId entry reason now).budget.obligations.lookup waiterId).isSome
  unrefused : ∀ number removed waiterId turn obligation hasRuntime now,
    (s.step (.connectionCleanup number hasRuntime now)).budget.counters.refused =
        s.budget.counters.refused ∧
      (s.step (.peerClosed removed hasRuntime now)).budget.counters.refused =
        s.budget.counters.refused ∧
      (s.step (.poll waiterId turn obligation now)).budget.counters.refused =
        s.budget.counters.refused

theorem Sound.cleanupAccepted (h : Sound tidy past s) : CleanupAccepted s := by
  have hact : ∀ step, s.step step = s.act step := by
    intro step
    unfold ControlState.step
    rw [h.running]
    rfl
  refine
    { connection := fun number now hl => ?_
      peers := fun r now => ?_
      staleAttach := fun waiterId row entry turn o now hrow he ho hr hanswer => ?_
      operation := fun waiterId entry reason now hretire => isSome_retire s waiterId hretire reason
        now
      unrefused := fun number r waiterId turn o runtime now => ⟨?_, ?_, ?_⟩ }
  · rw [hact]
    unfold ControlState.act
    dsimp only
    rw [if_pos hl]
    exact isSome_connectionCleanup h number now
  · rw [hact]
    exact isSome_peerClosed h r now
  · rw [hact]
    exact isSome_staleAttach h hrow he ho hr hanswer o now
  · rw [hact]
    unfold ControlState.act
    dsimp only
    split
    · exact (spends_connectionCleanup s number runtime now).refused
    · rfl
  · rw [hact]
    exact (spends_peerClosed s r runtime now).refused
  · rw [hact]
    exact (costs_poll s waiterId turn o now).refused

/-- With at most `limit` live connections the load passes the bound by `limit` at most, and cleanup
is never refused. -/
theorem run_budget_overshoot (limit : ℕ) (steps : List Step) (hlive : LiveRun limit new steps) :
    (new.run steps).load ≤ ownerBudgetCapacity + limit ∧ CleanupAccepted (new.run steps) := by
  refine ⟨(Nat.le_add_right _ _).trans (run_weight steps hlive (Nat.zero_le _)), ?_⟩
  have hsound : Sound False [] (new.run steps) := sound_new.run steps False.elim
  exact hsound.cleanupAccepted

def reconnecting : List Step := [.connect, .connectionCleanup 0 true 0, .connect]

theorem run_budget_overshoot_reconnecting :
    LiveRun daemonMaxConnections new reconnecting ∧ (new.run reconnecting).load = 1 ∧
      (new.run reconnecting).load ≤ ownerBudgetCapacity + daemonMaxConnections ∧
      CleanupAccepted (new.run reconnecting) :=
  have hlive : LiveRun daemonMaxConnections new reconnecting := by decide +kernel
  ⟨hlive, by decide +kernel, run_budget_overshoot daemonMaxConnections reconnecting hlive⟩

end ControlState

end BotsterHub.Owner
