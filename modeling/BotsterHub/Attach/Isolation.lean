import BotsterHub.Attach.Settling

/-!
A continuation that carries the identity of an earlier attachment leaves the stream that has
replaced it alone: it closes the adapter it created, gives back its own route when that is not in
use, and drops its own reservation.
-/

namespace BotsterHub.Attach

open List Option AList Registry Control

namespace Control

variable {s : Control} {key : Key} {stream : AttachStream}

/-- The step goes on with something that started under `identity` at `key`, or captured it. -/
def Carries (s : Control) (key : Key) (identity : Option AttachmentIdentity) : Step → Prop
  | .attached attempt _ _ =>
    attempt ∈ s.attaches ∧ attempt.key = key ∧ some attempt.identity = identity
  | .bound bind _ _ => bind ∈ s.binds ∧ bind.key = key ∧ some bind.identity = identity
  | .bindReserved grantId label _ _ | .retireReserved grantId label =>
    ∃ admission ∈ s.webrtcAdmissions.lookup grantId,
      ∃ reservation ∈ s.reservationForLabel label admission.peerGeneration,
        reservation.key = key ∧ some reservation.identity = identity
  | .expire _ label peerGeneration _ =>
    ∃ reservation ∈ s.reservationForLabel label peerGeneration,
      reservation.key = key ∧ some reservation.identity = identity
  | .detached request _ => request ∈ s.detaches ∧ request.key = key ∧ request.identity = identity
  | .cleaned candidate _ =>
    candidate ∈ s.cleanups ∧ candidate.key = key ∧ candidate.identity = identity
  | .reconcile _ _ after maxEntries =>
    ∃ row ∈ s.registry.reconcileVisit after maxEntries, row.1 = key ∧ some row.2.2 = identity
  | _ => False

/-- The session of the stream is gone, its connection closed or its peer closed. -/
def RemovesRouteOrOwner (key : Key) (stream : AttachStream) : Step → Prop
  | .retainSessions present => present key.sessionId = false
  | .connectionCleanup socket _ _ => stream.owner.clientId = .socket socket
  | .peerClosed grantId siblings _ _ => ∃ grant ∈ stream.owner.grantId, grant ∈ grantId :: siblings
  | _ => False

def Attaches (key : Key) : Step → Prop
  | .attach _ key' _ => key' = key
  | .queried query _ _ _ _ => query.key = key
  | _ => False

/-- The stream, its adapter and live-attach state, what waits for it and what is known about its
owner are as they were. -/
structure Isolated (s s' : Control) (key : Key) (stream : AttachStream) : Prop where
  lookup : s'.registry.streams.lookup key = some stream
  adapter : ∀ adapter ∈ stream.adapter, adapter ∈ s'.registry.closed → adapter ∈ s.registry.closed
  live : s'.registry.liveAttachRoutes = s.registry.liveAttachRoutes
  grants : s'.registry.attachOwnerGrantIds = s.registry.attachOwnerGrantIds
  active : s'.registry.activeSubscriptions = s.registry.activeSubscriptions
  boundRoutes : s'.registry.connectionBoundRoutes = s.registry.connectionBoundRoutes
  routes : s'.registry.routes stream.owner.budgetKey = s.registry.routes stream.owner.budgetKey
  attaches : ∀ attempt : PendingAttach, attempt.key = key → attempt.identity = stream.identity →
    s'.attaches.count attempt = s.attaches.count attempt
  binds : ∀ bind : PendingBind, bind.key = key → bind.identity = stream.identity →
    s'.binds.count bind = s.binds.count bind
  reservations : ∀ label reservation, reservation.key = key →
    reservation.identity = stream.identity → (s'.reservations.lookup label = some reservation ↔
      s.reservations.lookup label = some reservation)

theorem Isolated.refl (h : s.registry.streams.lookup key = some stream) : Isolated s s key stream :=
  ⟨h, fun _ _ => id, rfl, rfl, rfl, rfl, rfl, fun _ _ _ => rfl, fun _ _ _ => rfl,
    fun _ _ _ _ => Iff.rfl⟩

theorem Isolated.trans (h : Isolated s s' key stream)
    (h' : Isolated s' s'' key stream) : Isolated s s'' key stream :=
  ⟨h'.lookup, fun adapter hm hc => h.adapter adapter hm (h'.adapter adapter hm hc),
    h'.live.trans h.live, h'.grants.trans h.grants, h'.active.trans h.active,
    h'.boundRoutes.trans h.boundRoutes, h'.routes.trans h.routes,
    fun a hk hid => (h'.attaches a hk hid).trans (h.attaches a hk hid),
    fun bind hk hid => (h'.binds bind hk hid).trans (h.binds bind hk hid),
    fun l r hk hid => (h'.reservations l r hk hid).trans (h.reservations l r hk hid)⟩

section

variable (h : s.registry.streams.lookup key = some stream)

include h

theorem Isolated.closeHandle {adapter : Adapter} (ha : stream.adapter ≠ some adapter) :
    Isolated s { s with registry := closeHandle s.registry adapter } key stream := by
  refine { Isolated.refl h with adapter := fun other ho hc => ?_ }
  rcases Finset.mem_insert.mp hc with rfl | hc
  · exact absurd ho ha
  · exact hc

theorem Isolated.releaseFailedAttachRoute
    (owner : AttachStreamOwner) (reservation : RouteReservation) :
    Isolated s { s with registry := releaseFailedAttachRoute s.registry owner key reservation } key
        stream := by
  unfold Control.releaseFailedAttachRoute
  split
  · next hr =>
    have ho : stream.owner.budgetKey ≠ owner.budgetKey := by
      intro heq
      have hm := streamOwnerMatches_iff.mpr ⟨stream, h, heq⟩
      rw [hr.2] at hm
      cases hm
    have hrest : ∀ r : Registry, (r.releaseRoute owner.budgetKey key).liveAttachRoutes =
          r.liveAttachRoutes ∧
        (r.releaseRoute owner.budgetKey key).attachOwnerGrantIds = r.attachOwnerGrantIds ∧
        (r.releaseRoute owner.budgetKey key).activeSubscriptions = r.activeSubscriptions ∧
        (r.releaseRoute owner.budgetKey key).connectionBoundRoutes = r.connectionBoundRoutes ∧
        (r.releaseRoute owner.budgetKey key).closed = r.closed := by
      intro r
      unfold releaseRoute
      split <;> exact ⟨rfl, rfl, rfl, rfl, rfl⟩
    obtain ⟨hl, hg, ha, hb, hc⟩ := hrest s.registry
    refine { Isolated.refl h with
      lookup := ?_, adapter := ?_, live := hl, grants := hg, active := ha
      boundRoutes := hb, routes := ?_ }
    · exact (congrArg _ (streams_releaseRoute ..)).trans h
    · intro adapter _ hmem
      exact hc ▸ hmem
    · exact (routes_releaseRoute ..).trans (if_neg ho)
  · exact .refl h

theorem Isolated.abandonUnboundTerminal (o : AttachStreamOwner) (r : RouteReservation)
    (hs : identity ≠ stream.identity) :
    Isolated s { s with registry := abandonUnboundTerminal s.registry o identity r key } key
        stream := by
  have hne : s.registry.streamIdentity key ≠ some identity := by
    rw [streamIdentity_of_lookup h]
    exact fun heq => hs (some.inj heq).symm
  unfold Control.abandonUnboundTerminal
  rw [cancelStreamIf_of_ne hne]
  exact .releaseFailedAttachRoute h o r

end

theorem Isolated.reservation {s' : Control} (h : Isolated s s' key stream) (l : ℕ)
    {reservations : Dict ℕ TerminalReservation}
    (ho : ∀ o, o ≠ l → reservations.lookup o = s'.reservations.lookup o)
    (hb : ∀ r ∈ s'.reservations.lookup l, ¬(r.key = key ∧ r.identity = stream.identity))
    (ha : ∀ r ∈ reservations.lookup l, ¬(r.key = key ∧ r.identity = stream.identity)) :
    Isolated s { s' with reservations } key stream := by
  refine h.trans { Isolated.refl h.lookup with reservations := fun o r hk hid => ?_ }
  by_cases heq : o = l
  · subst heq
    exact ⟨fun hm => absurd ⟨hk, hid⟩ (ha r hm), fun hm => absurd ⟨hk, hid⟩ (hb r hm)⟩
  · rw [ho o heq]

section

variable (h : s.registry.streams.lookup key = some stream)
include h

theorem Isolated.retireReservedSubscription (grantId : GrantId) {l : ℕ}
    (hs : ∀ r ∈ s.reservations.lookup l, (r.state ≠ .bound → r.key = key) ∧
        ¬(r.key = key ∧ r.identity = stream.identity)) :
    Isolated s (s.retireReservedSubscription grantId l) key stream := by
  unfold Control.retireReservedSubscription
  split
  · exact .refl h
  next _ =>
  split
  · exact .refl h
  next r hr =>
  have hl := (mem_reservationForLabel.mp hr).1
  obtain ⟨hk, ho⟩ := hs r hl
  have hretired : Isolated s (s.retireRouteOwner r) key stream := by
    unfold retireRouteOwner
    split
    · exact .refl h
    next hu =>
    obtain rfl := hk hu
    exact .abandonUnboundTerminal h _ _ fun heq => ho ⟨rfl, heq⟩
  have hsame : (s.retireRouteOwner r).reservations = s.reservations := by
    unfold retireRouteOwner
    split <;> rfl
  refine hretired.reservation l (fun o hne => ?_) (fun o hm => ?_) fun o hm => ?_
  · rw [lookup_erase_ne hne]
  · rw [hsame] at hm
    exact (hs o hm).2
  · rw [mem_def, lookup_erase] at hm
    cases hm

theorem Isolated.emitReservationExpired {l p now : ℕ}
    (hstale : ∀ r ∈ s.reservations.lookup l, r.key = key ∧ r.identity ≠ stream.identity) :
    Isolated s (s.emitReservationExpired l p now) key stream := by
  unfold Control.emitReservationExpired
  split
  · exact .refl h
  next r hr =>
  have hl := (mem_reservationForLabel.mp hr).1
  obtain ⟨rfl, hid⟩ := hstale r hl
  split
  · have he : Isolated s { s with
        reservations := s.reservations.insert l { r with state := .expired } }
        r.key stream := by
      refine (Isolated.refl h).reservation l (fun o hne => ?_) (fun o hm => ?_) fun o hm => ?_
      · exact lookup_insert_ne hne
      · exact fun hs => (hstale o hm).2 hs.2
      rw [mem_def, lookup_insert] at hm
      cases hm
      exact fun hs => hid hs.2
    refine he.trans ?_
    unfold retireRouteOwner
    rw [if_neg nofun]
    exact .abandonUnboundTerminal he.lookup _ _ hid
  · exact .refl h

theorem streamIdentity_ne_of_lookup (hs : identity ≠ stream.identity) :
    s.registry.streamIdentity key ≠ some identity := by
  rw [streamIdentity_of_lookup h]
  exact fun heq => hs (some.inj heq).symm

end

theorem Isolated.attached {a : PendingAttach} (h : s.registry.streams.lookup a.key = some stream)
    (hs : a.identity ≠ stream.identity) (ha : stream.adapter ≠ some a.adapter)
    (generation : Option Generation) (registered : Bool) :
    Isolated s (s.attached a generation registered) a.key stream := by
  have hne := streamIdentity_ne_of_lookup h hs
  have hc := Isolated.closeHandle h ha
  have hf := hc.trans (.releaseFailedAttachRoute hc.lookup a.owner a.reservation)
  unfold Control.attached
  cases generation with
  | none =>
    rw [Registry.cancelStreamIf_of_ne (r := Control.closeHandle s.registry a.adapter) hne]
    exact hf
  | some =>
    have hm : s.registry.streamMatches a.key a.identity = false :=
      Bool.eq_false_iff.mpr (mt streamMatches_iff.mp hne)
    simp only [hm, Bool.false_and, Bool.false_eq_true, if_false]
    exact hf

theorem Isolated.bound {bind : PendingBind} (h : s.registry.streams.lookup bind.key = some stream)
    (hs : bind.identity ≠ stream.identity) (hadapter : stream.adapter ≠ some bind.adapter)
    (hc : ∀ r ∈ s.reservations.lookup bind.label, r.state = .bound ∧ r.key = bind.key ∧
        r.identity = bind.identity)
    (generation : Option Generation) (d : Bool) :
    Isolated s (s.bound bind generation d) bind.key stream := by
  have hne := streamIdentity_ne_of_lookup h hs
  have hclosed := Isolated.closeHandle h hadapter
  have ha := hclosed.trans (.abandonUnboundTerminal hclosed.lookup bind.owner bind.route hs)
  have hr := ha.trans (.retireReservedSubscription ha.lookup bind.grantId
    fun r hmem => ⟨fun hu => absurd (hc r hmem).1 hu,
      fun hsame => hs ((hc r hmem).2.2.symm.trans hsame.2)⟩)
  unfold Control.bound
  cases generation with
  | none => exact hr
  | some =>
    have hm : s.registry.streamMatches bind.key bind.identity = false :=
      Bool.eq_false_iff.mpr (mt streamMatches_iff.mp hne)
    simp only [recordGenerationIf, hm, Bool.false_eq_true, if_false, true_or, if_true]
    exact hr

theorem Isolated.bindReserved (h : s.registry.streams.lookup key = some stream)
    (hs : ∀ r ∈ s.reservations.lookup l, r.key = key ∧ r.identity ≠ stream.identity) :
    Isolated s (s.bindReserved grantId l now serviceable) key stream := by
  unfold Control.bindReserved
  split
  · exact .refl h
  split
  · exact .refl h
  next r hr =>
  obtain ⟨rfl, hid⟩ := hs r (mem_reservationForLabel.mp hr).1
  split
  · exact .refl h
  split
  · exact .emitReservationExpired h hs
  split
  · next hm =>
    exact absurd (streamMatches_iff.mp hm.2.2) (streamIdentity_ne_of_lookup h hid)
  · exact .retireReservedSubscription h grantId fun o hmem =>
      ⟨fun _ => (hs o hmem).1, fun hsame => (hs o hmem).2 hsame.2⟩

theorem Isolated.detached (h : s.registry.streams.lookup r.key = some stream)
    (hs : r.identity ≠ some stream.identity) (succeeded : Bool) :
    Isolated s (s.detached r succeeded) r.key stream := by
  have hc := streamIdentity_of_lookup h
  have hf : Isolated s (s.finishDetach r.client r.key) r.key stream := by
    unfold finishDetach
    simp only [hc, isSome_some, if_true]
    exact { Isolated.refl h with }
  unfold Control.detached
  dsimp only
  split
  · exact .refl h
  split
  · next ho =>
    obtain ⟨identity, hi, hm⟩ := (any_eq_true _ _).mp ho
    rw [streamMatches_iff, hc] at hm
    exact absurd (hi.trans hm.symm) hs
  · exact hf

theorem Isolated.cleaned (h : s.registry.streams.lookup c.key = some stream)
    (hs : c.identity ≠ some stream.identity) (o : CleanupRouteOutcome) :
    Isolated s (s.cleaned c o) c.key stream := by
  have hc := streamIdentity_of_lookup h
  unfold Control.cleaned
  split
  · exact .refl h
  · rw [hc, if_pos ⟨rfl, hs.symm⟩]
    exact .refl h

theorem stale_of_mem (hr : r ∈ s.reservationForLabel l p)
    (hs : some r.identity ≠ some stream.identity) :
    ∀ o ∈ s.reservations.lookup l, o.key = r.key ∧ o.identity ≠ stream.identity := by
  intro o hm
  obtain rfl := some.inj ((mem_reservationForLabel.mp hr).1.symm.trans hm)
  exact ⟨rfl, fun heq => hs (congrArg some heq)⟩

/-- A step that carries the identity of another attempt leaves the stream alone. -/
theorem Isolated.step {step : Step} {identity : Option AttachmentIdentity} (hd : Distinct s)
    (h : s.registry.streams.lookup key = some stream) (hc : s.Carries key identity step)
    (hs : identity ≠ some stream.identity) : Isolated s (s.step step) key stream := by
  have hu : ∀ adapter ∈ s.inFlight, stream.adapter ≠ some adapter :=
    fun adapter hm ha => hd.unbound adapter hm ⟨key, stream, h, ha⟩
  cases step with
  | attached attempt generation registered =>
    obtain ⟨hm, rfl, rfl⟩ := hc
    have hs : attempt.identity ≠ stream.identity := fun heq => hs (congrArg some heq)
    have ha := hu attempt.adapter <| by
      rw [inFlight_attach hm]
      exact Multiset.mem_cons_self _ _
    have he : Isolated s { s with attaches := s.attaches.erase attempt } attempt.key
        stream := by
      refine { Isolated.refl h with attaches := fun other _ hid => ?_ }
      exact Multiset.count_erase_of_ne (fun heq : other = attempt => hs (heq ▸ hid)) _
    rw [step, if_pos hm]
    exact he.trans (.attached he.lookup hs ha generation registered)
  | bound bind generation d =>
    obtain ⟨hm, rfl, rfl⟩ := hc
    have hs : bind.identity ≠ stream.identity := fun heq => hs (congrArg some heq)
    have ha := hu bind.adapter <| by
      rw [inFlight_bind hm]
      exact Multiset.mem_cons_self _ _
    have he : Isolated s { s with binds := s.binds.erase bind } bind.key stream := by
      refine { Isolated.refl h with binds := fun other _ hid => ?_ }
      exact Multiset.count_erase_of_ne (fun heq : other = bind => hs (heq ▸ hid)) _
    rw [step, if_pos hm]
    exact he.trans (.bound he.lookup hs ha (hd.claimed bind hm) generation d)
  | bindReserved =>
    obtain ⟨admission, -, r, hr, rfl, rfl⟩ := hc
    exact .bindReserved h (stale_of_mem hr hs)
  | retireReserved grantId =>
    obtain ⟨admission, -, r, hr, rfl, rfl⟩ := hc
    have ho := stale_of_mem hr hs
    exact .retireReservedSubscription h grantId fun other hm =>
      ⟨fun _ => (ho other hm).1, fun heq => (ho other hm).2 heq.2⟩
  | expire =>
    obtain ⟨r, hr, rfl, rfl⟩ := hc
    exact .emitReservationExpired h (stale_of_mem hr hs)
  | detached request succeeded =>
    obtain ⟨hm, rfl, rfl⟩ := hc
    rw [step, if_pos hm]
    have he : Isolated s { s with detaches := s.detaches.erase request } request.key stream :=
      { Isolated.refl h with }
    exact he.trans (.detached he.lookup hs succeeded)
  | cleaned c o =>
    obtain ⟨hm, rfl, rfl⟩ := hc
    rw [step, if_pos hm]
    have he : Isolated s { s with cleanups := s.cleanups.erase c } c.key
        stream := { Isolated.refl h with }
    exact he.trans (.cleaned he.lookup hs o)
  | reconcile =>
    -- what a slice captured is current
    obtain ⟨row, hm, rfl, rfl⟩ := hc
    have hcaptured := streamIdentity_of_reconcileVisit hm
    rw [streamIdentity_of_lookup h] at hcaptured
    exact absurd hcaptured.symm hs
  | _ => exact hc.elim

section Removal

variable {identity : AttachmentIdentity}

theorem streamIdentity_of_streams {r r' : Registry} (h : r'.streams = r.streams) (key : Key) :
    r'.streamIdentity key = r.streamIdentity key :=
  streamIdentity_congr (congrArg _ h)

theorem streamIdentity_recordChange (s : Control) (c : AttachedSubscriptionChange)
    (grantId : Option GrantId) (key : Key) :
    (s.recordChange c grantId).registry.streamIdentity key = s.registry.streamIdentity key :=
  streamIdentity_of_streams (streams_recordAttachedSubscriptionChange ..).1 key

theorem abandonUnboundTerminal_removes {r : Registry} {o : AttachStreamOwner}
    {c : AttachmentIdentity} {route : RouteReservation}
    (hb : r.streamIdentity key = some identity)
    (ha : (abandonUnboundTerminal r o c route key').streamIdentity key ≠
      some identity) : key' = key ∧ c = identity := by
  unfold abandonUnboundTerminal at ha
  rw [streamIdentity_of_streams (streams_releaseFailedAttachRoute ..)] at ha
  obtain ⟨rfl, rfl⟩ := streamIdentity_cancelStreamIf_ne hb ha
  exact ⟨rfl, rfl⟩

theorem retireRouteOwner_removes (hb : s.registry.streamIdentity key = some identity)
    (ha : (s.retireRouteOwner r).registry.streamIdentity key ≠ some identity) :
    r.state ≠ .bound ∧ r.key = key ∧ r.identity = identity := by
  unfold retireRouteOwner at ha
  split at ha
  · exact absurd hb ha
  · next hu => exact ⟨hu, abandonUnboundTerminal_removes hb ha⟩

variable {g : GrantId} {key' : Key}

section

variable (hb : s.registry.streamIdentity key = some identity)

include hb

theorem retireReservedSubscription_removes
    (ha : (s.retireReservedSubscription g l).registry.streamIdentity key ≠ some identity) :
    ∃ a ∈ s.webrtcAdmissions.lookup g, ∃ r ∈ s.reservationForLabel l a.peerGeneration,
        r.state ≠ .bound ∧ r.key = key ∧ r.identity = identity := by
  unfold retireReservedSubscription at ha
  split at ha
  · exact absurd hb ha
  next a hadmission =>
  split at ha
  · exact absurd hb ha
  next r hr =>
  exact ⟨a, hadmission, r, hr, retireRouteOwner_removes hb ha⟩

theorem emitReservationExpired_removes
    (ha : (s.emitReservationExpired l p now).registry.streamIdentity key ≠ some identity) :
    ∃ r ∈ s.reservationForLabel l p, r.key = key ∧ r.identity = identity := by
  unfold emitReservationExpired at ha
  split at ha
  · exact absurd hb ha
  next r hr =>
  split at ha
  · dsimp only at ha
    obtain ⟨-, hk, hid⟩ := retireRouteOwner_removes
      (s := { s with reservations := s.reservations.insert l { r with state := .expired } })
      hb ha
    exact ⟨r, hr, hk, hid⟩
  · exact absurd hb ha

theorem cancelAttachment_removes
    (ha : (s.cancelAttachment key' c).registry.streamIdentity key ≠ some identity) :
    key' = key ∧ c = some identity := by
  cases c with
  | none => exact absurd hb ha
  | some c =>
    rw [← streamIdentity_closeAdapterIf _ key' c] at hb
    obtain ⟨rfl, rfl⟩ := streamIdentity_cancelStreamIf_ne hb ha
    exact ⟨rfl, rfl⟩

end

theorem streamIdentity_finishDetach (s : Control) (c : BudgetKey) (key key' : Key) :
    (s.finishDetach c key').registry.streamIdentity key = s.registry.streamIdentity key := by
  unfold finishDetach
  dsimp only
  split
  · rfl
  · rw [streamIdentity_recordChange]
    exact streamIdentity_of_streams (streams_releaseRoute ..) key

variable {generation : Option Generation}

theorem attached_removes {a : PendingAttach}
    {registered : Bool} (hb : s.registry.streamIdentity key = some identity)
    (ha : (s.attached a generation registered).registry.streamIdentity key ≠
      some identity) : a.key = key ∧ a.identity = identity := by
  unfold attached at ha
  cases generation with
  | none =>
    rw [streamIdentity_of_streams (streams_releaseFailedAttachRoute ..)] at ha
    obtain ⟨rfl, rfl⟩ := streamIdentity_cancelStreamIf_ne
      (r := closeHandle s.registry a.adapter) hb ha
    exact ⟨rfl, rfl⟩
  | some =>
    dsimp only at ha
    split at ha
    · refine absurd ?_ ha
      rw [streamIdentity_recordChange]
      unfold markAdapterBoundIf
      split
      · exact (streamIdentity_markAdapterBound ..).trans hb
      · exact hb
    · refine absurd ?_ ha
      exact (streamIdentity_of_streams (streams_releaseFailedAttachRoute ..) key).trans hb

theorem bound_removes {bind : PendingBind} {d : Bool}
    (hc : ∀ reservation ∈ s.reservations.lookup bind.label, reservation.state = .bound)
    (hb : s.registry.streamIdentity key = some identity)
    (ha : (s.bound bind generation d).registry.streamIdentity key ≠ some identity) :
    bind.key = key ∧ bind.identity = identity := by
  -- retiring the claimed label cancels nothing
  have hretire : ∀ r : Registry, ({ s with registry := r }.retireReservedSubscription
      bind.grantId bind.label).registry.streamIdentity key ≠ some identity →
        r.streamIdentity key ≠ some identity := by
    intro r hne heq
    obtain ⟨admission, -, reservation, hreservation, hu, -⟩ :=
      retireReservedSubscription_removes heq hne
    exact hu (hc reservation (mem_reservationForLabel.mp hreservation).1)
  have hr : ∀ generation : Generation,
      (s.registry.recordGenerationIf bind.key bind.identity generation).2.streamIdentity key =
        some identity := by
    intro generation
    unfold recordGenerationIf
    split
    · exact (streamIdentity_recordGeneration ..).trans hb
    · exact hb
  unfold bound at ha
  cases generation with
  | none =>
    exact abandonUnboundTerminal_removes
      (r := closeHandle s.registry bind.adapter) hb (hretire _ ha)
  | some generation =>
    dsimp only at ha
    split at ha
    · exact abandonUnboundTerminal_removes (r := closeHandle _ bind.adapter)
        (hr generation) (hretire _ ha)
    have hm : ((s.registry.recordGenerationIf bind.key bind.identity
        generation).2.markAdapterBoundIf bind.key bind.identity generation
          bind.adapter).2.streamIdentity key = some identity := by
      unfold markAdapterBoundIf
      split
      · exact (streamIdentity_markAdapterBound ..).trans (hr generation)
      · exact hr generation
    split at ha
    · exact absurd hm ha
    obtain ⟨rfl, rfl⟩ := streamIdentity_cancelStreamIf_ne
      (r := closeHandle _ bind.adapter) hm (hretire _ ha)
    exact ⟨rfl, rfl⟩

theorem bindReserved_removes (hb : s.registry.streamIdentity key = some identity)
    (ha : (s.bindReserved g l now serviceable).registry.streamIdentity key ≠ some identity) :
    ∃ admission ∈ s.webrtcAdmissions.lookup g,
      ∃ r ∈ s.reservationForLabel l admission.peerGeneration,
        r.key = key ∧ r.identity = identity := by
  unfold bindReserved at ha
  split at ha
  · exact absurd hb ha
  next admission hadmission =>
  split at ha
  · exact absurd hb ha
  split at ha
  · exact absurd hb ha
  split at ha
  · exact ⟨admission, hadmission, emitReservationExpired_removes hb ha⟩
  split at ha
  · exact absurd hb ha
  obtain ⟨admission', hadmission', r, hr, -, hs⟩ := retireReservedSubscription_removes hb ha
  exact ⟨admission', hadmission', r, hr, hs⟩

theorem streamIdentity_reserveRoute (r : Registry) (o : BudgetKey) (key' : Key) (l : ℕ)
    (key : Key) : (r.reserveRoute o key' l).2.streamIdentity key = r.streamIdentity key :=
  streamIdentity_of_streams (streams_reserveRoute ..) key

section

variable (hb : s.registry.streamIdentity key = some identity)

include hb

theorem attach_removes {socket : ℕ} {a : Bool}
    (ha : (s.attach socket key' a).registry.streamIdentity key ≠ some identity) :
    key' = key := by
  by_contra hne
  refine ha ?_
  unfold attach
  split
  · dsimp only
    split
    · exact (streamIdentity_reserveRoute ..).trans hb
    split
    · refine (streamIdentity_of_streams (streams_releaseFailedAttachRoute ..) key).trans ?_
      exact (streamIdentity_reserveRoute ..).trans hb
    · refine (streamIdentity_startAttach_of_ne _ _ (Ne.symm hne)).trans ?_
      exact (streamIdentity_reserveRoute ..).trans hb
  · exact hb

theorem reserveWebrtcTerminal_removes (hafter : (s.reserveWebrtcTerminal g key' p now c
      a).registry.streamIdentity key ≠ some identity) : key' = key := by
  by_contra hne
  refine hafter ?_
  have hs : ((s.registry.reserveRoute (peerOwner g key').budgetKey key'
      maxAttachRoutesPerOwner).2.startAttach (peerOwner g key') key').2.streamIdentity key =
        some identity := by
    refine (streamIdentity_startAttach_of_ne _ _ (Ne.symm hne)).trans ?_
    exact (streamIdentity_reserveRoute ..).trans hb
  unfold reserveWebrtcTerminal
  split
  · dsimp only
    split
    · exact (streamIdentity_reserveRoute ..).trans hb
    split
    · rw [streamIdentity_recordChange]
      exact hs
    · by_contra ha
      exact hne (abandonUnboundTerminal_removes hs ha).1
  · exact hb

theorem detached_removes
    (ha : (s.detached r succeeded).registry.streamIdentity key ≠ some identity) :
    r.key = key ∧ r.identity = some identity := by
  unfold detached at ha
  dsimp only at ha
  split at ha
  · exact absurd hb ha
  split at ha
  · rw [streamIdentity_finishDetach] at ha
    exact cancelAttachment_removes hb ha
  · rw [streamIdentity_finishDetach] at ha
    exact absurd hb ha

theorem cleaned_removes (ha : (s.cleaned c o).registry.streamIdentity key ≠ some identity) :
    c.key = key ∧ c.identity = some identity := by
  unfold cleaned at ha
  dsimp only at ha
  split at ha
  · exact absurd hb ha
  split at ha
  · exact absurd hb ha
  · rw [streamIdentity_recordChange] at ha
    exact cancelAttachment_removes hb ha

theorem connectionCleanup_removes
    (hafter : (s.connectionCleanup socket a runtime).registry.streamIdentity key ≠ some identity) :
    identity.clientId = .socket socket := by
  have hm := streamIdentity_foldl_cancelStreamIf
    (r := ((s.registry.takeConnectionBoundRoutes (.socket socket)).2.takeOwnerRoutes
      (.client (.socket socket))).2)
    ((s.registry.takeConnectionBoundRoutes (.socket socket)).2.unboundRoutesForClient
      (.socket socket)) hb hafter
  obtain ⟨key', -, he⟩ := mem_filterMap.mp hm
  split at he
  · cases he
  split at he
  · next _ ho =>
    cases he
    exact ho.1
  · cases he

end

theorem departRoute_removes (hb : acc.1.registry.streamIdentity key = some identity)
    (ha : (departRoute acc r).1.registry.streamIdentity key ≠ some identity) :
    r.2 = key := by
  unfold departRoute at ha
  split at ha
  · exact absurd hb ha
  rw [streamIdentity_recordChange] at ha
  exact (cancelAttachment_removes hb ha).1

theorem foldl_departRoute_removes {r : List (GrantId × Key)} (acc : Control × List CleanupCandidate)
    (hb : acc.1.registry.streamIdentity key = some identity)
    (ha : (r.foldl departRoute acc).1.registry.streamIdentity key ≠ some identity) :
    ∃ g, (g, key) ∈ r := by
  induction r generalizing acc with
  | nil => exact absurd hb ha
  | cons route _ ih =>
    by_cases hk : (departRoute acc route).1.registry.streamIdentity key = some identity
    · obtain ⟨g, hm⟩ := ih _ hk ha
      exact ⟨g, mem_cons_of_mem _ hm⟩
    · obtain rfl := departRoute_removes hb hk
      exact ⟨route.1, mem_cons_self⟩

variable {snapshot : Finset Key}

theorem grantId_of_departing {r : Registry} {removed : List GrantId} {p g : GrantId}
    (hl : r.streams.lookup key = some stream)
    (hm : (g, key) ∈ r.departingRoutesForGrants removed p snapshot) :
    stream.owner.grantId = some g ∧ g ∈ removed := by
  unfold departingRoutesForGrants at hm
  split at hm
  · cases hm
  obtain ⟨key', -, hr⟩ := mem_filterMap.mp hm
  split at hr
  · next ho =>
    split at hr
    · next hg =>
      split at hr
      · next hremoved =>
        cases hr
        obtain rfl := some.inj (hl.symm.trans ho)
        exact ⟨hg, hremoved⟩
      · cases hr
    · cases hr
  · next hn =>
    -- the key of the route is the key of the stream
    have hk : key' = key := by
      split at hr
      · exact (Prod.mk.inj (some.inj hr)).2
      split at hr
      · exact (Prod.mk.inj (some.inj hr)).2
      split at hr
      · exact (Prod.mk.inj (some.inj hr)).2
      · cases hr
    rw [hk, hl] at hn
    cases hn

theorem peerClosed_removes {siblings : List GrantId}
    {runtime : Bool} (hl : s.registry.streams.lookup key = some stream)
    (hafter : (s.peerClosed g siblings snapshot runtime).registry.streamIdentity key ≠
      some stream.identity) :
    ∃ grant ∈ stream.owner.grantId, grant ∈ g :: siblings := by
  have hb := streamIdentity_of_lookup hl
  have ht : ((((g :: siblings).filter (· ∈ s.admittedPeers)).foldl
      (fun r grant => (r.takeOwnerRoutes (.grant grant)).2) s.registry)).streamIdentity key =
        some stream.identity :=
    (streamIdentity_of_streams (streams_foldl_takeOwnerRoutes _ _) key).trans hb
  obtain ⟨grant, hm⟩ := foldl_departRoute_removes (_, []) ht hafter
  obtain ⟨hg, hr⟩ := grantId_of_departing hl hm
  exact ⟨grant, hg, mem_of_mem_filter hr⟩

theorem streamIdentity_foldl_recordChange (r : List Key) (s : Control) (key : Key) :
    (r.foldl (fun s key => s.recordChange (.detach key) none) s).registry.streamIdentity
      key = s.registry.streamIdentity key := by
  induction r generalizing s with
  | nil => rfl
  | cons _ _ ih => exact (ih _).trans (streamIdentity_recordChange _ _ _ _)

theorem removes_of_guarded {p : Prop} [Decidable p] {s' : Control}
    (hb : s.registry.streamIdentity key = some identity)
    (ha : (if p then s' else s).registry.streamIdentity key ≠ some identity) :
    p ∧ s'.registry.streamIdentity key ≠ some identity := by
  split at ha
  · next hp => exact ⟨hp, ha⟩
  · exact absurd hb ha

end Removal

/-- A stream goes with its own attempt, with its route or owner, or with the next attach. -/
theorem removed_by_step {step : Step} (hd : Distinct s)
    (hl : s.registry.streams.lookup key = some stream)
    (ha : (s.step step).registry.streamIdentity key ≠ some stream.identity) :
    s.Carries key (some stream.identity) step ∨ RemovesRouteOrOwner key stream step ∨
      Attaches key step := by
  have hb := streamIdentity_of_lookup hl
  cases step with
  | attach => exact Or.inr (Or.inr (attach_removes hb ha))
  | attached attempt =>
    obtain ⟨hm, ha⟩ := removes_of_guarded hb ha
    obtain ⟨hk, hid⟩ := attached_removes
      (s := { s with attaches := s.attaches.erase attempt }) hb ha
    exact .inl ⟨hm, hk, congrArg some hid⟩
  | queried q =>
    obtain ⟨-, ha⟩ := removes_of_guarded hb ha
    split at ha
    · exact .inr (.inr (reserveWebrtcTerminal_removes
        (s := { s with queries := s.queries.erase q }) hb ha))
    · exact absurd hb ha
  | bindReserved =>
    obtain ⟨a, hadmission, r, hr, hk, hid⟩ := bindReserved_removes hb ha
    exact .inl ⟨a, hadmission, r, hr, hk, congrArg some hid⟩
  | bound bind =>
    obtain ⟨hm, ha⟩ := removes_of_guarded hb ha
    obtain ⟨hk, hid⟩ := bound_removes (s := { s with binds := s.binds.erase bind })
      (fun r hr => (hd.claimed bind hm r hr).1) hb ha
    exact .inl ⟨hm, hk, congrArg some hid⟩
  | retireReserved =>
    obtain ⟨a, hadmission, r, hr, -, hk, hid⟩ := retireReservedSubscription_removes hb ha
    exact .inl ⟨a, hadmission, r, hr, hk, congrArg some hid⟩
  | expire =>
    obtain ⟨r, hr, hk, hid⟩ := emitReservationExpired_removes hb ha
    exact .inl ⟨r, hr, hk, congrArg some hid⟩
  | detached request =>
    obtain ⟨hm, ha⟩ := removes_of_guarded hb ha
    exact .inl ⟨hm, detached_removes (s := { s with detaches := s.detaches.erase request }) hb ha⟩
  | connectionCleanup =>
    exact .inr (.inl (connectionCleanup_removes hb (removes_of_guarded hb ha).2))
  | peerClosed =>
    exact .inr (.inl (peerClosed_removes hl ha))
  | cleaned c =>
    obtain ⟨hm, ha⟩ := removes_of_guarded hb ha
    exact .inl ⟨hm, cleaned_removes (s := { s with cleanups := s.cleanups.erase c }) hb ha⟩
  | reconcile =>
    rw [step] at ha
    unfold reconcile at ha
    rw [streamIdentity_foldl_recordChange] at ha
    obtain ⟨row, hm, hk, hid⟩ := streamIdentity_reconcileInventorySlice hb ha
    exact .inl ⟨row, hm, hk, congrArg some hid⟩
  | retainSessions =>
    refine .inr (.inl ?_)
    by_contra hp
    refine ha ?_
    exact (streamIdentity_retainSessionsPresentIn _ (Bool.eq_true_of_not_eq_false hp)).trans hb
  | closeSession =>
    exact absurd ((streamIdentity_closeAdaptersForSession ..).trans hb) ha
  | signal | hello =>
    rw [step] at ha
    split at ha <;> exact absurd hb ha
  | webrtcAttach =>
    rw [step] at ha
    unfold webrtcAttach at ha
    split at ha
    · exact absurd hb ha
    · split at ha <;> exact absurd hb ha
  | connect | detach | toldClosed | cleanupLost => exact absurd hb ha

/-- Attach replacement isolation, in every state that any run reaches. -/
theorem run_isolates (steps : List Step) (step : Step) (key : Key) (stream : AttachStream)
    (hlookup : (new.run steps).registry.streams.lookup key = some stream) :
    (∀ identity, (new.run steps).Carries key identity step → identity ≠ some stream.identity →
      Isolated (new.run steps) ((new.run steps).step step) key stream) ∧
    (((new.run steps).step step).registry.streamIdentity key ≠ some stream.identity →
      (new.run steps).Carries key (some stream.identity) step ∨
        RemovesRouteOrOwner key stream step ∨ Attaches key step) := by
  have hdistinct : Distinct (new.run steps) := distinct_new.run steps
  exact ⟨fun identity => Isolated.step hdistinct hlookup, removed_by_step hdistinct hlookup⟩

def exampleKey : Key := ⟨"session", "terminal"⟩

def firstAttempt : PendingAttach := ⟨unixOwner 0, exampleKey, ⟨.socket 0, 1⟩, .inserted, 0⟩

def replacing : List Step :=
  [.connect, .connect, .attach 0 exampleKey true, .attach 1 exampleKey true]

theorem run_isolates_late :
    Isolated (new.run replacing) ((new.run replacing).step (.attached firstAttempt (some 7) true))
      exampleKey (.new (unixOwner 1) 2) :=
  (run_isolates replacing (.attached firstAttempt (some 7) true) exampleKey (.new (unixOwner 1) 2)
    (by decide +kernel)).1 (some firstAttempt.identity) ⟨by decide +kernel, rfl, rfl⟩
    (by decide +kernel)

/-- The attach of another connection removes a bound stream; it carries nothing and removes neither
route nor owner. -/
theorem attach_replaces : let s := new.run [.connect, .connect, .attach 0 exampleKey true,
      .attached firstAttempt (some 7) true]
    let stream : AttachStream := ⟨unixOwner 0, 1, some 7, true, some 0⟩
    s.registry.streams.lookup exampleKey = some stream ∧
      (s.step (.attach 1 exampleKey true)).registry.streamIdentity exampleKey ≠
        some stream.identity ∧
      ¬s.Carries exampleKey (some stream.identity) (.attach 1 exampleKey true) ∧
      ¬RemovesRouteOrOwner exampleKey stream (.attach 1 exampleKey true) :=
  ⟨by decide +kernel, by decide +kernel, id, id⟩

end Control

end BotsterHub.Attach
