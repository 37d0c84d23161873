import BotsterHub.Attach.Control
import BotsterHub.Attach.Streams
import BotsterHub.Lib.Machine

/-!
What the handlers leave waiting.

Most handlers only settle: nothing new waits for Core and no stream is bound to a new adapter.
`Distinct` follows from this and from the few that start something.
-/

namespace BotsterHub.Attach

open Machine Multiset Option AList Registry Control

namespace Control

variable {s : Control} {key : Key}

theorem mem_reservationForLabel :
    reservation ∈ s.reservationForLabel l p ↔ s.reservations.lookup l = some reservation ∧
        reservation.peerGeneration = p := by
  unfold reservationForLabel
  rw [mem_def, filter_eq_some_iff, decide_eq_true_iff]

def inFlight (s : Control) : Multiset Adapter :=
  s.attaches.map PendingAttach.adapter + s.binds.map PendingBind.adapter

/-- A waiting adapter is bound nowhere and belongs to one attempt, a claimed label to its bind. -/
structure Distinct (s : Control) : Prop where
  nodup : s.inFlight.Nodup
  below : ∀ adapter ∈ s.inFlight, adapter < s.nextAdapter
  unbound : ∀ adapter ∈ s.inFlight, ¬s.registry.Bound adapter
  boundBelow : ∀ adapter, s.registry.Bound adapter → adapter < s.nextAdapter
  claimed : ∀ bind ∈ s.binds, ∀ reservation ∈ s.reservations.lookup bind.label,
    reservation.state = .bound ∧ reservation.key = bind.key ∧ reservation.identity = bind.identity
  labels : ∀ label reservation, s.reservations.lookup label = some reservation → label < s.nextLabel
  claims : ∀ bind ∈ s.binds, bind.label < s.nextLabel

structure Settles (s s' : Control) : Prop where
  bound : ∀ adapter, s'.registry.Bound adapter → s.registry.Bound adapter
  attaches : s'.attaches ≤ s.attaches
  binds : s'.binds ≤ s.binds
  nextAdapter : s'.nextAdapter = s.nextAdapter
  nextLabel : s'.nextLabel = s.nextLabel
  reservations : ∀ label reservation', s'.reservations.lookup label = some reservation' →
    ∃ reservation, s.reservations.lookup label = some reservation ∧
      reservation'.key = reservation.key ∧ reservation'.identity = reservation.identity ∧
      (reservation.state = .bound → reservation'.state = .bound)

theorem Settles.refl (s : Control) : Settles s s :=
  ⟨fun _ => id, le_rfl, le_rfl, rfl, rfl,
    fun _ reservation h => ⟨reservation, h, rfl, rfl, id⟩⟩

theorem Settles.trans (h : Settles s s') (h' : Settles s' s'') : Settles s s'' := by
  refine ⟨fun adapter hb => h.bound adapter (h'.bound adapter hb),
    h'.attaches.trans h.attaches, h'.binds.trans h.binds, h'.nextAdapter.trans h.nextAdapter,
    h'.nextLabel.trans h.nextLabel, fun l reservation'' hl => ?_⟩
  obtain ⟨reservation', hl', hk', hid', hs'⟩ := h'.reservations l _ hl
  obtain ⟨reservation, hl, hk, hid, hs⟩ := h.reservations l _ hl'
  exact ⟨reservation, hl, hk'.trans hk, hid'.trans hid, hs' ∘ hs⟩

theorem Distinct.settle (h : Distinct s) (hs : Settles s s') : Distinct s' := by
  have hle : s'.inFlight ≤ s.inFlight := add_le_add (map_le_map hs.attaches) (map_le_map hs.binds)
  have hm : ∀ adapter ∈ s'.inFlight, adapter ∈ s.inFlight := fun adapter => mem_of_le hle
  refine
    { nodup := nodup_of_le hle h.nodup
      below := fun adapter ha => ?_
      unbound := fun adapter ha hb => h.unbound adapter (hm adapter ha) (hs.bound adapter hb)
      boundBelow := fun adapter hb => ?_, claimed := fun bind hbind reservation' hl => ?_
      labels := fun l reservation' hl => ?_, claims := fun bind hbind => ?_ }
  · rw [hs.nextAdapter]
    exact h.below adapter (hm adapter ha)
  · rw [hs.nextAdapter]
    exact h.boundBelow adapter (hs.bound adapter hb)
  · obtain ⟨reservation, hbefore, hk, hid, hstate⟩ := hs.reservations _ _ hl
    obtain ⟨hb, hk', hid'⟩ := h.claimed bind (mem_of_le hs.binds hbind) reservation hbefore
    exact ⟨hstate hb, hk.trans hk', hid.trans hid'⟩
  · obtain ⟨reservation, hbefore, -⟩ := hs.reservations _ _ hl
    rw [hs.nextLabel]
    exact h.labels l reservation hbefore
  · rw [hs.nextLabel]
    exact h.claims bind (mem_of_le hs.binds hbind)

variable {r : Registry}

theorem settles_registry (h : ∀ adapter, r.Bound adapter → s.registry.Bound adapter) :
    Settles s { s with registry := r } := { Settles.refl s with bound := h }

theorem Settles.registry_of_weakens (h : s.registry.Weakens r) :
    Settles s { s with registry := r } := settles_registry fun _ => h.bound

theorem streams_releaseFailedAttachRoute (r : Registry) (o : AttachStreamOwner) (key : Key)
    (reservation : RouteReservation) :
    (releaseFailedAttachRoute r o key reservation).streams = r.streams := by
  unfold releaseFailedAttachRoute
  split
  · exact streams_releaseRoute ..
  · rfl

variable {adapter : Adapter} {i : AttachmentIdentity}

theorem bound_abandonUnboundTerminal (h : (abandonUnboundTerminal r o i route key).Bound adapter) :
    r.Bound adapter := by
  exact (weakens_cancelStreamIf r key i).bound (bound_congr (streams_releaseFailedAttachRoute ..) h)

theorem weakens_closeHandle (r : Registry) (adapter : Adapter) :
    r.Weakens (closeHandle r adapter) := .of_streams rfl rfl

section

variable (s : Control)

theorem settles_recordChange (c : AttachedSubscriptionChange)
    (g : Option GrantId) : Settles s (s.recordChange c g) :=
  { Settles.refl s with
    bound := fun _ => bound_congr (streams_recordAttachedSubscriptionChange _ _ _ _).1 }

theorem settles_retireRouteOwner (reservation : TerminalReservation) :
    Settles s (s.retireRouteOwner reservation) := by
  unfold retireRouteOwner
  split
  · exact .refl s
  · exact settles_registry fun _ => bound_abandonUnboundTerminal

theorem settles_erase_reservation (l : ℕ) :
    Settles s { s with reservations := s.reservations.erase l } :=
  { Settles.refl s with reservations := fun _ reservation hl =>
      ⟨reservation, lookup_of_erase hl, rfl, rfl, id⟩ }

theorem settles_retireReservedSubscription (g : GrantId) (l : ℕ) :
    Settles s (s.retireReservedSubscription g l) := by
  unfold retireReservedSubscription
  split
  · exact .refl s
  split
  · exact .refl s
  · exact (settles_retireRouteOwner s _).trans (settles_erase_reservation _ l)

theorem settles_emitReservationExpired (l p now : ℕ) :
    Settles s (s.emitReservationExpired l p now) := by
  unfold emitReservationExpired
  split
  · exact .refl s
  next reservation hr =>
  refine guarded (.refl s) fun hlive => ?_
  refine Settles.trans ?_ (settles_retireRouteOwner _ _)
  refine { Settles.refl s with reservations := fun other reservation' hl => ?_ }
  rw [lookup_insert_eq] at hl
  split at hl
  · next heq =>
    cases hl
    refine ⟨reservation, heq ▸ (mem_reservationForLabel.mp hr).1, rfl, rfl, ?_⟩
    intro hb
    rw [hlive.1] at hb
    cases hb
  · exact ⟨reservation', hl, rfl, rfl, id⟩

theorem settles_retain_reservations (p : ℕ → TerminalReservation → Bool) :
    Settles s { s with reservations := s.reservations.retain p } :=
  { Settles.refl s with
    reservations := fun _ reservation hl =>
      ⟨reservation, lookup_of_retain hl, rfl, rfl, id⟩ }

theorem settles_cancelAttachment (key : Key) (i : Option AttachmentIdentity) :
    Settles s (s.cancelAttachment key i) := by
  cases i with
  | none => exact .refl s
  | some i =>
    exact .registry_of_weakens ((weakens_closeAdapterIf _ key i).trans
      (weakens_cancelStreamIf _ key i))

theorem settles_finishDetach (c : BudgetKey) (key : Key) : Settles s (s.finishDetach c key) := by
  unfold finishDetach
  dsimp only
  split
  · exact { Settles.refl s with }
  refine Settles.trans ?_ (settles_recordChange ..)
  exact { Settles.refl s with bound := fun _ => bound_congr (streams_releaseRoute _ _ _) }

theorem settles_detached (request : PendingDetach) (succeeded : Bool) :
    Settles s (s.detached request succeeded) := by
  unfold detached
  dsimp only
  split
  · exact .refl s
  split
  · exact ((settles_cancelAttachment s _ _).trans (settles_retain_reservations _ _)).trans
      (settles_finishDetach ..)
  · exact settles_finishDetach s _ _

theorem weakens_connectionCleanup (socket : ℕ) (a : Finset Key)
    (runtime : Bool) : ((s.registry.takeConnectionBoundRoutes (.socket socket)).2.takeOwnerRoutes
      (.client (.socket socket))).2.Weakens (s.connectionCleanup socket a runtime).registry :=
  Registry.Weakens.foldl (fun r (e : Key × AttachmentIdentity) =>
    weakens_cancelStreamIf r e.1 e.2) _ _

theorem settles_connectionCleanup (socket : ℕ) (a : Finset Key) (runtime : Bool) :
    Settles s (s.connectionCleanup socket a runtime) :=
  { Settles.refl s with
    bound := fun _ hb => bound_congr rfl
      ((weakens_connectionCleanup s socket a runtime).bound hb) }

end

theorem settles_departRoute (acc : Control × List CleanupCandidate) (route : GrantId × Key) :
    Settles acc.1 (departRoute acc route).1 := by
  unfold departRoute
  split
  · exact .refl acc.1
  next c _ =>
  exact (settles_cancelAttachment acc.1 route.2 c.identity).trans
    (settles_recordChange _ (.detach route.2) none)

theorem streams_foldl_takeOwnerRoutes (g : List GrantId) (r : Registry) :
    (g.foldl (fun r grant => (r.takeOwnerRoutes (.grant grant)).2) r).streams = r.streams := by
  induction g generalizing r with
  | nil => rfl
  | cons _ _ ih => exact ih _

section

variable (s : Control)

theorem settles_departPeers (c : List GrantId) (p : GrantId)
    (snapshot : Finset Key) : Settles s (s.departPeers c p snapshot).1 := by
  refine List.foldlRecOn (motive := fun acc => Settles s acc.1) _ departRoute ?_
    fun acc h route _ => h.trans (settles_departRoute acc route)
  exact settles_registry fun _ => bound_congr (streams_foldl_takeOwnerRoutes _ _)

theorem settles_peerClosed (g : GrantId) (siblings : List GrantId)
    (snapshot : Finset Key) (runtime : Bool) :
    Settles s (s.peerClosed g siblings snapshot runtime) :=
  { (settles_departPeers s _ g snapshot).trans ({ settles_retain_reservations _ _ with }) with }

theorem settles_cleaned (c : CleanupCandidate)
    (o : CleanupRouteOutcome) : Settles s (s.cleaned c o) := by
  unfold cleaned
  dsimp only
  split
  · exact .refl s
  split
  · exact .refl s
  · exact (settles_cancelAttachment s _ _).trans (settles_recordChange ..)

theorem settles_reconcile (l : ClientId → Key → Option (Option Generation))
    (readEpoch : ℕ) (a : Option Key) (m : ℕ) :
    Settles s (s.reconcile l readEpoch a m) :=
  List.foldlRecOn _ _ (Settles.registry_of_weakens
    (weakens_reconcileInventorySlice s.registry l readEpoch a m))
    fun s' h _ _ => h.trans (settles_recordChange s' _ _)

end

theorem distinct_new : Distinct new :=
  { nodup := nodup_zero, below := nofun, unbound := nofun
    boundBelow := fun _ ⟨_, _, hl, _⟩ => nomatch hl
    claimed := nofun, claims := nofun
    labels := fun _ _ hl => nomatch hl }

theorem Distinct.markAdapterBound
    (h : Distinct s) (hf : adapter ∉ s.inFlight) (hbelow : adapter < s.nextAdapter)
    (hbound : ∀ o, r.Bound o → o = adapter ∨ s.registry.Bound o) :
    Distinct { s with registry := r } :=
  { h with
    unbound := fun o ho ho' => by
      rcases hbound o ho' with rfl | hb
      · exact hf ho
      · exact h.unbound o ho hb
    boundBelow := fun o ho => by
      rcases hbound o ho with rfl | hb
      · exact hbelow
      · exact h.boundBelow o hb }

variable {attempt : PendingAttach}

theorem inFlight_attach (hm : attempt ∈ s.attaches) : s.inFlight = attempt.adapter ::ₘ
      { s with attaches := s.attaches.erase attempt }.inFlight := by
  unfold inFlight
  conv_lhs => rw [← cons_erase hm]
  rw [map_cons, cons_add]

theorem inFlight_bind {bind : PendingBind} (hm : bind ∈ s.binds) : s.inFlight = bind.adapter ::ₘ
      { s with binds := s.binds.erase bind }.inFlight := by
  unfold inFlight
  conv_lhs => rw [← cons_erase hm]
  rw [map_cons, add_cons]

theorem settles_erase_attach (s : Control) (attempt : PendingAttach) :
    Settles s { s with attaches := s.attaches.erase attempt } :=
  { Settles.refl s with attaches := erase_le _ _ }

theorem settles_erase_bind (s : Control) (bind : PendingBind) :
    Settles s { s with binds := s.binds.erase bind } :=
  { Settles.refl s with binds := erase_le _ _ }

theorem bound_markAdapterBoundIf (h : (r.markAdapterBoundIf key i g adapter).2.Bound o) :
    o = adapter ∨ r.Bound o := by
  unfold markAdapterBoundIf at h
  split at h
  · exact bound_markAdapterBound h
  · exact .inr h

theorem Distinct.attached (h : Distinct s)
    (hfree : attempt.adapter ∉ s.inFlight) (hbelow : attempt.adapter < s.nextAdapter)
    (g : Option Generation) (registered : Bool) :
    Distinct (s.attached attempt g registered) := by
  have hf : ∀ r : Registry, (∀ adapter, r.Bound adapter → s.registry.Bound adapter) →
      Distinct { s with
        registry := releaseFailedAttachRoute r attempt.owner attempt.key
          attempt.reservation } :=
    fun r hr => h.settle (settles_registry fun adapter hb =>
      hr adapter (bound_congr (streams_releaseFailedAttachRoute ..) hb))
  unfold Control.attached
  cases g with
  | none =>
    refine hf _ fun adapter hb => ?_
    exact ((weakens_closeHandle _ _).trans (weakens_cancelStreamIf ..)).bound hb
  | some =>
    dsimp only
    split
    · refine Distinct.settle ?_ (settles_recordChange ..)
      exact { h.markAdapterBound hfree hbelow fun other => bound_markAdapterBoundIf with }
    · exact hf _ fun adapter => (weakens_closeHandle _ _).bound

theorem Distinct.bound {bind : PendingBind} (h : Distinct s) (hf : bind.adapter ∉ s.inFlight)
    (hbelow : bind.adapter < s.nextAdapter) (g : Option Generation)
    (d : Bool) : Distinct (s.bound bind g d) := by
  have ha : ∀ r : Registry, (∀ adapter, r.Bound adapter → s.registry.Bound adapter) →
      Distinct (({ s with
        registry := abandonUnboundTerminal (closeHandle r bind.adapter) bind.owner
          bind.identity bind.route bind.key } : Control).retireReservedSubscription bind.grantId
            bind.label) := by
    intro r hr
    refine (h.settle (settles_registry fun adapter hb => hr adapter ?_)).settle
      (settles_retireReservedSubscription ..)
    exact (weakens_closeHandle _ _).bound (bound_abandonUnboundTerminal hb)
  have hrecorded : ∀ (g : Generation) (adapter : Adapter),
      (s.registry.recordGenerationIf bind.key bind.identity g).2.Bound adapter →
        s.registry.Bound adapter := by
    intro g adapter hb
    unfold recordGenerationIf at hb
    split at hb
    · exact (weakens_recordGeneration ..).bound hb
    · exact hb
  unfold Control.bound
  cases g with
  | none => exact ha _ fun _ => id
  | some g =>
    dsimp only
    split
    · exact ha _ (hrecorded g)
    have hm : ∀ o, ((s.registry.recordGenerationIf bind.key bind.identity
        g).2.markAdapterBoundIf bind.key bind.identity g
          bind.adapter).2.Bound o → o = bind.adapter ∨ s.registry.Bound o :=
      fun o hb => (bound_markAdapterBoundIf hb).imp_right (hrecorded g o)
    split
    · exact { h.markAdapterBound hf hbelow hm with }
    refine (h.markAdapterBound hf hbelow fun o hb => hm o ?_).settle
      (settles_retireReservedSubscription ..)
    exact ((weakens_closeHandle _ _).trans (weakens_cancelStreamIf ..)).bound hb

theorem bound_reserveRoute (h : (r.reserveRoute o key l).2.Bound adapter) : r.Bound adapter :=
  bound_congr (streams_reserveRoute ..) h

section

variable (h : Distinct s)
include h

theorem Distinct.launch {s' : Control} (hf : s'.inFlight = s.nextAdapter ::ₘ s.inFlight)
    (hn : s'.nextAdapter = s.nextAdapter + 1)
    (hb : ∀ adapter, s'.registry.Bound adapter → s.registry.Bound adapter)
    (claimed : ∀ bind ∈ s'.binds, ∀ reservation ∈ s'.reservations.lookup bind.label,
      reservation.state = .bound ∧ reservation.key = bind.key ∧
        reservation.identity = bind.identity)
    (labels : ∀ label reservation, s'.reservations.lookup label = some reservation →
      label < s'.nextLabel)
    (claims : ∀ bind ∈ s'.binds, bind.label < s'.nextLabel) : Distinct s' := by
  have hbelow : ∀ adapter ∈ s'.inFlight, adapter = s.nextAdapter ∨ adapter ∈ s.inFlight :=
    fun adapter hm => mem_cons.mp (hf ▸ hm)
  refine { nodup := ?_, below := fun adapter hm => ?_, unbound := fun adapter hm ha => ?_
           boundBelow := fun adapter ha => ?_, claimed, labels, claims }
  · rw [hf]
    exact nodup_cons.mpr ⟨fun hm => lt_irrefl _ (h.below _ hm), h.nodup⟩
  · rw [hn]
    rcases hbelow adapter hm with rfl | hm
    · exact Nat.lt_succ_self _
    · exact Nat.lt_succ_of_lt (h.below adapter hm)
  · rcases hbelow adapter hm with rfl | hm
    · exact lt_irrefl _ (h.boundBelow _ (hb _ ha))
    · exact h.unbound adapter hm (hb adapter ha)
  · rw [hn]
    exact Nat.lt_succ_of_lt (h.boundBelow adapter (hb adapter ha))

theorem Distinct.attach (socket : ℕ) (key : Key) (a : Bool) : Distinct (s.attach socket key a) := by
  refine guarded h fun _ => ?_
  dsimp only
  split
  · exact h.settle (settles_registry fun _ => bound_reserveRoute)
  split
  · exact h.settle (settles_registry fun _ hb => bound_reserveRoute
      (bound_congr (streams_releaseFailedAttachRoute ..) hb))
  have hb : ∀ adapter, ((s.registry.reserveRoute (unixOwner socket).budgetKey key
      maxAttachRoutesPerOwner).2.startAttach (unixOwner socket) key).2.Bound adapter →
        s.registry.Bound adapter :=
    fun adapter hb => bound_reserveRoute (bound_startAttach hb)
  refine h.launch ?_ rfl hb h.claimed h.labels h.claims
  rw [inFlight, map_cons, cons_add, inFlight]

theorem Distinct.reserveWebrtcTerminal (g : GrantId) (key : Key) (p now : ℕ) (c a : Bool) :
    Distinct (s.reserveWebrtcTerminal g key p now c a) := by
  refine guarded h fun _ => ?_
  dsimp only
  have hb : ∀ adapter, ((s.registry.reserveRoute (peerOwner g key).budgetKey key
      maxAttachRoutesPerOwner).2.startAttach (peerOwner g key) key).2.Bound adapter →
        s.registry.Bound adapter :=
    fun adapter hb => bound_reserveRoute (bound_startAttach hb)
  split
  · exact h.settle (settles_registry fun _ => bound_reserveRoute)
  split
  · refine Distinct.settle ?_ (settles_recordChange ..)
    have hk := h.settle (settles_registry hb)
    refine { hk with claimed := ?_, labels := ?_, claims := ?_ }
    · intro bind hbind reservation hl
      rw [mem_def, lookup_insert_ne (h.claims bind hbind).ne] at hl
      exact h.claimed bind hbind reservation hl
    · intro l reservation hl
      rw [lookup_insert_eq] at hl
      split at hl
      · next heq => exact heq ▸ Nat.lt_succ_self _
      · exact Nat.lt_succ_of_lt (h.labels l reservation hl)
    · exact fun bind hbind => Nat.lt_succ_of_lt (h.claims bind hbind)
  · exact h.settle (settles_registry fun adapter ha =>
      hb adapter (bound_abandonUnboundTerminal ha))

theorem Distinct.bindReserved (g : GrantId) (l now : ℕ)
    (serviceable : Bool) : Distinct (s.bindReserved g l now serviceable) := by
  unfold Control.bindReserved
  split
  · exact h
  split
  · exact h
  next reservation hr =>
  have hl := (mem_reservationForLabel.mp hr).1
  split
  · exact h
  next hlive =>
  have hlive : reservation.state = .live := Decidable.not_not.mp hlive
  split
  · exact h.settle (settles_emitReservationExpired ..)
  split
  · -- the label was live, so no bind had claimed it
    have hu : ∀ bind ∈ s.binds, bind.label ≠ l := by
      intro bind hb heq
      have hbound := (h.claimed bind hb reservation (heq ▸ hl)).1
      rw [hlive] at hbound
      cases hbound
    refine h.launch ?_ rfl (fun _ => id) ?_ ?_ ?_
    · rw [inFlight, map_cons, add_cons, inFlight]
    · intro bind hb o ho
      rcases mem_cons.mp hb with rfl | hb
      · rw [mem_def, lookup_insert] at ho
        cases ho
        exact ⟨rfl, rfl, rfl⟩
      · rw [mem_def, lookup_insert_ne (hu bind hb)] at ho
        exact h.claimed bind hb o ho
    · intro o reservation' ho
      rw [lookup_insert_eq] at ho
      split at ho
      · next heq => exact heq ▸ h.labels l reservation hl
      · exact h.labels o reservation' ho
    · intro bind hb
      rcases mem_cons.mp hb with rfl | hb
      · exact h.labels l reservation hl
      · exact h.claims bind hb
  · exact h.settle (settles_retireReservedSubscription ..)

theorem Distinct.step (step : Step) : Distinct (s.step step) := by
  cases step with
  | attach socket key a => exact h.attach socket key a
  | attached attempt g registered =>
    refine guarded h fun hm => ?_
    have hn := h.nodup
    rw [inFlight_attach hm] at hn
    refine (h.settle (settles_erase_attach s attempt)).attached
      (nodup_cons.mp hn).1 (h.below _ ?_) g registered
    rw [inFlight_attach hm]
    exact mem_cons_self _ _
  | queried q =>
    refine guarded h fun _ => ?_
    have hq : Distinct { s with queries := s.queries.erase q } := { h with }
    split
    · exact hq.reserveWebrtcTerminal ..
    · exact hq
  | bindReserved grantId l now serviceable => exact h.bindReserved grantId l now serviceable
  | bound bind g d =>
    refine guarded h fun hm => ?_
    have hn := h.nodup
    rw [inFlight_bind hm] at hn
    refine (h.settle (settles_erase_bind s bind)).bound (nodup_cons.mp hn).1 (h.below _ ?_) g d
    rw [inFlight_bind hm]
    exact mem_cons_self _ _
  | connect | detach | toldClosed | cleanupLost => exact { h with }
  | signal =>
    rw [Control.step]
    split
    · exact h
    · exact { h with }
  | hello => exact guarded h fun _ => { h with }
  | webrtcAttach =>
    rw [Control.step]
    unfold webrtcAttach
    split
    · exact h
    exact guarded h fun _ => { h with }
  | expire => exact h.settle (settles_emitReservationExpired _ _ _ _)
  | retireReserved => exact h.settle (settles_retireReservedSubscription ..)
  | detached request =>
    refine guarded h fun _ => ?_
    have hd : Distinct { s with detaches := s.detaches.erase request } := { h with }
    exact hd.settle (settles_detached ..)
  | connectionCleanup => exact guarded h fun _ => h.settle (settles_connectionCleanup ..)
  | peerClosed => exact h.settle (settles_peerClosed _ _ _ _ _)
  | cleaned c =>
    refine guarded h fun _ => ?_
    have hc : Distinct { s with cleanups := s.cleanups.erase c } := { h with }
    exact hc.settle (settles_cleaned ..)
  | reconcile => exact h.settle (settles_reconcile _ _ _ _ _)
  | retainSessions =>
    exact h.settle (.registry_of_weakens (weakens_retainSessionsPresentIn _ _))
  | closeSession =>
    exact h.settle (.registry_of_weakens (weakens_closeAdaptersForSession _ _))

theorem Distinct.run (steps : List Step) : Distinct (s.run steps) := by
  induction steps generalizing s with
  | nil => exact h
  | cons step _ ih => exact ih (h.step step)

end

/-- An adapter on its way to Core belongs to one attempt and to no stream, and what a bind claimed
stays claimed for its key and attachment. -/
theorem run_in_flight_apart (steps : List Step) : let s := new.run steps
    (s.attaches.map PendingAttach.adapter + s.binds.map PendingBind.adapter).Nodup ∧
      (∀ key stream adapter, s.registry.streams.lookup key = some stream →
        stream.adapter = some adapter → adapter ∉ s.inFlight) ∧
      ∀ bind ∈ s.binds, ∀ reservation ∈ s.reservations.lookup bind.label,
        reservation.state = .bound ∧ reservation.key = bind.key ∧
          reservation.identity = bind.identity := by
  have h := distinct_new.run steps
  exact ⟨h.nodup, fun key stream adapter hs ha hm => h.unbound adapter hm ⟨key, stream, hs, ha⟩,
    h.claimed⟩

end Control

end BotsterHub.Attach
