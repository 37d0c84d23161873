import BotsterHub.Attach.Settling

/-!
The route set of an owner covers what the owner has.

A failed attempt gives back the key it inserted unless a stream of its owner is on it. A second
attempt of the same owner that found the key held can lose it that way, so what waits and what was
acknowledged is covered as long as no request gives back a key that its owner still needs.
-/

namespace BotsterHub.Attach

open Machine Multiset List Option AList Finset Registry Control

namespace Control

variable {s s' : Control} {key : Key} {orderly : Prop} {gone : Set BudgetKey}

def reservationClaims (reservation : TerminalReservation) : Multiset (BudgetKey × Key) :=
  if reservation.state = .live then {(reservation.owner.budgetKey, reservation.key)} else 0

/-- The started attaches that have not settled. -/
def claims (s : Control) : Multiset (BudgetKey × Key) :=
  s.attaches.map (fun attempt => (attempt.owner.budgetKey, attempt.key)) +
    s.binds.map (fun bind => (bind.owner.budgetKey, bind.key)) +
    s.reservations.total reservationClaims

def Admitted (s : Control) : BudgetKey → Prop
  | .client (.socket number) => number ∈ s.unixAdmissions
  | .client _ => False
  | .grant grantId => grantId ∈ s.admittedPeers

instance (s : Control) : ∀ owner, Decidable (s.Admitted owner)
  | .client (.socket number) => inferInstanceAs (Decidable (number ∈ s.unixAdmissions))
  | .client (.subscription _) | .client .unnamed => isFalse id
  | .grant grantId => inferInstanceAs (Decidable (grantId ∈ s.admittedPeers))

/-- The owner is or was connected; a peer that was closed does not come back. -/
def Known (s : Control) : BudgetKey → Prop
  | .client (.socket number) => number < s.nextSocket
  | .client _ => False
  | .grant grantId => grantId ∈ s.redeemed ∧ (grantId ∉ s.admittedPeers → grantId ∉ s.livePeers)

def Roster (s : Control) : Prop :=
  (∀ owner, s.Admitted owner → s.Known owner) ∧ s.livePeers ⊆ s.redeemed

/-- Streams are always covered, what waits and was acknowledged in an orderly run. -/
structure Coverage (orderly : Prop) (s : Control) : Prop where
  roster : s.Roster
  streams : ∀ key stream, s.registry.streams.lookup key = some stream →
    s.Known stream.owner.budgetKey ∧
      (s.Admitted stream.owner.budgetKey → key ∈ s.registry.routes stream.owner.budgetKey)
  size : ∀ owner, (s.registry.routes owner).card ≤ maxAttachRoutesPerOwner
  claims : ∀ slot ∈ s.claims, s.Known slot.1 ∧
    (orderly → s.Admitted slot.1 → slot.2 ∈ s.registry.routes slot.1)
  told : ∀ slot ∈ s.told, s.Known slot.1 ∧
    (orderly → s.Admitted slot.1 → slot.2 ∈ s.registry.routes slot.1)

/-- A connected owner has the key in its set, or nothing on it. -/
def Settled (s : Control) (slot : BudgetKey × Key) : Prop :=
  s.Admitted slot.1 → slot.2 ∈ s.registry.routes slot.1 ∨ slot ∉ s.claims ∧ slot ∉ s.told

instance (s : Control) (slot : BudgetKey × Key) : Decidable (s.Settled slot) :=
  inferInstanceAs (Decidable (_ → _ ∨ _ ∧ _))

structure Lessens (gone : Set BudgetKey) (s s' : Control) : Prop where
  roster : s.Roster → s'.Roster
  streams : ∀ key stream', s'.registry.streams.lookup key = some stream' →
    ∃ stream, s.registry.streams.lookup key = some stream ∧ stream'.owner = stream.owner
  routes : ∀ owner ∉ gone, s.registry.routes owner ⊆ s'.registry.routes owner
  size : (∀ owner, (s.registry.routes owner).card ≤ maxAttachRoutesPerOwner) →
    ∀ owner, (s'.registry.routes owner).card ≤ maxAttachRoutesPerOwner
  claims : s'.claims ≤ s.claims
  told : s'.told ⊆ s.told
  known : ∀ owner, s.Known owner → s'.Known owner
  admitted : ∀ owner, s.Known owner → s'.Admitted owner → s.Admitted owner

theorem Lessens.refl (gone : Set BudgetKey) (s : Control) : Lessens gone s s :=
  ⟨id, fun _ stream h => ⟨stream, h, rfl⟩, fun _ _ => Finset.Subset.rfl, id, le_rfl,
    Finset.Subset.rfl, fun _ => id, fun _ _ => id⟩

theorem Lessens.trans (h : Lessens gone s s') (h' : Lessens gone s' s'') : Lessens gone s s'' := by
  refine
    { roster := h'.roster ∘ h.roster, streams := fun key stream'' hl => ?_
      routes := fun o hg => (h.routes o hg).trans (h'.routes o hg)
      size := h'.size ∘ h.size, claims := h'.claims.trans h.claims
      told := h'.told.trans h.told
      known := fun o => h'.known o ∘ h.known o
      admitted := fun o hk ha =>
        h.admitted o hk (h'.admitted o (h.known o hk) ha) }
  obtain ⟨stream', hl', ho'⟩ := h'.streams key stream'' hl
  obtain ⟨stream, hl, ho⟩ := h.streams key stream' hl'
  exact ⟨stream, hl, ho'.trans ho⟩

theorem Coverage.depart (h : Coverage orderly s) (hl : Lessens gone s s')
    (hg : ∀ o ∈ gone, ¬s'.Admitted o) : Coverage orderly s' := by
  have hkept : ∀ slot : BudgetKey × Key, s.Known slot.1 →
      (s.Admitted slot.1 → slot.2 ∈ s.registry.routes slot.1) →
        s'.Admitted slot.1 → slot.2 ∈ s'.registry.routes slot.1 := by
    intro slot hk hc ha
    exact hl.routes slot.1 (fun hm => hg _ hm ha) (hc (hl.admitted _ hk ha))
  refine
    { roster := hl.roster h.roster, streams := fun key stream' hlookup => ?_
      size := hl.size h.size, claims := fun slot hs => ?_, told := fun slot hs => ?_ }
  · obtain ⟨stream, hstream, howner⟩ := hl.streams key stream' hlookup
    obtain ⟨hk, hc⟩ := h.streams key stream hstream
    rw [howner]
    exact ⟨hl.known _ hk, hkept (stream.owner.budgetKey, key) hk hc⟩
  · obtain ⟨hk, hc⟩ := h.claims slot (mem_of_le hl.claims hs)
    exact ⟨hl.known _ hk, fun ho => hkept slot hk (hc ho)⟩
  · obtain ⟨hk, hc⟩ := h.told slot (hl.told hs)
    exact ⟨hl.known _ hk, fun ho => hkept slot hk (hc ho)⟩

theorem Coverage.lessen (h : Coverage orderly s) (hl : Lessens ∅ s s') : Coverage orderly s' :=
  h.depart hl fun o hm => absurd hm (Set.notMem_empty o)

section

variable (h : Coverage orderly s)

include h

theorem Coverage.releaseRoute
    (hstream : ∀ stream, s.registry.streams.lookup key = some stream → stream.owner.budgetKey ≠ o)
    (hf : orderly → Settled { s with registry := s.registry.releaseRoute o key } (o, key)) :
    Coverage orderly { s with registry := s.registry.releaseRoute o key } := by
  have hr : ∀ slot : BudgetKey × Key, slot ≠ (o, key) → slot.2 ∈ s.registry.routes slot.1 →
        slot.2 ∈ (s.registry.releaseRoute o key).routes slot.1 := by
    intro slot hne hs
    rw [routes_releaseRoute]
    split
    · next heq =>
      rw [heq] at hs
      exact mem_erase.mpr ⟨fun hkey => hne (Prod.ext heq hkey), hs⟩
    · exact hs
  have hfree (ho : orderly) (ha : s.Admitted o) : (o, key) ∉ s.claims ∧ (o, key) ∉ s.told := by
    refine (hf ho ha).resolve_left fun hm => ?_
    rw [routes_releaseRoute, if_pos rfl] at hm
    exact notMem_erase _ _ hm
  refine
    { roster := h.roster, streams := fun key' stream hl => ?_, size := fun other => ?_
      claims := fun slot hs => ?_, told := fun slot hs => ?_ }
  · change (s.registry.releaseRoute o key).streams.lookup key' = some stream at hl
    rw [streams_releaseRoute] at hl
    obtain ⟨hk, hc⟩ := h.streams key' stream hl
    refine ⟨hk, fun ha => hr (stream.owner.budgetKey, key') ?_ (hc ha)⟩
    rintro heq
    obtain ⟨howner, rfl⟩ := Prod.mk.inj heq
    exact hstream stream hl howner
  · show ((s.registry.releaseRoute o key).routes other).card ≤ _
    rw [routes_releaseRoute]
    split
    · exact (card_le_card (erase_subset _ _)).trans (h.size o)
    · exact h.size other
  · obtain ⟨hk, hc⟩ := h.claims slot hs
    refine ⟨hk, fun ho ha => hr slot ?_ (hc ho ha)⟩
    rintro rfl
    exact (hfree ho ha).1 hs
  · obtain ⟨hk, hc⟩ := h.told slot hs
    refine ⟨hk, fun ho ha => hr slot ?_ (hc ho ha)⟩
    rintro rfl
    exact (hfree ho ha).2 hs

theorem Coverage.releaseFailedAttachRoute (o : AttachStreamOwner) (key : Key)
    (hf : orderly → Settled { s with
      registry := releaseFailedAttachRoute s.registry o key route } (o.budgetKey, key)) :
    Coverage orderly { s with registry := releaseFailedAttachRoute s.registry o key route } := by
  unfold Control.releaseFailedAttachRoute at hf ⊢
  split
  · next hr =>
    rw [if_pos hr] at hf
    refine h.releaseRoute (fun stream hl heq => ?_) hf
    have hm := streamOwnerMatches_iff.mpr ⟨stream, hl, heq⟩
    rw [hr.2] at hm
    cases hm
  · exact h

theorem Coverage.tell (hk : s.Known slot.1)
    (hcovered : orderly → s.Admitted slot.1 → slot.2 ∈ s.registry.routes slot.1) :
    Coverage orderly { s with told := insert slot s.told } := by
  refine { h with told := fun o hother => ?_ }
  rcases mem_insert.mp hother with rfl | hother
  · exact ⟨hk, hcovered⟩
  · exact h.told o hother

end

variable {attempt : PendingAttach}

variable {bind : PendingBind}

variable {reservation : TerminalReservation} {label : ℕ}

theorem claims_reservation (hl : s.reservations.lookup label = some reservation)
    (hlive : reservation.state = .live) :
    s.claims = (reservation.owner.budgetKey, reservation.key) ::ₘ
      { s with reservations := s.reservations.erase label }.claims := by
  unfold claims
  rw [total_erase _ _ hl, reservationClaims, if_pos hlive, singleton_add, add_cons]

theorem claims_insert (hs : reservation.state ≠ .live) :
    { s with reservations := s.reservations.insert label reservation }.claims =
      { s with reservations := s.reservations.erase label }.claims := by
  unfold claims
  rw [total_insert_eq, reservationClaims, if_neg hs, zero_add]

variable {r : Registry}

theorem lessens_registry (hs : ∀ key stream', r.streams.lookup key = some stream' →
      ∃ stream, s.registry.streams.lookup key = some stream ∧ stream'.owner = stream.owner)
    (hr : ∀ o, r.routes o = s.registry.routes o) :
    Lessens gone s { s with registry := r } :=
  { Lessens.refl gone s with
    streams := hs
    routes := fun o _ => (hr o).ge
    size := fun hsize o => (congrArg Finset.card (hr o)).le.trans (hsize o) }

theorem Lessens.of_weakens (h : s.registry.Weakens r) :
    Lessens gone s { s with registry := r } := by
  refine lessens_registry (fun key stream' hl => ?_) h.routes_eq
  obtain ⟨stream, hs, ho, -⟩ := h.streams key stream' hl
  exact ⟨stream, hs, ho⟩

theorem Lessens.of_streams (hs : r.streams = s.registry.streams)
    (hr : r.ownerRoutes = s.registry.ownerRoutes) : Lessens gone s { s with registry := r } :=
  .of_weakens (.of_streams hs hr)

section

variable (s)

theorem lessens_recordChange (c : AttachedSubscriptionChange)
    (g : Option GrantId) : Lessens gone s (s.recordChange c g) := by
  obtain ⟨hs, hr⟩ := streams_recordAttachedSubscriptionChange s.registry s.counters c g
  exact { Lessens.of_streams hs hr with }

theorem lessens_cancelAttachment (key : Key) (i : Option AttachmentIdentity) :
    Lessens gone s (s.cancelAttachment key i) := by
  cases i with
  | none => exact .refl _ s
  | some i =>
    exact .of_weakens ((weakens_closeAdapterIf _ key i).trans (weakens_cancelStreamIf _ key i))

theorem lessens_retain_reservations (p : ℕ → TerminalReservation → Bool) :
    Lessens gone s { s with reservations := s.reservations.retain p } := by
  refine { Lessens.refl gone s with claims := add_le_add le_rfl ?_ }
  refine total_le_of_lookup_le _ _ _ fun label => ?_
  rw [lookup_retain]
  cases s.reservations.lookup label with
  | none => exact le_rfl
  | some reservation =>
    cases hp : p label reservation
    · rw [filter_some, if_neg (by rw [hp]; exact Bool.false_ne_true)]
      exact zero_le _
    · rw [filter_some, if_pos hp]

theorem lessens_erase_reservation (label : ℕ) :
    Lessens ∅ s { s with reservations := s.reservations.erase label } := by
  refine { Lessens.refl ∅ s with claims := add_le_add le_rfl ?_ }
  refine total_le_of_lookup_le _ _ _ fun other => ?_
  rw [lookup_erase_eq]
  split
  · exact zero_le _
  · exact le_rfl

theorem lessens_erase_attach (attempt : PendingAttach) :
    Lessens gone s { s with attaches := s.attaches.erase attempt } :=
  { Lessens.refl gone s with
    claims := add_le_add (add_le_add (map_le_map (erase_le _ _)) le_rfl)
      le_rfl }

theorem lessens_erase_bind (bind : PendingBind) :
    Lessens gone s { s with binds := s.binds.erase bind } :=
  { Lessens.refl gone s with
    claims := add_le_add (add_le_add le_rfl (map_le_map (erase_le _ _)))
      le_rfl }

end

section

variable (h : Coverage orderly s)

include h

theorem Coverage.abandonUnboundTerminal (o : AttachStreamOwner) (i : AttachmentIdentity) (key : Key)
    (hf : orderly → Settled { s with
      registry := abandonUnboundTerminal s.registry o i route key } (o.budgetKey, key)) :
    Coverage orderly { s with registry := abandonUnboundTerminal s.registry o i route key } :=
  (h.lessen (.of_weakens (weakens_cancelStreamIf _ key i))).releaseFailedAttachRoute o key hf

theorem Coverage.retireRouteOwner (hf : orderly →
      (s.retireRouteOwner reservation).Settled (reservation.owner.budgetKey, reservation.key)) :
    Coverage orderly (s.retireRouteOwner reservation) := by
  unfold Control.retireRouteOwner at hf ⊢
  split
  · exact h
  · next hb =>
    rw [if_neg hb] at hf
    exact h.abandonUnboundTerminal _ _ _ hf

theorem Coverage.retireReservedSubscription (g : GrantId) {label : ℕ}
    (hf : orderly → ∀ reservation ∈ s.reservations.lookup label,
      (s.retireReservedSubscription g label).Settled
        (reservation.owner.budgetKey, reservation.key)) :
    Coverage orderly (s.retireReservedSubscription g label) := by
  unfold Control.retireReservedSubscription at hf ⊢
  cases ha : s.webrtcAdmissions.lookup g with
  | none => exact h
  | some admission =>
    simp only [ha] at hf ⊢
    cases hr : s.reservationForLabel label admission.peerGeneration with
    | none => exact h
    | some reservation =>
      have he : ({ s.retireRouteOwner reservation with
          reservations := (s.retireRouteOwner reservation).reservations.erase label } : Control) =
          { s with reservations := s.reservations.erase label }.retireRouteOwner reservation := by
        unfold Control.retireRouteOwner
        split <;> rfl
      simp only [hr, he] at hf ⊢
      exact (h.lessen (lessens_erase_reservation s label)).retireRouteOwner fun ho =>
        hf ho reservation (mem_reservationForLabel.mp hr).1

theorem Coverage.emitReservationExpired {label p now : ℕ}
    (hf : orderly → ∀ reservation ∈ s.reservations.lookup label,
      (s.emitReservationExpired label p now).Settled
        (reservation.owner.budgetKey, reservation.key)) :
    Coverage orderly (s.emitReservationExpired label p now) := by
  unfold Control.emitReservationExpired at hf ⊢
  cases hr : s.reservationForLabel label p with
  | none => exact h
  | some reservation =>
    simp only [hr] at hf ⊢
    split
    · next hlive =>
      rw [if_pos hlive] at hf
      have hl : Lessens ∅ s { s with
          reservations := s.reservations.insert label { reservation with state := .expired } } :=
        { lessens_erase_reservation s label with
          claims := (claims_insert ReservationState.noConfusion).le.trans
            (lessens_erase_reservation s label).claims }
      exact (h.lessen hl).retireRouteOwner fun ho =>
        hf ho reservation (mem_reservationForLabel.mp hr).1
    · exact h

end

theorem lessens_markAdapterBoundIf (s : Control) (key : Key) (i : AttachmentIdentity)
    (g : Generation) (a : Adapter) :
    Lessens ∅ s { s with registry := (s.registry.markAdapterBoundIf key i g a).2 } := by
  refine lessens_registry (fun key' stream' hl => ?_) fun owner => ?_
  · unfold markAdapterBoundIf at hl
    split at hl
    · rw [lookup_markAdapterBound] at hl
      split at hl
      · next heq =>
        obtain ⟨stream, hs, rfl⟩ := map_eq_some_iff.mp hl
        exact ⟨stream, heq ▸ hs, rfl⟩
      · exact ⟨stream', hl, rfl⟩
    · exact ⟨stream', hl, rfl⟩
  · unfold markAdapterBoundIf
    split
    · unfold markAdapterBound
      split <;> rfl
    · rfl

theorem Coverage.attached (h : Coverage orderly s)
    (hmem : attempt ∈ s.attaches) (g : Option Generation) (registered : Bool)
    (hf : orderly → ({ s with attaches := s.attaches.erase attempt }.attached attempt g
      registered).Settled (attempt.owner.budgetKey, attempt.key)) :
    Coverage orderly ({ s with attaches := s.attaches.erase attempt }.attached attempt
      g registered) := by
  have he := h.lessen (lessens_erase_attach s attempt)
  obtain ⟨hk, hcovered⟩ := h.claims (attempt.owner.budgetKey, attempt.key)
    (mem_add.mpr (.inl (mem_add.mpr (.inl (mem_map_of_mem _ hmem)))))
  unfold Control.attached at hf ⊢
  cases g with
  | none =>
    refine (he.lessen (.of_weakens ?_)).releaseFailedAttachRoute attempt.owner attempt.key hf
    exact (weakens_closeHandle _ _).trans (weakens_cancelStreamIf ..)
  | some g =>
    dsimp only at hf ⊢
    split
    · refine Coverage.lessen ?_ (lessens_recordChange ..)
      have hm := lessens_markAdapterBoundIf { s with attaches := s.attaches.erase attempt }
        attempt.key attempt.identity g attempt.adapter
      refine (he.lessen hm).tell hk fun ho ha => ?_
      exact hm.routes _ (Set.notMem_empty _) (hcovered ho ha)
    · next hlost =>
      rw [if_neg hlost] at hf
      exact (he.lessen (.of_weakens (weakens_closeHandle _ _))).releaseFailedAttachRoute
        attempt.owner attempt.key hf

theorem lessens_recordGenerationIf (s : Control) (key : Key) (i : AttachmentIdentity)
    (g : Generation) :
    Lessens ∅ s { s with registry := (s.registry.recordGenerationIf key i g).2 } := by
  unfold recordGenerationIf
  split
  · exact .of_weakens (weakens_recordGeneration ..)
  · exact .refl _ s

/-- A claimed reservation is forgotten, whatever has become of the registry. -/
theorem retireReservedSubscription_of_bound (s : Control) (g : GrantId)
    (hc : ∀ reservation ∈ s.reservations.lookup label, reservation.state = .bound) :
    ∃ reservations, Lessens ∅ s { s with reservations } ∧ ∀ r : Registry,
      ({ s with registry := r } : Control).retireReservedSubscription g label =
        { s with registry := r, reservations } := by
  cases ha : s.webrtcAdmissions.lookup g with
  | none => exact ⟨_, .refl _ s, fun _ => by simp only [retireReservedSubscription, ha]⟩
  | some admission =>
    cases hr : s.reservationForLabel label admission.peerGeneration with
    | none =>
      refine ⟨_, .refl _ s, fun r => ?_⟩
      have hr' : ({ s with registry := r } : Control).reservationForLabel label
        admission.peerGeneration = none := hr
      simp only [retireReservedSubscription, ha, hr']
    | some reservation =>
      refine ⟨_, lessens_erase_reservation s label, fun r => ?_⟩
      have hr' : ({ s with registry := r } : Control).reservationForLabel label
        admission.peerGeneration = some reservation := hr
      have hb := hc reservation (mem_reservationForLabel.mp hr).1
      simp only [retireReservedSubscription, ha, hr', retireRouteOwner, if_pos hb]

theorem Coverage.bound (h : Coverage orderly s) (hmem : bind ∈ s.binds)
    (hc : ∀ reservation ∈ s.reservations.lookup bind.label, reservation.state = .bound)
    (g : Option Generation) (d : Bool)
    (hf : orderly → ({ s with binds := s.binds.erase bind }.bound bind g d).Settled
      (bind.owner.budgetKey, bind.key)) :
    Coverage orderly ({ s with binds := s.binds.erase bind }.bound bind g d) := by
  have he := h.lessen (lessens_erase_bind s bind)
  obtain ⟨hk, hcovered⟩ := h.claims (bind.owner.budgetKey, bind.key)
    (mem_add.mpr (.inl (mem_add.mpr (.inr (mem_map_of_mem _ hmem)))))
  obtain ⟨reservations, hl, hretire⟩ :=
    retireReservedSubscription_of_bound { s with binds := s.binds.erase bind } bind.grantId hc
  have hless (r : Registry) : Lessens ∅ { s with binds := s.binds.erase bind, registry := r }
      { s with binds := s.binds.erase bind, registry := r, reservations } :=
    { Lessens.refl ∅ _ with claims := hl.claims }
  have ha (r : Registry) (hr : Lessens ∅ { s with binds := s.binds.erase bind }
      { s with binds := s.binds.erase bind, registry := r }) :=
    ((he.lessen hr).lessen (.of_weakens (weakens_closeHandle r bind.adapter))).lessen (hless _)
  unfold Control.bound at hf ⊢
  cases g with
  | none =>
    simp only [hretire] at hf ⊢
    exact (ha _ (.refl _ _)).abandonUnboundTerminal bind.owner bind.identity bind.key hf
  | some g =>
    have hrecorded := lessens_recordGenerationIf { s with binds := s.binds.erase bind } bind.key
      bind.identity g
    simp only [hretire] at hf ⊢
    split
    · next hlost =>
      rw [if_pos hlost] at hf
      exact (ha _ hrecorded).abandonUnboundTerminal bind.owner bind.identity bind.key hf
    have hm := hrecorded.trans (lessens_markAdapterBoundIf _ bind.key bind.identity g bind.adapter)
    split
    · refine (he.lessen hm).tell hk fun ho hadmitted => ?_
      exact hm.routes _ (Set.notMem_empty _) (hcovered ho hadmitted)
    exact ((he.lessen hm).lessen (.of_weakens
      ((weakens_closeHandle _ _).trans (weakens_cancelStreamIf ..)))).lessen (hless _)

theorem Coverage.claim (h : Coverage orderly s)
    (hl : s.reservations.lookup label = some reservation)
    (hlive : reservation.state = .live)
    (hb : (bind.owner.budgetKey, bind.key) = (reservation.owner.budgetKey, reservation.key)) :
    Coverage orderly { s with
      reservations := s.reservations.insert label { reservation with state := .bound }
      nextAdapter := s.nextAdapter + 1
      binds := bind ::ₘ s.binds } := by
  refine h.lessen { Lessens.refl ∅ s with claims := le_of_eq ?_ }
  rw [claims_reservation hl hlive]
  unfold Control.claims
  rw [Multiset.map_cons, hb, Multiset.add_cons, Multiset.cons_add, AList.total_insert_eq,
    reservationClaims, if_neg nofun, zero_add]

theorem Coverage.bindReserved (h : Coverage orderly s) {g : GrantId} {label now : ℕ}
    {serviceable : Bool} (hf : orderly → ∀ reservation ∈ s.reservations.lookup label,
      (s.bindReserved g label now serviceable).Settled
        (reservation.owner.budgetKey, reservation.key)) :
    Coverage orderly (s.bindReserved g label now serviceable) := by
  unfold Control.bindReserved at hf ⊢
  cases ha : s.webrtcAdmissions.lookup g with
  | none => exact h
  | some admission =>
    simp only [ha] at hf ⊢
    cases hr : s.reservationForLabel label admission.peerGeneration with
    | none => exact h
    | some reservation =>
      simp only [hr] at hf ⊢
      split_ifs at hf ⊢ with hl _ _
      · exact h
      · exact h.emitReservationExpired hf
      · exact h.claim (mem_reservationForLabel.mp hr).1 (Decidable.not_not.mp hl) rfl
      · exact h.retireReservedSubscription g hf

theorem lessens_reserveRoute (s : Control) (owner : BudgetKey) (key : Key) :
    Lessens ∅ s { s with
      registry := (s.registry.reserveRoute owner key maxAttachRoutesPerOwner).2 } := by
  refine { Lessens.refl ∅ s with
    streams := fun key' stream hl => ?_, routes := fun o _ => ?_
    size := fun hs o => ?_ }
  · rw [streams_reserveRoute] at hl
    exact ⟨stream, hl, rfl⟩
  all_goals
    rcases reserveRoute_cases s.registry owner key maxAttachRoutesPerOwner with
      ⟨-, -, hr⟩ | ⟨-, hr⟩ | ⟨-, -, hroom, hr⟩
  -- The routes grow.
  · rw [hr]
  · rw [hr]
  · rw [hr]
    dsimp only
    split
    · next heq =>
      rw [heq]
      exact subset_insert _ _
    · exact Finset.Subset.rfl
  -- They stay within the limit.
  · rw [hr]
    exact hs o
  · rw [hr]
    exact hs o
  rw [hr]
  dsimp only
  split
  · exact (card_insert_le _ _).trans hroom
  · exact hs o

theorem settled_releaseFailedAttachRoute {owner : AttachStreamOwner} {key : Key}
    {route : RouteReservation} {r : Registry} (hk : key ∈ r.routes owner.budgetKey)
    (hi : route = .inserted →
      (owner.budgetKey, key) ∉ s.claims ∧ (owner.budgetKey, key) ∉ s.told) :
    ({ s with registry := releaseFailedAttachRoute r owner key route } : Control).Settled
      (owner.budgetKey, key) := by
  intro _
  unfold releaseFailedAttachRoute
  split
  · next hr => exact .inr (hi hr.1)
  · exact .inl hk

section

variable (h : Coverage orderly s)

include h

theorem Coverage.startAttach (owner : AttachStreamOwner)
    (hk : s.Known owner.budgetKey) (hroute : key ∈ s.registry.routes owner.budgetKey) :
    Coverage orderly { s with registry := (s.registry.startAttach owner key).2 } := by
  have hr : ∀ o, (s.registry.startAttach owner key).2.routes o = s.registry.routes o := fun o => by
    unfold routes
    rw [ownerRoutes_startAttach]
  refine
    { roster := h.roster, streams := fun key' stream hl => ?_
      size := fun o => (congrArg Finset.card (hr o)).le.trans (h.size o)
      claims := fun slot hs => ?_, told := fun slot hs => ?_ }
  · rw [lookup_startAttach] at hl
    rw [hr]
    split at hl
    · next heq =>
      cases hl
      exact ⟨hk, fun _ => heq ▸ hroute⟩
    · exact h.streams key' stream hl
  · rw [hr]
    exact h.claims slot hs
  · rw [hr]
    exact h.told slot hs

theorem Coverage.begin (slot : BudgetKey × Key) (hk : s.Known slot.1)
    (hr : slot.2 ∈ s.registry.routes slot.1)
    {attaches : Multiset PendingAttach} {reservations : Dict ℕ TerminalReservation}
    {nextAdapter nextLabel : ℕ}
    (hc : { s with attaches, reservations, nextAdapter, nextLabel }.claims ≤ slot ::ₘ s.claims) :
    Coverage orderly { s with attaches, reservations, nextAdapter, nextLabel } := by
  refine { h with claims := fun other hother => ?_ }
  rcases mem_cons.mp (mem_of_le hc hother) with rfl | hother
  · exact ⟨hk, fun _ _ => hr⟩
  · exact h.claims other hother

/-- A granted reservation: the key is in the set, and if just inserted its owner has nothing on it.
-/
theorem Coverage.reserved (ha : s.Admitted o)
    (hf : (s.registry.reserveRoute o key maxAttachRoutesPerOwner).1 ≠ .full) :
    key ∈ (s.registry.reserveRoute o key maxAttachRoutesPerOwner).2.routes o ∧
    (orderly → (s.registry.reserveRoute o key maxAttachRoutesPerOwner).1 = .inserted →
      (o, key) ∉ s.claims ∧ (o, key) ∉ s.told) := by
  rcases reserveRoute_cases s.registry o key maxAttachRoutesPerOwner with
    ⟨hh, hm, hr⟩ | ⟨hf', -⟩ | ⟨-, hn, -, hr⟩
  · rw [hr, hh]
    exact ⟨hm, fun _ => nofun⟩
  · exact absurd hf' hf
  rw [hr]
  dsimp only
  rw [if_pos rfl]
  refine ⟨mem_insert_self _ _, fun ho _ => ⟨fun hc => ?_, fun ht => ?_⟩⟩
  · exact hn ((h.claims _ hc).2 ho ha)
  · exact hn ((h.told _ ht).2 ho ha)

variable {key : Key}

theorem Coverage.attach {socket : ℕ} (admitsWork : Bool) :
    Coverage orderly (s.attach socket key admitsWork) := by
  refine guarded h fun hsocket => ?_
  have ha : s.Admitted (unixOwner socket).budgetKey := hsocket
  have hr := h.lessen (lessens_reserveRoute s (unixOwner socket).budgetKey key)
  dsimp only
  split
  · exact hr
  next hfull =>
  obtain ⟨hroute, hi⟩ := h.reserved ha hfull
  split
  · exact hr.releaseFailedAttachRoute (unixOwner socket) key fun ho =>
      settled_releaseFailedAttachRoute hroute (hi ho)
  have hs := hr.startAttach (unixOwner socket) (h.roster.1 _ ha) hroute
  refine hs.begin ((unixOwner socket).budgetKey, key) (h.roster.1 _ ha) ?_ ?_
  · unfold routes
    rw [ownerRoutes_startAttach]
    exact hroute
  unfold Control.claims
  rw [Multiset.map_cons, Multiset.cons_add, Multiset.cons_add]

theorem Coverage.reserveWebrtcTerminal {grantId : GrantId}
    (peerGeneration now : ℕ) (channelBudget armed : Bool) :
    Coverage orderly (s.reserveWebrtcTerminal grantId key peerGeneration now channelBudget
      armed) := by
  refine guarded h fun hg => ?_
  have ha : s.Admitted (peerOwner grantId key).budgetKey := hg.2.1
  have hr := h.lessen (lessens_reserveRoute s (peerOwner grantId key).budgetKey key)
  dsimp only
  split
  · exact hr
  next hfull =>
  obtain ⟨hroute, hi⟩ := h.reserved ha hfull
  have hs := hr.startAttach (peerOwner grantId key) (h.roster.1 _ ha) hroute
  split
  · refine Coverage.lessen ?_ (lessens_recordChange ..)
    refine hs.begin ((peerOwner grantId key).budgetKey, key) (h.roster.1 _ ha) ?_ ?_
    · unfold routes
      rw [ownerRoutes_startAttach]
      exact hroute
    unfold Control.claims
    rw [total_insert_eq, reservationClaims, if_pos rfl, singleton_add, add_cons]
    exact cons_le_cons _ (lessens_erase_reservation s s.nextLabel).claims
  · refine hs.abandonUnboundTerminal (peerOwner grantId key) _ key fun ho =>
      settled_releaseFailedAttachRoute ?_ (hi ho)
    rw [(weakens_cancelStreamIf ..).routes_eq]
    unfold routes
    rw [ownerRoutes_startAttach]
    exact hroute

end

theorem lessens_told {told : Finset (BudgetKey × Key)} (ht : told ⊆ s.told) :
    Lessens ∅ s { s with told } :=
  { Lessens.refl ∅ s with told := ht }

theorem Coverage.finishDetach (h : Coverage orderly s) {c : BudgetKey} {key : Key}
    (hf : orderly → (s.finishDetach c key).Settled (c, key)) :
    Coverage orderly (s.finishDetach c key) := by
  have hq := h.lessen (lessens_told (erase_subset (c, key) s.told))
  unfold Control.finishDetach at hf ⊢
  dsimp only at hf ⊢
  split
  · exact hq
  next hn =>
  rw [if_neg hn] at hf
  refine Coverage.lessen ?_ (lessens_recordChange ..)
  refine hq.releaseRoute (fun stream hl => ?_) fun ho ha => (hf ho ha).imp_left fun hm => ?_
  · exact absurd (by rw [streamIdentity_of_lookup hl]; rfl) hn
  · unfold recordChange routes at hm
    rwa [(streams_recordAttachedSubscriptionChange ..).2] at hm

theorem Coverage.detached (h : Coverage orderly s) (request : PendingDetach) (succeeded : Bool)
    (hf : orderly → ({ s with detaches := s.detaches.erase request }.detached request
      succeeded).Settled (request.client, request.key)) :
    Coverage orderly ({ s with detaches := s.detaches.erase request }.detached request
      succeeded) := by
  have he : Coverage orderly { s with detaches := s.detaches.erase request } := { h with }
  unfold Control.detached at hf ⊢
  dsimp only at hf ⊢
  split_ifs at hf ⊢
  · exact he
  · have hcancelled : Lessens ∅ _ _ := lessens_cancelAttachment
      { s with detaches := s.detaches.erase request } request.key request.identity
    exact (he.lessen (hcancelled.trans (lessens_retain_reservations _
      fun _ reservation => reservation.key ≠ request.key))).finishDetach hf
  · exact he.finishDetach hf

section

variable (s)

theorem lessens_connect : Lessens ∅ s (s.step .connect) := by
  refine { Lessens.refl ∅ s with
    roster := fun ⟨ha, hl⟩ => ⟨fun o ho => ?_, hl⟩
    known := fun o hk => ?_, admitted := fun o hk ho => ?_ }
  · match o, ho with
    | .client (.socket number), ho =>
      rcases mem_insert.mp ho with rfl | hm
      · exact Nat.lt_succ_self _
      · exact Nat.lt_succ_of_lt (ha (.client (.socket number)) hm)
    | .grant grantId, ho => exact ha (.grant grantId) ho
  · match o, hk with
    | .client (.socket number), hk => exact Nat.lt_succ_of_lt hk
    | .grant grantId, hk => exact hk
  · match o, hk, ho with
    | .client (.socket number), hk, ho =>
      rcases mem_insert.mp ho with rfl | hm
      · exact absurd hk (Nat.lt_irrefl s.nextSocket)
      · exact hm
    | .grant grantId, _, ho => exact ho

theorem lessens_signal (g : GrantId) : Lessens ∅ s (s.step (.signal g)) := by
  change Lessens ∅ s (ite _ _ _)
  split
  · exact .refl _ s
  next hf =>
  have hk : ∀ o, s.Known o → ({ s with
      redeemed := insert g s.redeemed
      livePeers := insert g s.livePeers } : Control).Known o := by
    intro o hk
    match o, hk with
    | .client (.socket number), hk => exact hk
    | .grant other, ⟨hr, hl⟩ =>
      refine ⟨mem_insert_of_mem hr, fun ha hm => ?_⟩
      rcases mem_insert.mp hm with rfl | hm
      · exact hf hr
      · exact hl ha hm
  exact { Lessens.refl ∅ s with
    roster := fun ⟨ha, hl⟩ => ⟨fun o ho => hk o (ha o ho), insert_subset_insert _ hl⟩
    known := hk }

theorem lessens_hello (g : GrantId) (a hasRoom : Bool) :
    Lessens ∅ s (s.step (.hello g a hasRoom)) := by
  refine guarded (.refl _ s) fun hl => ?_
  cases hasRoom with
  | false => exact { Lessens.refl ∅ s with }
  | true =>
    refine { Lessens.refl ∅ s with
      roster := fun ⟨ha, hr⟩ => ⟨fun o ho => ?_, hr⟩
      known := fun o hk => ?_, admitted := fun o hk ho => ?_ }
    · match o, ho with
      | .client (.socket number), ho => exact ha (.client (.socket number)) ho
      | .grant other, ho =>
        rcases mem_insert.mp ho with rfl | hm
        · exact ⟨hr hl, fun hn => absurd (mem_insert_self _ _) hn⟩
        · exact ⟨(ha (.grant other) hm).1, fun hn => absurd (mem_insert_of_mem hm) hn⟩
    · match o, hk with
      | .client (.socket number), hk => exact hk
      | .grant other, ⟨hr, hg⟩ =>
        exact ⟨hr, fun hn => hg fun hm => hn (mem_insert_of_mem hm)⟩
    · match o, hk, ho with
      | .client (.socket number), _, ho => exact ho
      | .grant other, ⟨_, hg⟩, ho =>
        rcases mem_insert.mp ho with rfl | hm
        · exact Classical.byContradiction fun hn => hg hn hl
        · exact hm

theorem lessens_connectionCleanup (socket : ℕ) (a : Finset Key) (runtime : Bool) :
    Lessens {.client (.socket socket)} s (s.connectionCleanup socket a runtime) := by
  have hf := weakens_connectionCleanup s socket a runtime
  have hr : ∀ o, (s.connectionCleanup socket a runtime).registry.routes o =
        if o = .client (.socket socket) then ∅ else s.registry.routes o := fun o =>
    (hf.routes_eq o).trans (routes_takeOwnerRoutes ..)
  have hadmitted : ∀ o, (s.connectionCleanup socket a runtime).Admitted o → s.Admitted o := by
    intro o ho
    match o, ho with
    | .client (.socket number), ho => exact Finset.mem_of_mem_erase ho
    | .grant grantId, ho => exact ho
  refine { Lessens.refl {.client (.socket socket)} s with
    roster := fun ⟨hroster, hlive⟩ => ⟨fun o ho => hroster o (hadmitted o ho), hlive⟩
    streams := fun key stream' hl => ?_, routes := fun o hne => ?_
    size := fun hsize o => ?_, told := Finset.filter_subset _ _
    admitted := fun o _ => hadmitted o }
  · obtain ⟨stream, hs, ho, -⟩ := hf.streams key stream' hl
    exact ⟨stream, hs, ho⟩
  · rw [hr, if_neg (mt Set.mem_singleton_iff.mpr hne)]
  rw [hr]
  split
  · exact Nat.zero_le _
  · exact hsize o

theorem lessens_departRoute (acc : Control × List CleanupCandidate) (route : GrantId × Key) :
    Lessens gone acc.1 (departRoute acc route).1 := by
  unfold departRoute
  split
  · exact .refl _ acc.1
  next c _ =>
  exact (lessens_cancelAttachment acc.1 route.2 c.identity).trans
    (lessens_recordChange _ (.detach route.2) none)

theorem routes_foldl_takeOwnerRoutes (g : List GrantId) (r : Registry) (o : BudgetKey) :
    (g.foldl (fun r grant => (r.takeOwnerRoutes (.grant grant)).2) r).routes o =
      if o ∈ g.map BudgetKey.grant then ∅ else r.routes o := by
  induction g generalizing r with
  | nil => rfl
  | cons _ rest ih =>
    rw [List.foldl_cons, ih, routes_takeOwnerRoutes, List.map_cons]
    by_cases hm : o ∈ rest.map BudgetKey.grant
    · rw [if_pos hm, if_pos (mem_cons_of_mem _ hm)]
    · rw [if_neg hm]
      exact if_congr (by rw [List.mem_cons, or_iff_left hm]) rfl rfl

theorem lessens_departPeers (c : List GrantId) (p : GrantId) (snapshot : Finset Key) :
    Lessens {o | o ∈ c.map BudgetKey.grant} s (s.departPeers c p snapshot).1 := by
  refine foldlRecOn (motive := fun acc => Lessens _ s acc.1) _ departRoute ?_
    fun acc h route _ => h.trans (lessens_departRoute acc route)
  refine { Lessens.refl {o | o ∈ c.map BudgetKey.grant} s with
    streams := fun key stream hl => ?_, routes := fun o hne => ?_
    size := fun hs o => ?_ }
  · rw [streams_foldl_takeOwnerRoutes] at hl
    exact ⟨stream, hl, rfl⟩
  · rw [routes_foldl_takeOwnerRoutes, if_neg (Set.notMem_ofPred_iff.mp hne)]
  rw [routes_foldl_takeOwnerRoutes]
  split
  · exact Nat.zero_le _
  · exact hs o

theorem lessens_forgetGrants (hs : c ⊆ removed) : Lessens gone s (s.forgetGrants removed c) := by
  have ha : ∀ o, (s.forgetGrants removed c).Admitted o → s.Admitted o := by
    intro o ho
    match o, ho with
    | .client (.socket number), ho => exact ho
    | .grant grantId, ho => exact mem_of_mem_filter _ ho
  have hk : ∀ o, s.Known o → (s.forgetGrants removed c).Known o := by
    intro o hk
    match o, hk with
    | .client (.socket number), hk => exact hk
    | .grant grantId, ⟨hr, hg⟩ =>
      refine ⟨hr, fun hn hl => ?_⟩
      obtain ⟨hl, hkept⟩ := Finset.mem_filter.mp hl
      refine hg (fun hm => hn ?_) hl
      exact Finset.mem_filter.mpr ⟨hm, fun hc => hkept (hs hc)⟩
  exact { lessens_retain_reservations s _ with
    roster := fun ⟨hroster, hl⟩ =>
      ⟨fun o ho => hk o (hroster o (ha o ho)), (Finset.filter_subset _ _).trans hl⟩
    told := Finset.filter_subset _ _, known := hk
    admitted := fun o _ => ha o }

end

theorem Coverage.peerClosed (h : Coverage orderly s) (g : GrantId) (siblings : List GrantId)
    (snapshot : Finset Key) (runtime : Bool) :
    Coverage orderly (s.peerClosed g siblings snapshot runtime) := by
  have hl := (lessens_departPeers s ((g :: siblings).filter (· ∈ s.admittedPeers))
    g snapshot).trans (lessens_forgetGrants _
      (filter_subset_self (p := fun grant => decide (grant ∈ s.admittedPeers))
        (l := g :: siblings)))
  have hf := h.depart hl fun owner hm ho => by
    obtain ⟨grant, hg, rfl⟩ := mem_map.mp hm
    exact (Finset.mem_filter.mp ho).2 hg
  unfold Control.peerClosed
  dsimp only
  generalize (s.departPeers _ g snapshot).1.forgetGrants _ _ = s' at *
  exact { hf with }

theorem lessens_cleaned (s : Control) (c : CleanupCandidate)
    (o : CleanupRouteOutcome) : Lessens gone s (s.cleaned c o) := by
  unfold cleaned
  dsimp only
  split
  · exact .refl _ s
  split
  · exact .refl _ s
  · exact (lessens_cancelAttachment s _ _).trans (lessens_recordChange ..)

theorem lessens_reconcile (s : Control) (l : ClientId → Key → Option (Option Generation))
    (readEpoch : ℕ) (a : Option Key) (m : ℕ) :
    Lessens gone s (s.reconcile l readEpoch a m) :=
  foldlRecOn _ _ (Lessens.of_weakens (weakens_reconcileInventorySlice s.registry l readEpoch a m))
    fun s' h _ _ => h.trans (lessens_recordChange s' _ _)

/-- The owner and the key of the request that a step goes on with. -/
def settling (s : Control) : Step → Option (BudgetKey × Key)
  | .attached attempt _ _ => some (attempt.owner.budgetKey, attempt.key)
  | .bound bind _ _ => some (bind.owner.budgetKey, bind.key)
  | .bindReserved _ label _ _ | .expire _ label _ _ | .retireReserved _ label =>
    (s.reservations.lookup label).map fun reservation =>
      (reservation.owner.budgetKey, reservation.key)
  | .detached request _ => some (request.client, request.key)
  | _ => none

/-- A request that gives its key back leaves its owner no other attempt on the key, and nothing that
it was told. -/
def Orderly (s : Control) (step : Step) : Prop :=
  ∀ slot ∈ s.settling step, (s.step step).Settled slot

instance (s : Control) (step : Step) : Decidable (s.Orderly step) :=
  inferInstanceAs (Decidable (∀ slot ∈ s.settling step, _))

/-- Every step keeps the streams covered, an orderly one also what waits and was acknowledged. -/
theorem Coverage.step (h : Coverage orderly s) (hd : Distinct s) (step : Step)
    (ho : orderly → s.Orderly step) : Coverage orderly (s.step step) := by
  cases step with
  | connect => exact h.lessen (lessens_connect s)
  | signal grantId => exact h.lessen (lessens_signal s grantId)
  | hello grantId admits hasRoom => exact h.lessen (lessens_hello s grantId admits hasRoom)
  | attach _ _ admitsWork => exact h.attach admitsWork
  | attached attempt g registered =>
    refine guarded h fun hm => h.attached hm g registered fun hs => ?_
    have hsettled := ho hs _ rfl
    rwa [Control.step, if_pos hm] at hsettled
  | webrtcAttach =>
    rw [Control.step]
    unfold webrtcAttach
    split
    · exact h
    exact guarded h fun _ => { h with }
  | queried q =>
    refine guarded h fun _ => ?_
    have hq : Coverage orderly { s with queries := s.queries.erase q } := { h with }
    split
    · exact hq.reserveWebrtcTerminal _ _ _ _
    · exact hq
  | bindReserved => exact h.bindReserved fun hs r hr => ho hs _ (Option.mem_map_of_mem _ hr)
  | bound bind g d =>
    refine guarded h fun hm => ?_
    refine h.bound hm (fun reservation hr => (hd.claimed bind hm reservation hr).1) g d fun hs => ?_
    have hsettled := ho hs _ rfl
    rwa [Control.step, if_pos hm] at hsettled
  | expire => exact h.emitReservationExpired fun hs r hr => ho hs _ (Option.mem_map_of_mem _ hr)
  | retireReserved grantId =>
    exact h.retireReservedSubscription grantId fun hs r hr => ho hs _ (Option.mem_map_of_mem _ hr)
  | detach => exact { h with }
  | detached request succeeded =>
    refine guarded h fun hm => h.detached request succeeded fun hs => ?_
    have hsettled := ho hs _ rfl
    rwa [Control.step, if_pos hm] at hsettled
  | toldClosed => exact h.lessen (lessens_told (Finset.erase_subset _ _))
  | connectionCleanup socket a runtime =>
    refine guarded h fun _ => ?_
    refine h.depart (lessens_connectionCleanup s socket a runtime) fun owner hm howner => ?_
    obtain rfl := Set.mem_singleton_iff.mp hm
    exact notMem_erase _ _ howner
  | peerClosed grantId siblings snapshot runtime =>
    exact h.peerClosed grantId siblings snapshot runtime
  | cleaned c =>
    refine guarded h fun _ => ?_
    have hc : Coverage orderly { s with cleanups := s.cleanups.erase c } := { h with }
    exact hc.lessen (lessens_cleaned ..)
  | cleanupLost => exact { h with }
  | reconcile => exact h.lessen (lessens_reconcile _ _ _ _ _)
  | retainSessions =>
    exact h.lessen (.of_weakens (weakens_retainSessionsPresentIn _ _))
  | closeSession =>
    exact h.lessen (.of_weakens (weakens_closeAdaptersForSession _ _))

theorem Coverage.run (h : Coverage orderly s) (hd : Distinct s) (horderly : orderly →
      Machine.Along (fun s step => some (Control.step s step)) Orderly s steps) :
    Coverage orderly (s.run steps) := by
  induction steps generalizing s with
  | nil => exact h
  | cons step _ ih =>
    exact ih (h.step hd step fun ho => (horderly ho).1) (hd.step step)
      fun ho => (horderly ho).2 _ rfl

end Control

end BotsterHub.Attach
