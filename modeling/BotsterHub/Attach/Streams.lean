import BotsterHub.Attach.Registry

/-!
What the operations of the registry do to its streams and its route sets. Most only take away: a
stream keeps its owner and epoch or goes, and an adapter stays bound or is closed (`Weakens`).
-/

namespace BotsterHub.Attach

open List Option AList

namespace Registry

variable {r r' r'' : Registry} {key key' : Key} {identity : AttachmentIdentity}
  {stream : AttachStream}

theorem streamMatches_iff :
    r.streamMatches key identity = true ↔ r.streamIdentity key = some identity := by
  exact decide_eq_true_iff

theorem streamIdentity_of_lookup (h : r.streams.lookup key = some stream) :
    r.streamIdentity key = some stream.identity := by
  unfold streamIdentity
  rw [h]
  rfl

section

variable (r)

theorem streams_forgetConnectionBoundRoute (key : Key) :
    (r.forgetConnectionBoundRoute key).streams = r.streams := by
  unfold forgetConnectionBoundRoute
  split
  · rfl
  · split <;> rfl

theorem lookup_closeAdapter (key key' : Key) : (r.closeAdapter key).streams.lookup key' =
      if key' = key then
        (r.streams.lookup key).map fun stream =>
          { stream with adapter := none, adapterBound := false }
      else r.streams.lookup key' := by
  unfold closeAdapter
  split
  · next hn =>
    split
    · next heq => rw [heq, hn]; rfl
    · rfl
  · next hs =>
    rw [lookup_insert_eq, hs]
    rfl

theorem lookup_cancelStream (key key' : Key) : (r.cancelStream key).streams.lookup key' =
      if key' = key then none else r.streams.lookup key' := by
  unfold cancelStream removeStreamMetadata
  rw [lookup_erase_eq, lookup_closeAdapter, streams_forgetConnectionBoundRoute]
  by_cases h : key' = key
  · rw [if_pos h, if_pos h]
  · rw [if_neg h, if_neg h, if_neg h]

theorem lookup_recordGeneration (key : Key) (generation : Generation) (key' : Key) :
    (r.recordGeneration key generation).streams.lookup key' =
      if key' = key then
        (r.streams.lookup key).map fun stream => { stream with generation := some generation }
      else r.streams.lookup key' := by
  unfold recordGeneration
  split
  · next hn =>
    split
    · next heq => rw [heq, hn]; rfl
    · rfl
  · next hs =>
    rw [lookup_insert_eq, hs]
    rfl

theorem lookup_markAdapterBound (key : Key) (generation : Generation)
    (adapter : Adapter) (key' : Key) :
    (r.markAdapterBound key generation adapter).streams.lookup key' =
      if key' = key then
        (r.streams.lookup key).map fun stream =>
          { stream with
            generation := some generation, adapterBound := true, adapter := some adapter }
      else r.streams.lookup key' := by
  unfold markAdapterBound
  split
  · next hn =>
    split
    · next heq => rw [heq, hn]; rfl
    · rfl
  · next hs =>
    rw [lookup_insert_eq, hs]
    rfl

theorem lookup_startAttach (owner : AttachStreamOwner) (key key' : Key) :
    (r.startAttach owner key).2.streams.lookup key' =
      if key' = key then some (.new owner ((r.cancelStream key).nextEpoch + 1))
      else r.streams.lookup key' := by
  unfold startAttach
  rw [lookup_insert_eq, lookup_cancelStream]
  by_cases h : key' = key
  · rw [if_pos h, if_pos h]
  · rw [if_neg h, if_neg h, if_neg h]

end

theorem streamIdentity_congr (h : r'.streams.lookup key = r.streams.lookup key) :
    r'.streamIdentity key = r.streamIdentity key := by
  unfold streamIdentity
  rw [h]

section

variable (r)

theorem streamIdentity_closeAdapter (key key' : Key) :
    (r.closeAdapter key).streamIdentity key' = r.streamIdentity key' := by
  unfold streamIdentity
  rw [lookup_closeAdapter]
  split
  · next heq =>
    rw [heq, Option.map_map]
    rfl
  · rfl

theorem streamIdentity_closeAdapterIf (key : Key) (identity : AttachmentIdentity)
    (key' : Key) : (r.closeAdapterIf key identity).streamIdentity key' = r.streamIdentity key' := by
  unfold closeAdapterIf
  split
  · exact streamIdentity_closeAdapter r key key'
  · rfl

theorem streamIdentity_cancelStream (key key' : Key) : (r.cancelStream key).streamIdentity key' =
      if key' = key then none else r.streamIdentity key' := by
  unfold streamIdentity
  rw [lookup_cancelStream]
  split <;> rfl

theorem streamIdentity_recordGeneration (key : Key) (g : Generation) (key' : Key) :
    (r.recordGeneration key g).streamIdentity key' = r.streamIdentity key' := by
  unfold streamIdentity
  rw [lookup_recordGeneration]
  split
  · next heq =>
    rw [heq, Option.map_map]
    rfl
  · rfl

theorem streamIdentity_markAdapterBound (key : Key) (g : Generation)
    (adapter : Adapter) (key' : Key) :
    (r.markAdapterBound key g adapter).streamIdentity key' = r.streamIdentity key' := by
  unfold streamIdentity
  rw [lookup_markAdapterBound]
  split
  · next heq =>
    rw [heq, Option.map_map]
    rfl
  · rfl

theorem streamIdentity_cancelStreamIf (key : Key) (identity : AttachmentIdentity) (key' : Key) :
    (r.cancelStreamIf key identity).streamIdentity key' =
      if key' = key ∧ r.streamIdentity key = some identity then none
      else r.streamIdentity key' := by
  unfold cancelStreamIf
  by_cases hm : r.streamIdentity key = some identity
  · rw [if_pos (streamMatches_iff.mpr hm), streamIdentity_cancelStream]
    simp [hm, and_true]
  · rw [if_neg (mt streamMatches_iff.mp hm), if_neg fun h => hm h.2]

end

theorem streamIdentity_cancelStreamIf_ne (hb : r.streamIdentity key' = some identity')
    (ha : (r.cancelStreamIf key identity).streamIdentity key' ≠ some identity') :
    key' = key ∧ identity' = identity := by
  rw [streamIdentity_cancelStreamIf] at ha
  split at ha
  · next h =>
    obtain ⟨rfl, hm⟩ := h
    exact ⟨rfl, some.inj (hb.symm.trans hm)⟩
  · exact absurd hb ha

theorem cancelStreamIf_of_ne (h : r.streamIdentity key ≠ some identity) :
    r.cancelStreamIf key identity = r := by
  unfold cancelStreamIf
  rw [if_neg (mt streamMatches_iff.mp h)]

theorem streamIdentity_startAttach_of_ne (r : Registry) (owner : AttachStreamOwner)
    (h : key' ≠ key) : (r.startAttach owner key).2.streamIdentity key' = r.streamIdentity key' := by
  unfold streamIdentity
  rw [lookup_startAttach, if_neg h]

theorem streamIdentity_retainSessionsPresentIn (r : Registry) (h : p key.sessionId = true) :
    (r.retainSessionsPresentIn p).streamIdentity key = r.streamIdentity key := by
  have hf : ∀ (s : List Key) (r : Registry), key ∉ s →
      (s.foldl cancelStream r).streamIdentity key = r.streamIdentity key := by
    intro s
    induction s with
    | nil => exact fun _ _ => rfl
    | cons _ _ ih =>
      intro r hn
      rw [mem_cons, not_or] at hn
      rw [foldl_cons, ih _ hn.2, streamIdentity_cancelStream, if_neg hn.1]
  refine hf _ r fun hm => ?_
  have ha := (mem_filter.mp hm).2
  rw [decide_eq_true_iff, h] at ha
  cases ha

theorem streamIdentity_closeAdaptersForSession (r : Registry) (s : String) (key : Key) :
    (r.closeAdaptersForSession s).streamIdentity key = r.streamIdentity key := by
  have hf : ∀ (b : List Key) (r : Registry),
      (b.foldl closeAdapter r).streamIdentity key = r.streamIdentity key := by
    intro b
    induction b with
    | nil => exact fun _ => rfl
    | cons _ _ ih =>
      intro r
      rw [foldl_cons, ih, streamIdentity_closeAdapter]
  exact hf _ r

theorem streamIdentity_foldl_cancelStreamIf (e : List (Key × AttachmentIdentity))
    (hb : r.streamIdentity key = some identity)
    (ha : (e.foldl (fun r entry => r.cancelStreamIf entry.1 entry.2) r).streamIdentity
      key ≠ some identity) : (key, identity) ∈ e := by
  induction e generalizing r with
  | nil => exact absurd hb ha
  | cons entry _ ih =>
    rw [foldl_cons] at ha
    by_cases hk : (r.cancelStreamIf entry.1 entry.2).streamIdentity key = some identity
    · exact mem_cons_of_mem _ (ih hk ha)
    · obtain ⟨rfl, rfl⟩ := streamIdentity_cancelStreamIf_ne hb hk
      exact mem_cons_self

variable {lookup : ClientId → Key → Option (Option Generation)}

variable {row : Key × Bool × AttachmentIdentity}

theorem streamIdentity_reconcileRow (hb : r.streamIdentity key = some identity)
    (ha : (reconcileRow lookup readEpoch (r, p) row).1.streamIdentity key ≠
      some identity) : row.1 = key ∧ row.2.2 = identity := by
  obtain ⟨rowKey, adapterBound, captured⟩ := row
  unfold reconcileRow at ha
  dsimp only at ha
  split at ha
  · exact absurd hb ha
  split at ha
  · exact absurd hb ha
  split at ha
  · obtain ⟨rfl, rfl⟩ := streamIdentity_cancelStreamIf_ne hb ha
    exact ⟨rfl, rfl⟩
  · exact absurd hb ha

theorem streamIdentity_reconcileInventorySlice (hb : r.streamIdentity key = some identity)
    (ha : (r.reconcileInventorySlice lookup readEpoch a m).1.streamIdentity key ≠ some identity) :
    ∃ row ∈ r.reconcileVisit a m, row.1 = key ∧ row.2.2 = identity := by
  have hf : ∀ (rows : List (Key × Bool × AttachmentIdentity))
      (acc : Registry × InventoryReconcileProgress),
      acc.1.streamIdentity key = some identity →
      (rows.foldl (reconcileRow lookup readEpoch) acc).1.streamIdentity key ≠ some identity →
      ∃ row ∈ rows, row.1 = key ∧ row.2.2 = identity := by
    intro rows
    induction rows with
    | nil => exact fun acc => absurd
    | cons row _ ih =>
      intro acc hacc he
      by_cases hk : (reconcileRow lookup readEpoch acc row).1.streamIdentity key = some identity
      · obtain ⟨o, hm, ho⟩ := ih _ hk he
        exact ⟨o, mem_cons_of_mem _ hm, ho⟩
      · exact ⟨row, mem_cons_self, streamIdentity_reconcileRow hacc hk⟩
  exact hf _ _ hb ha

theorem streamIdentity_of_reconcileVisit (h : row ∈ r.reconcileVisit a m) :
    r.streamIdentity row.1 = some row.2.2 := by
  obtain ⟨key, -, hr⟩ := mem_filterMap.mp h
  obtain ⟨stream, hl, rfl⟩ := map_eq_some_iff.mp hr
  exact streamIdentity_of_lookup hl

structure Weakens (r r' : Registry) : Prop where
  streams : ∀ key stream', r'.streams.lookup key = some stream' →
    ∃ stream, r.streams.lookup key = some stream ∧ stream'.owner = stream.owner ∧
      stream'.epoch = stream.epoch ∧ ∀ adapter ∈ stream'.adapter, adapter ∈ stream.adapter
  routes : r'.ownerRoutes = r.ownerRoutes

theorem Weakens.refl (r : Registry) : Weakens r r :=
  ⟨fun _ stream h => ⟨stream, h, rfl, rfl, fun _ => id⟩, rfl⟩

theorem Weakens.trans (h : Weakens r r') (h' : Weakens r' r'') : Weakens r r'' := by
  refine ⟨fun key stream'' hl => ?_, h'.routes.trans h.routes⟩
  obtain ⟨stream', hl', ho', he', ha'⟩ := h'.streams key stream'' hl
  obtain ⟨stream, hl, ho, he, ha⟩ := h.streams key stream' hl'
  exact ⟨stream, hl, ho'.trans ho, he'.trans he, fun adapter hm => ha adapter (ha' adapter hm)⟩

theorem Weakens.of_streams (hs : r'.streams = r.streams)
    (hr : r'.ownerRoutes = r.ownerRoutes) : Weakens r r' := by
  refine ⟨fun key stream hl => ?_, hr⟩
  rw [hs] at hl
  exact ⟨stream, hl, rfl, rfl, fun _ => id⟩

theorem Weakens.foldl {α : Type*} {f : Registry → α → Registry} (hf : ∀ r a, Weakens r (f r a))
    (as : List α) (r : Registry) : Weakens r (as.foldl f r) :=
  foldlRecOn as f (.refl r) fun r' h a _ => h.trans (hf r' a)

section

variable (r)

section

variable (key)

theorem ownerRoutes_cancelStream : (r.cancelStream key).ownerRoutes = r.ownerRoutes := by
  unfold cancelStream closeAdapter forgetConnectionBoundRoute
  split <;> split <;> first | rfl | (split <;> rfl)

theorem weakens_cancelStream : Weakens r (r.cancelStream key) := by
  refine ⟨fun key' stream hl => ?_, ownerRoutes_cancelStream r key⟩
  rw [lookup_cancelStream] at hl
  split at hl
  · cases hl
  · exact ⟨stream, hl, rfl, rfl, fun _ => id⟩

theorem weakens_cancelStreamIf (identity : AttachmentIdentity) :
    Weakens r (r.cancelStreamIf key identity) := by
  unfold cancelStreamIf
  split
  · exact weakens_cancelStream r key
  · exact .refl r

theorem weakens_closeAdapter : Weakens r (r.closeAdapter key) := by
  refine ⟨fun key' stream' hl => ?_, ?_⟩
  · rw [lookup_closeAdapter] at hl
    split at hl
    · next heq =>
      obtain ⟨stream, hs, rfl⟩ := map_eq_some_iff.mp hl
      exact ⟨stream, heq ▸ hs, rfl, rfl, fun _ hn => by cases hn⟩
    · exact ⟨stream', hl, rfl, rfl, fun _ => id⟩
  · unfold closeAdapter
    split <;> rfl

theorem weakens_closeAdapterIf (identity : AttachmentIdentity) :
    Weakens r (r.closeAdapterIf key identity) := by
  unfold closeAdapterIf
  split
  · exact weakens_closeAdapter r key
  · exact .refl r

theorem weakens_recordGeneration (g : Generation) : Weakens r (r.recordGeneration key g) := by
  refine ⟨fun key' stream' hl => ?_, ?_⟩
  · rw [lookup_recordGeneration] at hl
    split at hl
    · next heq =>
      obtain ⟨stream, hs, rfl⟩ := map_eq_some_iff.mp hl
      exact ⟨stream, heq ▸ hs, rfl, rfl, fun _ => id⟩
    · exact ⟨stream', hl, rfl, rfl, fun _ => id⟩
  · unfold recordGeneration
    split <;> rfl

end

theorem weakens_retainSessionsPresentIn (p : String → Bool) :
    Weakens r (r.retainSessionsPresentIn p) :=
  Weakens.foldl weakens_cancelStream _ r

theorem weakens_closeAdaptersForSession (s : String) : Weakens r (r.closeAdaptersForSession s) :=
  Weakens.foldl weakens_closeAdapter _ r

end

theorem weakens_reconcileRow (lookup : ClientId → Key → Option (Option Generation))
    (readEpoch : ℕ) (acc : Registry × InventoryReconcileProgress)
    (row : Key × Bool × AttachmentIdentity) :
    Weakens acc.1 (reconcileRow lookup readEpoch acc row).1 := by
  obtain ⟨r, progress⟩ := acc
  obtain ⟨key, adapterBound, identity⟩ := row
  unfold reconcileRow
  dsimp only
  split
  · exact .refl r
  split
  · exact .refl r
  split
  · exact weakens_cancelStreamIf r key identity
  · exact .refl r

theorem weakens_reconcileInventorySlice (r : Registry)
    (lookup : ClientId → Key → Option (Option Generation)) (readEpoch : ℕ) (a : Option Key)
    (m : ℕ) :
    Weakens r (r.reconcileInventorySlice lookup readEpoch a m).1 :=
  foldlRecOn (motive := fun acc => Weakens r acc.1) _ (reconcileRow lookup readEpoch)
    (.refl r) fun acc h row _ => h.trans (weakens_reconcileRow lookup readEpoch acc row)

def Bound (r : Registry) (adapter : Adapter) : Prop :=
  ∃ key stream, r.streams.lookup key = some stream ∧ stream.adapter = some adapter

variable {adapter : Adapter}

theorem Weakens.bound (h : Weakens r r') (hb : r'.Bound adapter) : r.Bound adapter := by
  obtain ⟨key, stream', hl, ha⟩ := hb
  obtain ⟨stream, hs, -, -, hf⟩ := h.streams key stream' hl
  exact ⟨key, stream, hs, hf adapter ha⟩

theorem bound_congr (h : r'.streams = r.streams) (hb : r'.Bound adapter) : r.Bound adapter := by
  obtain ⟨key, stream, hl, ha⟩ := hb
  exact ⟨key, stream, h ▸ hl, ha⟩

variable {owner : AttachStreamOwner}

theorem bound_startAttach (hb : (r.startAttach owner key).2.Bound adapter) : r.Bound adapter := by
  obtain ⟨key', stream, hl, ha⟩ := hb
  rw [lookup_startAttach] at hl
  split at hl
  · cases hl
    cases ha
  · exact ⟨key', stream, hl, ha⟩

theorem bound_markAdapterBound (hb : (r.markAdapterBound key g adapter).Bound adapter') :
    adapter' = adapter ∨ r.Bound adapter' := by
  obtain ⟨key', stream, hl, ha⟩ := hb
  rw [lookup_markAdapterBound] at hl
  split at hl
  · obtain ⟨stream, -, rfl⟩ := map_eq_some_iff.mp hl
    exact .inl (some.inj ha).symm
  · exact .inr ⟨key', stream, hl, ha⟩

theorem Weakens.routes_eq (h : Weakens r r') (owner : BudgetKey) :
    r'.routes owner = r.routes owner := by
  unfold Registry.routes
  rw [h.routes]

section

variable (r)

section

variable (owner : BudgetKey)

theorem streams_releaseRoute (key : Key) : (r.releaseRoute owner key).streams = r.streams := by
  unfold releaseRoute
  split <;> rfl

theorem routes_releaseRoute (key : Key) (o : BudgetKey) : (r.releaseRoute owner key).routes o =
      if o = owner then (r.routes owner).erase key else r.routes o := by
  unfold releaseRoute
  split
  · next hn =>
    split
    · next heq =>
      rw [heq, routes, hn]
      rfl
    · rfl
  · next routes hs =>
    have hr : r.routes owner = routes := by rw [Registry.routes, hs]; rfl
    rw [hr]
    show ((if routes.erase key = ∅ then _ else _ : Dict BudgetKey (Finset Key)).lookup o).getD ∅ = _
    split
    · next he =>
      rw [lookup_erase_eq]
      split
      · rw [he]; rfl
      · rfl
    · rw [lookup_insert_eq]
      split <;> rfl

theorem streams_reserveRoute (key : Key) (l : ℕ) :
    (r.reserveRoute owner key l).2.streams = r.streams := by
  unfold reserveRoute
  dsimp only
  split
  · rfl
  split
  · dsimp only
    split <;> rfl
  · rfl

theorem reserveRoute_cases (key : Key) (l : ℕ) :
    ((r.reserveRoute owner key l).1 = .alreadyHeld ∧ key ∈ r.routes owner ∧
      (r.reserveRoute owner key l).2.routes = r.routes) ∨
    ((r.reserveRoute owner key l).1 = .full ∧ (r.reserveRoute owner key l).2.routes = r.routes) ∨
    ((r.reserveRoute owner key l).1 = .inserted ∧ key ∉ r.routes owner ∧ (r.routes owner).card < l ∧
      (r.reserveRoute owner key l).2.routes =
        fun o => if o = owner then insert key (r.routes owner) else r.routes o) := by
  unfold reserveRoute
  dsimp only
  split
  · next hm => exact .inl ⟨rfl, hm, rfl⟩
  next hn =>
  split
  · refine .inr (.inl ⟨rfl, funext fun o => ?_⟩)
    split
    · next he =>
      show ((r.ownerRoutes.erase owner).lookup o).getD ∅ = r.routes o
      rw [lookup_erase_eq]
      split
      · next heq => rw [heq, he]; rfl
      · rfl
    · rfl
  · next hr =>
    refine .inr (.inr ⟨rfl, hn, Nat.lt_of_not_le hr, funext fun o => ?_⟩)
    show ((r.ownerRoutes.insert owner (insert key (r.routes owner))).lookup o).getD ∅ = _
    rw [lookup_insert_eq]
    split <;> rfl

end

theorem ownerRoutes_startAttach (owner : AttachStreamOwner) (key : Key) :
    (r.startAttach owner key).2.ownerRoutes = r.ownerRoutes := ownerRoutes_cancelStream r key

theorem routes_takeOwnerRoutes (owner o : BudgetKey) :
    (r.takeOwnerRoutes owner).2.routes o = if o = owner then ∅ else r.routes o := by
  show ((r.ownerRoutes.erase owner).lookup o).getD ∅ = _
  rw [lookup_erase_eq]
  split <;> rfl

end

theorem streamOwnerMatches_iff : r.streamOwnerMatches key owner = true ↔
      ∃ stream, r.streams.lookup key = some stream ∧ stream.owner.budgetKey = owner.budgetKey := by
  unfold streamOwnerMatches
  rw [Option.any_eq_true]
  simp [AttachStreamOwner.isMatch_iff]

end Registry

theorem streams_recordAttachedSubscriptionChange (r : Registry) (counters : AttachCounters)
    (c : AttachedSubscriptionChange) (g : Option GrantId) :
    (recordAttachedSubscriptionChange r counters c g).1.streams = r.streams ∧
      (recordAttachedSubscriptionChange r counters c g).1.ownerRoutes =
        r.ownerRoutes := by
  unfold recordAttachedSubscriptionChange
  cases c with
  | attach =>
    dsimp only
    split
    · exact ⟨rfl, rfl⟩
    · split <;> exact ⟨rfl, rfl⟩
  | detach =>
    dsimp only
    split <;> exact ⟨rfl, rfl⟩

end BotsterHub.Attach
