import BotsterHub.Maintenance.HostBridge

/-!
What the operations of the session-family bridge change: at most one consumer. They keep the ready
set exact, so a consumer picked from it has a handler and a frame.
-/

namespace BotsterHub.Maintenance

open AList Finset SessionFamilyConsumer

open Session

namespace SessionFamilyBridge

structure SameScans (b b' : SessionFamilyBridge) : Prop where
  nextRequestSerial : b'.nextRequestSerial = b.nextRequestSerial
  refreshAfter : b'.refreshAfter = b.refreshAfter
  refreshSeen : b'.refreshSeen = b.refreshSeen
  pendingFanout : b'.pendingFanout = b.pendingFanout
  fanoutBytes : b'.fanoutBytes = b.fanoutBytes
  gapAfter : b'.gapAfter = b.gapAfter
  needGapPass : b'.needGapPass = b.needGapPass
  snapshotStartAfter : b'.snapshotStartAfter = b.snapshotStartAfter
  snapshotStartSequence : b'.snapshotStartSequence = b.snapshotStartSequence
  admitAfter : b'.admitAfter = b.admitAfter
  pruneAfter : b'.pruneAfter = b.pruneAfter
  needPrune : b'.needPrune = b.needPrune

variable {b b' b'' : SessionFamilyBridge}

theorem SameScans.trans (h : b.SameScans b') (h' : b'.SameScans b'') : b.SameScans b'' where
  nextRequestSerial := h'.nextRequestSerial.trans h.nextRequestSerial
  refreshAfter := h'.refreshAfter.trans h.refreshAfter
  refreshSeen := h'.refreshSeen.trans h.refreshSeen
  pendingFanout := h'.pendingFanout.trans h.pendingFanout
  fanoutBytes := h'.fanoutBytes.trans h.fanoutBytes
  gapAfter := h'.gapAfter.trans h.gapAfter
  needGapPass := h'.needGapPass.trans h.needGapPass
  snapshotStartAfter := h'.snapshotStartAfter.trans h.snapshotStartAfter
  snapshotStartSequence := h'.snapshotStartSequence.trans h.snapshotStartSequence
  admitAfter := h'.admitAfter.trans h.admitAfter
  pruneAfter := h'.pruneAfter.trans h.pruneAfter
  needPrune := h'.needPrune.trans h.needPrune

/-- `assert_ready_set`: the ready set is exact, and only consumers are parked. -/
structure Indexed (b : SessionFamilyBridge) : Prop where
  ready_iff : ∀ key, key ∈ b.ready ↔ b.canAdmit key
  parked : ∀ key ∈ b.parked, (b.consumers.lookup key).isSome

theorem indexed_new : new.Indexed :=
  ⟨fun key => by simp [new, canAdmit], fun key hk => by simp [new] at hk⟩

variable {b : SessionFamilyBridge} {key : String}

theorem indexed_syncReady (hr : ∀ j ≠ key, (j ∈ b.ready ↔ b.canAdmit j))
    (hp : ∀ j ∈ b.parked, (b.consumers.lookup j).isSome) : (b.syncReady key).Indexed := by
  refine ⟨fun j => ?_, hp⟩
  change j ∈ (if b.canAdmit key then insert key b.ready else b.ready.erase key) ↔ b.canAdmit j
  by_cases hj : j = key
  · subst hj
    split <;> simp_all
  · rw [← hr j hj]
    split <;> simp [hj]

theorem canAdmit_eq (b : SessionFamilyBridge) (key : String) : b.canAdmit key =
      (decide (key ∉ b.parked) && (b.consumers.lookup key).any admittable) := rfl

theorem mem_ready_of_nextReady (h : b.nextReady = some key) : key ∈ b.ready := by
  rcases Option.or_eq_some_iff.mp h with h | ⟨-, h⟩
  · exact (mem_filter.mp (mem_of_min h)).1
  · exact mem_of_min h

theorem Indexed.ready (h : b.Indexed) (hk : key ∈ b.ready) :
    ∃ c, b.consumers.lookup key = some c ∧ key ∉ b.parked ∧ c.admittable := by
  have hcan := (h.ready_iff key).mp hk
  rw [canAdmit_eq, Bool.and_eq_true, decide_eq_true_eq, Option.any_eq_true] at hcan
  obtain ⟨hp, c, hc, ha⟩ := hcan
  exact ⟨c, hc, hp, ha⟩

structure Stores (b b' : SessionFamilyBridge) (key : String) (c : SessionFamilyConsumer) :
    Prop where
  lookup : ∀ j, b'.consumers.lookup j = if j = key then some c else b.consumers.lookup j
  scans : b.SameScans b'
  indexed : b.Indexed → b'.Indexed

theorem stores_setConsumer (b : SessionFamilyBridge) (key : String) (c : SessionFamilyConsumer) :
    b.Stores (b.setConsumer key c) key c where
  lookup j := lookup_insert_eq ..
  scans := by constructor <;> rfl
  indexed h := by
    refine indexed_syncReady (fun j hj => ?_) (fun j hj => ?_)
    · rw [canAdmit_eq, lookup_insert_eq, if_neg hj]
      exact h.ready_iff j
    rw [lookup_insert_eq]
    split
    · rfl
    · exact h.parked j hj

theorem stores_touchConsumer (b : SessionFamilyBridge) (key : String)
    (f : SessionFamilyConsumer → SessionFamilyConsumer) :
    b.Stores (b.touchConsumer key f) key (f (b.consumer key)) :=
  stores_setConsumer ..

structure SameConsumers (b b' : SessionFamilyBridge) : Prop where
  consumers : b'.consumers = b.consumers
  scans : b.SameScans b'
  indexed : b.Indexed → b'.Indexed

section

variable (b : SessionFamilyBridge)

theorem sameConsumers_unpark (key : String) : b.SameConsumers (b.unpark key) := by
  unfold unpark
  split
  · refine ⟨rfl, by constructor <;> rfl, fun h => ?_⟩
    have hs : ({ b with parked := b.parked.erase key }.syncReady key).Indexed := by
      refine indexed_syncReady (fun j hj => ?_) (fun j hj => ?_)
      · rw [canAdmit_eq]
        simpa [Finset.mem_erase, hj, canAdmit_eq] using h.ready_iff j
      · exact h.parked j (mem_of_mem_erase hj)
    exact ⟨hs.ready_iff, hs.parked⟩
  · exact ⟨rfl, (by constructor <;> rfl), id⟩

theorem sameConsumers_unparkAll : b.SameConsumers b.unparkAll := by
  refine ⟨rfl, by constructor <;> rfl, fun h => ?_⟩
  refine ⟨fun key => ?_, fun key hk => absurd hk (Finset.notMem_empty key)⟩
  have hr := h.ready_iff key
  rw [canAdmit_eq, Bool.and_eq_true, decide_eq_true_eq] at hr
  change key ∈ (b.ready \ b.parked) ∪ _ ↔ _
  rw [canAdmit_eq, Finset.mem_union, Finset.mem_sdiff, Finset.mem_filter, hr]
  change _ ↔ (decide (key ∉ (∅ : Finset String)) && _) = true
  tauto

theorem sameConsumers_forgetRequest
    (f : Option InFlightSessionFamily) : b.SameConsumers (b.forgetRequest f) where
  consumers := rfl
  scans := by constructor <;> rfl
  indexed h := ⟨h.ready_iff, h.parked⟩

end

theorem SameConsumers.trans (h : b.SameConsumers b')
    (h' : b'.SameConsumers b'') : b.SameConsumers b'' where
  consumers := h'.consumers.trans h.consumers
  scans := h.scans.trans h'.scans
  indexed hb := h'.indexed (h.indexed hb)

variable {b b' : SessionFamilyBridge}

theorem SameConsumers.consumer_eq (h : b.SameConsumers b')
    (key : String) : b'.consumer key = b.consumer key := by
  rw [consumer, consumer, h.consumers]

theorem SameConsumers.touchConsumer (h : b.SameConsumers b')
    (key : String) (f : SessionFamilyConsumer → SessionFamilyConsumer) :
    b.Stores (b'.touchConsumer key f) key (f (b.consumer key)) := by
  have ht := stores_touchConsumer b' key f
  rw [h.consumer_eq] at ht
  exact
    { lookup := fun j => by rw [ht.lookup j, h.consumers]
      scans := h.scans.trans ht.scans
      indexed := fun hb => ht.indexed (h.indexed hb) }

section

variable (b : SessionFamilyBridge)

theorem stores_beginSnapshot (key : String) (s : ℕ) :
    b.Stores (b.beginSnapshot key s) key ((b.consumer key).begun s) :=
  (sameConsumers_unpark b key).touchConsumer key fun c => c.begun s

theorem stores_markGap (key : String) : b.Stores (b.markGap key) key (b.consumer key).gapped :=
  ((sameConsumers_forgetRequest b _).trans (sameConsumers_unpark _ key)).touchConsumer key gapped

theorem stores_queueDelta (key : String) (f : FamilyFrame) :
    b.Stores (b.queueDelta key f).2 key ((b.consumer key).queueDelta f).2 :=
  stores_touchConsumer b key fun c => (c.queueDelta f).2

end

theorem indexed_park (h : b.Indexed)
    (hk : (b.consumers.lookup key).isSome) : (b.park key).Indexed := by
  refine indexed_syncReady (fun j hj => ?_) (fun j hj => ?_)
  · rw [canAdmit_eq]
    simpa [hj, canAdmit_eq] using h.ready_iff j
  rcases mem_insert.mp hj with rfl | hj
  · exact hk
  · exact h.parked j hj

theorem indexed_removeConsumer (h : b.Indexed) (key : String) : (b.removeConsumer key).Indexed := by
  refine ⟨fun j => ?_, fun j hj => ?_⟩
  · change j ∈ b.ready.erase key ↔ _
    rw [canAdmit_eq]
    change _ ↔ (decide (j ∉ b.parked.erase key) &&
      ((b.consumers.erase key).lookup j).any admittable) = true
    rw [AList.lookup_erase_eq, Finset.mem_erase, h.ready_iff j, canAdmit_eq]
    by_cases hj : j = key <;> simp [hj]
  · change ((b.consumers.erase key).lookup j).isSome
    obtain ⟨hne, hm⟩ := mem_erase.mp hj
    rw [lookup_erase_eq, if_neg hne]
    exact h.parked j hm

end SessionFamilyBridge

end BotsterHub.Maintenance
