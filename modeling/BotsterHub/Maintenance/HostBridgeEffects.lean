import BotsterHub.Maintenance.FamilyIndexes
import BotsterHub.Maintenance.Lifecycle

/-!
What a host bridge slice does to the lifecycle projection (`MaintenanceState.lifecycle`): a
finished gap pass starts the baseline, and a frame that the engine rejects starts a recovery.
-/

namespace BotsterHub.Maintenance

open List Option SessionFamilyConsumer SessionFamilyBridge HostBridgeBudget

open Session

structure Lifecycle where
  projection : SessionProjection
  pendingChanges : List LifecycleChange
  baseline : Option BaselineRecovery
  needGapPass : Bool
  seals : ℕ
  sealedAt : Option LifecycleCursor
  applied : List LifecycleChange
  queued : List FamilyFrame

def MaintenanceState.lifecycle (st : MaintenanceState) : Lifecycle where
  projection := st.projection
  pendingChanges := st.pendingChanges
  baseline := st.baseline
  needGapPass := st.sessionFamily.needGapPass
  seals := st.history.seals
  sealedAt := st.history.sealedAt
  applied := st.history.applied
  queued := st.history.queued

namespace Lifecycle

variable (l : Lifecycle)

def recover : Lifecycle :=
  { l with
    projection := l.projection.beginBaselineRecovery
    pendingChanges := []
    baseline := none
    needGapPass := true }

def startBaseline : Lifecycle :=
  { l with baseline := some ⟨none, none⟩, needGapPass := false }

def ingest (page : Core.BaselinePage) : Lifecycle :=
  { l with
    baseline := l.baseline.map fun _ => ⟨some page.snapshotSequence, page.next⟩
    projection := l.projection.ingestBaselineRows page.snapshotSequence.sequence page.sessions }

def complete (page : Core.BaselinePage) : Lifecycle :=
  { l with
    baseline := none
    projection := (l.ingest page).projection.sealBaseline page.snapshotSequence
    seals := l.seals + 1
    sealedAt := some page.snapshotSequence
    applied := []
    queued := [] }

def apply (change : LifecycleChange) (frames : List FamilyFrame) : Lifecycle :=
  { l with
    projection := l.projection.applyChange change
    applied := l.applied ++ [change]
    queued := l.queued ++ frames }

end Lifecycle

theorem visitKeys_spec {σ : Type*} (pay : HostBridgeBudget → Bool × HostBridgeBudget)
    (f : σ → String → σ) (keys : List String) (s : σ) (budget : HostBridgeBudget) :
    ∃ v budget', visitKeys pay f keys s budget = (v.foldl f s, budget', v) := by
  induction keys generalizing s budget with
  | nil => exact ⟨[], budget, rfl⟩
  | cons key keys ih =>
    cases hp : pay budget with
    | mk paid budget₁ =>
      cases paid with
      | false => exact ⟨[], budget₁, by rw [visitKeys, hp]; rfl⟩
      | true =>
        obtain ⟨v, budget', heq⟩ := ih (f s key) budget₁
        refine ⟨key :: v, budget', ?_⟩
        rw [visitKeys, hp]
        simp [heq, foldl_cons]

structure Serves (b b' : SessionFamilyBridge) : Prop where
  needGapPass : b'.needGapPass = b.needGapPass
  indexed : b.Indexed → b'.Indexed

theorem Serves.refl (b : SessionFamilyBridge) : Serves b b := ⟨rfl, id⟩

theorem Serves.trans (h : Serves b b') (h' : Serves b' b'') :
    Serves b b'' := ⟨h'.needGapPass.trans h.needGapPass, fun hb => h'.indexed (h.indexed hb)⟩

theorem SessionFamilyBridge.Stores.serves (h : b.Stores b' key c) : Serves b b' :=
  ⟨h.scans.needGapPass, h.indexed⟩

theorem serves_touchExistingConsumer (b : SessionFamilyBridge) (key : String)
    (f : SessionFamilyConsumer → SessionFamilyConsumer) :
    Serves b (b.touchExistingConsumer key f) := by
  unfold touchExistingConsumer
  split
  · exact Serves.refl b
  · exact (stores_setConsumer ..).serves

theorem serves_foldl {α : Type*} {f : SessionFamilyBridge → α → SessionFamilyBridge}
    (h : ∀ b a, Serves b (f b a)) (l : List α) (b : SessionFamilyBridge) :
    Serves b (l.foldl f b) :=
  foldlRecOn l f (.refl b) fun b' hb a _ => hb.trans (h b' a)

theorem serves_visitKeys {f : SessionFamilyBridge → String → SessionFamilyBridge}
    (h : ∀ b key, Serves b (f b key)) (pay : HostBridgeBudget → Bool × HostBridgeBudget)
    (keys : List String) (b : SessionFamilyBridge) (budget : HostBridgeBudget) :
    Serves b (visitKeys pay f keys b budget).1 := by
  obtain ⟨v, budget', heq⟩ := visitKeys_spec pay f keys b budget
  rw [heq]
  exact serves_foldl h v b

namespace MaintenanceState

def PassEffect (st st' : MaintenanceState) : Prop :=
  ∃ b baseline, st' = { st with sessionFamily := b, baseline := baseline } ∧
    (b.needGapPass = st.sessionFamily.needGapPass ∧ baseline = st.baseline ∨
      st.sessionFamily.needGapPass = true ∧ b.needGapPass = false ∧ baseline = some ⟨none, none⟩) ∧
    (st.sessionFamily.Indexed → b.Indexed)

variable {st : MaintenanceState}

theorem PassEffect.of_serves
    (h : Serves st.sessionFamily b) : PassEffect st { st with sessionFamily := b } :=
  ⟨b, st.baseline, rfl, .inl ⟨h.needGapPass, rfl⟩, h.indexed⟩

theorem PassEffect.refl (st : MaintenanceState) : PassEffect st st :=
  PassEffect.of_serves (Serves.refl st.sessionFamily)

theorem PassEffect.trans (h : PassEffect st st')
    (h' : PassEffect st' st'') : PassEffect st st'' := by
  obtain ⟨b, baseline, rfl, hg, hi⟩ := h
  obtain ⟨b', baseline', rfl, hg', hi'⟩ := h'
  refine ⟨b', baseline', rfl, ?_, fun hb => hi' (hi hb)⟩
  rcases hg with ⟨hn, rfl⟩ | ⟨hn, hd, rfl⟩
  · rcases hg' with ⟨hn', rfl⟩ | ⟨hn', hd', rfl⟩
    · exact .inl ⟨hn'.trans hn, rfl⟩
    · exact .inr ⟨hn.symm.trans hn', hd', rfl⟩
  rcases hg' with ⟨hn', rfl⟩ | ⟨hn', -⟩
  · exact .inr ⟨hn, hn'.trans hd, rfl⟩
  · exact absurd (hd.symm.trans hn') (by decide)

theorem refreshConsumer_effect (st : MaintenanceState) (h : HubPluginEventHandler) :
    PassEffect st (st.refreshConsumer h) := by
  unfold refreshConsumer
  split
  · exact PassEffect.refl st
  apply PassEffect.of_serves
  have hs : Serves st.sessionFamily
      { st.sessionFamily with
        refreshSeen := insert h.handler.pluginKey st.sessionFamily.refreshSeen } :=
    ⟨rfl, fun hb => ⟨hb.ready_iff, hb.parked⟩⟩
  have ht := hs.trans (stores_touchConsumer _ h.handler.pluginKey
    fun c =>
      { c with
        handler := some h.handler
        gap := if (st.sessionFamily.consumers.lookup h.handler.pluginKey).isSome then c.gap
          else true }).serves
  split
  · exact ht.trans (stores_beginSnapshot ..).serves
  · exact ht

theorem refresh_effect (i : EventInstalls) (st : MaintenanceState) (b : HostBridgeBudget) :
    PassEffect st (st.refreshSessionFamilyConsumers i b).1 := by
  unfold refreshSessionFamilyConsumers
  dsimp only
  split
  · exact PassEffect.refl st
  have hf := fun handlers => foldlRecOn (motive := PassEffect st) handlers refreshConsumer
    (.refl st) fun st' h handler _ => h.trans (refreshConsumer_effect st' handler)
  split <;> exact (hf _).trans (.of_serves ⟨rfl, fun hb => ⟨hb.ready_iff, hb.parked⟩⟩)

section

variable (st : MaintenanceState)

theorem gapPass_effect (budget : HostBridgeBudget) :
    PassEffect st (st.continueGapPass budget).1 := by
  unfold continueGapPass
  split
  · exact PassEffect.refl st
  next hn =>
  dsimp only
  split
  · exact PassEffect.refl st
  have hv := serves_visitKeys (fun b key => (stores_markGap b key).serves) take
    (consumerKeysPage st.sessionFamily.consumers st.sessionFamily.gapAfter
      budget.remainingVisits) st.sessionFamily budget
  split
  · exact PassEffect.of_serves (hv.trans ⟨rfl, fun hb => ⟨hb.ready_iff, hb.parked⟩⟩)
  refine ⟨_, _, rfl, .inr ⟨by simpa using hn, rfl, rfl⟩, fun hb => ?_⟩
  have hb' := hv.indexed hb
  exact ⟨hb'.ready_iff, hb'.parked⟩

theorem snapshotStarts_effect (budget : HostBridgeBudget) :
    PassEffect st (st.continueSnapshotStarts budget).1 := by
  unfold continueSnapshotStarts
  split
  · exact PassEffect.refl st
  next s _ =>
  dsimp only
  split
  · exact PassEffect.refl st
  have hv := serves_visitKeys (fun b key => (stores_beginSnapshot b key s).serves) take
    (consumerKeysPage st.sessionFamily.consumers st.sessionFamily.snapshotStartAfter
      budget.remainingVisits) st.sessionFamily budget
  split <;> exact PassEffect.of_serves (hv.trans ⟨rfl, fun hb => ⟨hb.ready_iff, hb.parked⟩⟩)

theorem fanoutTo_serves (f : FamilyFrame) (b : SessionFamilyBridge)
    (key : String) : Serves b (st.fanoutTo f b key) := by
  have hq := (stores_queueDelta b key f).serves
  unfold fanoutTo
  split
  · next heq =>
    rw [heq] at hq
    exact hq
  next heq =>
  rw [heq] at hq
  have hg := hq.trans (stores_markGap _ key).serves
  split
  · exact hg.trans (stores_beginSnapshot ..).serves
  · exact hg

theorem fanoutFamilyFrame_serves (b : SessionFamilyBridge)
    (job : FanoutJob) (budget : HostBridgeBudget) :
    Serves b (st.fanoutFamilyFrame b job budget).1 := by
  unfold fanoutFamilyFrame
  dsimp only
  split
  · exact Serves.refl b
  have hv := serves_visitKeys (st.fanoutTo_serves job.frame) (takeBytes job.bytes)
    (consumerKeysPage b.consumers job.after budget.remainingVisits) b budget
  split <;> exact hv

theorem fanoutLoop_serves (jobs : List FanoutJob)
    (b : SessionFamilyBridge) (budget : HostBridgeBudget) :
    Serves b (st.fanoutLoop jobs b budget).1 := by
  induction jobs generalizing b budget with
  | nil => exact ⟨rfl, fun hb => ⟨hb.ready_iff, hb.parked⟩⟩
  | cons job _ ih =>
    unfold fanoutLoop
    split
    · exact ⟨rfl, fun hb => ⟨hb.ready_iff, hb.parked⟩⟩
    next budget₁ _ =>
    have hp : Serves b { b with fanoutBytes := b.fanoutBytes - job.bytes } :=
      ⟨rfl, fun hb => ⟨hb.ready_iff, hb.parked⟩⟩
    have hj := hp.trans (st.fanoutFamilyFrame_serves
      { b with fanoutBytes := b.fanoutBytes - job.bytes } job budget₁)
    split
    · next heq =>
      rw [heq] at hj
      exact hj.trans ⟨rfl, fun hb => ⟨hb.ready_iff, hb.parked⟩⟩
    next heq =>
    rw [heq] at hj
    exact hj.trans (ih _ _)

theorem familyFanout_effect (b : HostBridgeBudget) : PassEffect st (st.continueFamilyFanout b).1 :=
  PassEffect.of_serves (st.fanoutLoop_serves ..)

end

theorem pruneConsumer_serves (b : SessionFamilyBridge) (key : String) :
    Serves b (pruneConsumer b key) := by
  unfold pruneConsumer
  split
  · exact Serves.refl b
  · exact ⟨rfl, fun hb => ⟨(indexed_removeConsumer hb key).ready_iff,
      (indexed_removeConsumer hb key).parked⟩⟩

theorem consumerPrune_effect (st : MaintenanceState) (b : HostBridgeBudget) :
    PassEffect st (st.continueConsumerPrune b).1 := by
  unfold continueConsumerPrune
  split
  · exact PassEffect.refl st
  dsimp only
  split
  · exact PassEffect.refl st
  generalize (visitKeys take _ _ ([] : List String) b).1 = dropKeys
  have hd := serves_foldl pruneConsumer_serves dropKeys st.sessionFamily
  split <;> exact PassEffect.of_serves (hd.trans ⟨rfl, fun hb => ⟨hb.ready_iff, hb.parked⟩⟩)

theorem unlessExhausted_effect
    {pass : MaintenanceState → HostBridgeBudget → MaintenanceState × HostBridgeBudget}
    (hp : ∀ st b, PassEffect st (pass st b).1) (h : PassEffect st p.1) :
    PassEffect st (unlessExhausted pass p).1 := by
  unfold unlessExhausted
  split
  · exact h
  · exact h.trans (hp ..)

theorem hostBridgePasses_effect (i : EventInstalls) (t : Option ℕ)
    (st : MaintenanceState) : PassEffect st (st.hostBridgePasses i t).1 := by
  have hr := refresh_effect i st (HostBridgeBudget.new t)
  have hg := unlessExhausted_effect gapPass_effect hr
  have hs := unlessExhausted_effect snapshotStarts_effect hg
  have hf := unlessExhausted_effect familyFanout_effect hs
  exact unlessExhausted_effect consumerPrune_effect hf

theorem peek_ne_none {c : SessionFamilyConsumer} (h : c.admittable)
    (parseTraits : String → Option (List String)) (p : SessionProjection) :
    c.peek parseTraits p ≠ .ok none := by
  unfold admittable at h
  simp only [Bool.and_eq_true, Bool.or_eq_true, Bool.not_eq_true'] at h
  obtain ⟨⟨hh, hf⟩, hframe⟩ := h
  unfold peek
  rw [if_neg (by simpa [hf] using isSome_iff_ne_none.mp hh)]
  split
  · exact fun heq => by cases heq
  next hp =>
  have hn : c.needSnapshotChunks = true := by simpa [hp] using hframe
  rw [hn, Bool.not_true, if_neg Bool.false_ne_true]
  split <;> exact fun heq => by cases heq

theorem noteAdmitted_spec (st : MaintenanceState) (key : String) (p : PeekedFamilyPayload)
    (r : FamilyRequestId) (h : st.sessionFamily.Indexed) :
    (st.noteAdmitted key p r).sessionFamily.Indexed ∧
      (st.noteAdmitted key p r).lifecycle = st.lifecycle := by
  have hc := serves_touchExistingConsumer st.sessionFamily key fun c => c.commit p
  have hs := hc.trans (stores_touchConsumer _ key fun c =>
    { c with inFlight := some ⟨r, c.snapshotSequence, p.frame.kind⟩ }).serves
  have hb := hs.indexed h
  refine ⟨⟨hb.ready_iff, hb.parked⟩, ?_⟩
  simp only [lifecycle, noteAdmitted]
  rw [hs.needGapPass]

theorem offerFrame_spec (st : MaintenanceState) (key : String) (p : PeekedFamilyPayload)
    (a : PluginAdmission) (h : st.sessionFamily.Indexed)
    (hk : (st.sessionFamily.consumers.lookup key).isSome) :
    (st.offerFrame key p a).sessionFamily.Indexed ∧
      ((st.offerFrame key p a).lifecycle = st.lifecycle ∨
        a = .other ∧ (st.offerFrame key p a).lifecycle = st.lifecycle.recover) := by
  set b := { (st.sessionFamily.nextRequestId key p.frame.snapshotSequence).2 with
    admitAfter := some key } with hbdef
  have hb : b.Indexed := ⟨h.ready_iff, h.parked⟩
  cases a with
  | queued =>
    have hn := noteAdmitted_spec { st with sessionFamily := b } key p
      (st.sessionFamily.nextRequestId key p.frame.snapshotSequence).1 hb
    exact ⟨hn.1, .inl hn.2⟩
  | backpressured | lockBusy => exact ⟨indexed_park hb hk, .inl rfl⟩
  | other =>
    have hg := (stores_markGap b key).indexed hb
    exact ⟨⟨hg.ready_iff, hg.parked⟩, .inr ⟨rfl, rfl⟩⟩

section

variable (parseTraits : String → Option (List String))

theorem admitNext_spec (a : PluginAdmission)
    (st : MaintenanceState) (b : HostBridgeBudget) (h : st.sessionFamily.Indexed) :
    ∃ st', st.admitNextSessionFamilyFrame parseTraits a b = some st' ∧ st'.sessionFamily.Indexed ∧
      (st'.lifecycle = st.lifecycle ∨ a = .other ∧ st'.lifecycle = st.lifecycle.recover) := by
  unfold admitNextSessionFamilyFrame
  cases hn : st.sessionFamily.nextReady with
  | none => exact ⟨st, rfl, h, .inl rfl⟩
  | some key =>
    obtain ⟨c, hc, -, ha⟩ := h.ready (mem_ready_of_nextReady hn)
    have hh : c.handler.isSome := by
      unfold admittable at ha
      simp only [Bool.and_eq_true] at ha
      exact ha.1.1
    simp only [hc, elim_some, bind_some]
    split
    · next hp => exact absurd hp (peek_ne_none ha parseTraits st.projection)
    · have hs := stores_markGap st.sessionFamily key
      have hg := hs.indexed h
      refine ⟨_, rfl, ⟨hg.ready_iff, hg.parked⟩, .inl ?_⟩
      simp only [lifecycle, faultLifecycle]
      rw [hs.scans.needGapPass]
    · next p _ =>
      split
      · exact ⟨st, rfl, h, .inl rfl⟩
      · rw [if_neg (by simpa using isSome_iff_ne_none.mp hh)]
        exact ⟨_, rfl, offerFrame_spec st key p a h (by rw [hc]; rfl)⟩

theorem runHostBridgeSlice_spec (i : EventInstalls) (t : Option ℕ) (a : PluginAdmission)
    (st : MaintenanceState) (h : st.sessionFamily.Indexed) :
    ∃ st' l, st.runHostBridgeSlice parseTraits i t a = some st' ∧ st'.sessionFamily.Indexed ∧
      (l = st.lifecycle ∨ st.lifecycle.needGapPass = true ∧ l = st.lifecycle.startBaseline) ∧
      (st'.lifecycle = l ∨ a = .other ∧ st'.lifecycle = l.recover) := by
  obtain ⟨b, baseline, heq, hg, hi⟩ := hostBridgePasses_effect i t st
  set st₁ := (st.hostBridgePasses i t).1 with hst₁
  have h₁ : st₁.sessionFamily.Indexed := by
    rw [heq]
    exact hi h
  have hl : st₁.lifecycle = st.lifecycle ∨
      st.lifecycle.needGapPass = true ∧ st₁.lifecycle = st.lifecycle.startBaseline := by
    rcases hg with ⟨hn, hb⟩ | ⟨hn, hd, hb⟩
    · exact .inl (by simp [heq, lifecycle, hn, hb])
    · exact .inr ⟨hn, by simp [heq, lifecycle, Lifecycle.startBaseline, hd, hb]⟩
  unfold runHostBridgeSlice
  dsimp only
  split
  · exact ⟨st₁, st₁.lifecycle, rfl, h₁, hl, .inl rfl⟩
  next budget _ =>
  obtain ⟨st', hst', hi', hl'⟩ := admitNext_spec parseTraits a st₁ budget h₁
  exact ⟨st', st₁.lifecycle, hst', hi', hl, hl'⟩

end

end MaintenanceState

end BotsterHub.Maintenance
