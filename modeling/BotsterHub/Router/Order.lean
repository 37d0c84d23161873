import BotsterHub.Router.Run

/-!
The order of the copies in a queue.

Envelope ids grow with every accepted event. Only a pull and a requeue act on the front of a
queue; every other operation leaves it, drops copies, or appends copies of a new envelope.
-/

namespace BotsterHub.Router

open List Option EnvelopeStore RouterInner Queues

namespace RouterInner

/-- The queues lose copies and grow at their ends by copies of new envelopes. -/
structure Advances (inner inner' : RouterInner) : Prop where
  next_le : inner.store.nextEnvelope ≤ inner'.store.nextEnvelope
  queue : ∀ plugin, ∃ kept fresh : List QueuedCopy,
    (inner'.queues.queueOf plugin).copies = kept ++ fresh ∧
    kept.Sublist (inner.queues.queueOf plugin).copies ∧
    fresh.Pairwise (fun copy other => copy.envelopeId ≤ other.envelopeId) ∧
    ∀ copy ∈ fresh, inner.store.nextEnvelope ≤ copy.envelopeId

variable {inner inner' : RouterInner}

section

variable (hn : inner'.store.nextEnvelope = inner.store.nextEnvelope)
include hn

theorem Advances.of_sublist (h : ∀ p, (inner'.queues.queueOf p).copies.Sublist
      (inner.queues.queueOf p).copies) : Advances inner inner' where
  next_le := hn.ge
  queue p := ⟨_, [], (append_nil _).symm, h p, Pairwise.nil, by simp⟩

theorem Advances.of_queues_eq (h : inner'.queues = inner.queues) : Advances inner inner' :=
  .of_sublist hn fun plugin => by rw [h]

end

variable {q q' : Queues}

/-! #### Ingress -/

theorem queueOf_enqueueConsumerCopy {id size : ℕ} {s : EventSubscription}
    (h : q.enqueueConsumerCopy id size s = some q') (p : String) :
    (q'.queueOf p).copies = (q.queueOf p).copies ++
      if p = s.pluginKey then [⟨id, s⟩] else [] := by
  unfold enqueueConsumerCopy at h
  have hl := q.lookup_ensureConsumer s.pluginKey
  simp only [noteQueuedCopy_consumers, hl] at h
  cases h
  have hq (r : Queues) : ((if (q.queueOf s.pluginKey).copies.isEmpty then
      r.markReady s.pluginKey else r).queueOf p) = r.queueOf p := by
    split
    · exact queueOf_markReady ..
    · rfl
  rw [hq, queueOf_setQueue]
  by_cases hp : p = s.pluginKey
  · rw [if_pos hp, if_pos hp, hp]
  · rw [if_neg hp, if_neg hp, append_nil, queueOf_noteQueuedCopy, queueOf_ensureConsumer]

theorem queueOf_enqueueAll {id size : ℕ} {l : List EventSubscription}
    (h : l.foldlM (fun (q : Queues) s => q.enqueueConsumerCopy id size s) q = some q')
    (p : String) : ∃ fresh : List QueuedCopy,
      (q'.queueOf p).copies = (q.queueOf p).copies ++ fresh ∧
      ∀ copy ∈ fresh, copy.envelopeId = id := by
  refine Machine.run_rel (R := fun q q' : Queues => ∃ fresh : List QueuedCopy,
    (q'.queueOf p).copies = (q.queueOf p).copies ++ fresh ∧
      ∀ copy ∈ fresh, copy.envelopeId = id) (fun q => ⟨[], by simp⟩) ?_ ?_ h
  · rintro q₁ q₂ q₃ ⟨fresh, heq, hi⟩ ⟨fresh', heq', hi'⟩
    refine ⟨fresh ++ fresh', by rw [heq', heq, append_assoc], fun copy hc => ?_⟩
    rcases mem_append.mp hc with hc | hc
    · exact hi copy hc
    · exact hi' copy hc
  · intro q₁ s q₂ hs
    refine ⟨_, queueOf_enqueueConsumerCopy hs p, fun copy hc => ?_⟩
    split at hc
    · rw [mem_singleton.mp hc]
    · cases hc

theorem queueOf_admitCopies (policy : Policy) (size : ℕ) (l : List EventSubscription)
    (q : Queues) (p : Dict String (ℕ × ℕ)) (plugin : String) :
    (admitCopies policy size l q p).2.queueOf plugin = q.queueOf plugin := by
  induction l generalizing q p with
  | nil => rfl
  | cons s l ih =>
    simp only [admitCopies]
    split <;> rw [ih, queueOf_ensureConsumer]

variable {payload : Json} {now : Instant} {encoded : List UInt8}

theorem publish_advances {owner name : String} {a : List EventSubscription}
    (h : inner.publish owner name payload encoded now a = some inner') :
    Advances inner inner' := by
  obtain ⟨queues, hq, rfl⟩ := map_eq_some_iff.mp h
  refine ⟨Nat.le_succ _, fun p => ?_⟩
  obtain ⟨f, heq, hids⟩ := queueOf_enqueueAll hq p
  refine ⟨_, f, heq, Sublist.refl _, ?_, fun copy hc => (hids copy hc).ge⟩
  refine pairwise_iff_getElem.mpr fun i j hi hj _ => ?_
  rw [hids _ (getElem_mem hi), hids _ (getElem_mem hj)]

theorem fanOut_advances (h : inner.fanOut owner name payload encoded now = some (r, inner')) :
    Advances inner inner' := by
  unfold fanOut at h
  dsimp only at h
  have hn := inner.store.next_ensureProducer owner
  split at h
  · cases h
    exact .of_queues_eq rfl rfl
  split at h
  · cases h
    exact .of_queues_eq hn rfl
  have hv (p : String) := queueOf_admitCopies inner.policy encoded.length
    (selectSubscriptions inner.registry owner name) inner.queues ∅ p
  have hs {queues : Queues} (hq : ∀ p, queues.queueOf p = inner.queues.queueOf p) :
      Advances inner { inner with store := inner.store.ensureProducer owner, queues := queues } :=
    .of_sublist hn fun p => by rw [hq]
  split at h
  · split at h
    · cases h
      exact hs hv
    · cases h
      exact hs hv
  split at h
  · cases h
    exact hs hv
  obtain ⟨published, hp, heq⟩ := map_eq_some_iff.mp h
  cases heq
  have ha := publish_advances hp
  refine ⟨hn.ge.trans ha.next_le, fun p => ?_⟩
  obtain ⟨kept, f, hqueue, hk, hsorted, hi⟩ := ha.queue p
  rw [hv] at hk
  rw [hn] at hi
  exact ⟨kept, f, hqueue, hk, hsorted, hi⟩

theorem tryIngressNow_advances
    (h : inner.tryIngressNow encode c name payload now = some (result, inner')) :
    Advances inner inner' := by
  have same {result' : Ingress} (h : some (result', inner) = some (result, inner')) :
      Advances inner inner' := by
    cases h
    exact .of_queues_eq rfl rfl
  unfold tryIngressNow at h
  split at h
  · exact same h
  split at h
  · exact same h
  split at h
  · split at h <;> exact same h
  split at h
  · exact same h
  split at h
  · exact same h
  split at h
  · exact same h
  split at h
  · exact same h
  dsimp only at h
  split at h
  · have ha := fanOut_advances h
    exact ⟨ha.next_le, ha.queue⟩
  · cases h
    exact .of_queues_eq rfl rfl

variable {remove : QueuedCopy → Bool}

/-! #### Unload -/

theorem copies_dropFrom (h : q.dropFrom remove v = some (dropped, q'))
    (p : String) : (q'.queueOf p).copies.Sublist (q.queueOf p).copies := by
  unfold dropFrom at h
  split at h
  · cases h
  next queue hl =>
  have hk (r : Queues) (hr : ∀ o, r.queueOf o = q.queueOf o) (queue' : ConsumerQueue)
      (hc : queue'.copies = queue.copies.filter fun copy => !remove copy) :
      ((r.setQueue v queue').queueOf p).copies.Sublist (q.queueOf p).copies := by
    rw [queueOf_setQueue]
    split
    · next hp =>
      rw [hp, queueOf_of_lookup hl, hc]
      exact filter_sublist
    · rw [hr]
  dsimp only at h
  split at h
  · obtain ⟨events, -, heq⟩ := map_eq_some_iff.mp h
    cases heq
    refine hk _ (fun o => ?_) _ rfl
    split <;> rfl
  · cases h
    exact hk q (fun _ => rfl) _ rfl

theorem copies_dropFromConsumers (h : dropFromConsumers remove (dropped, q) c = some (dropped', q'))
    (p : String) : (q'.queueOf p).copies.Sublist (q.queueOf p).copies := by
  refine Machine.run_rel (R := fun state state' : List QueuedCopy × Queues =>
    (state'.2.queueOf p).copies.Sublist (state.2.queueOf p).copies)
    (fun _ => Sublist.refl _) (fun _ _ _ h h' => h'.trans h) ?_ h
  intro state visited state' hs
  obtain ⟨⟨more, q₁⟩, hd, rfl⟩ := map_eq_some_iff.mp hs
  exact copies_dropFrom hd p

theorem copies_released (live : Option Envelope) (q : Queues) (pluginKey p : String) :
    ((match live with
      | some e => releaseBytes q pluginKey e.size
      | none => q).queueOf p).copies = (q.queueOf p).copies := by
  split
  · rw [queueOf_releaseBytes]
    split
    · next hp => rw [hp]
    · rfl
  · rfl

theorem releaseDropped_keeps (h : releaseDropped c state copy = some state') :
    (∀ p, (state'.2.1.queueOf p).copies = (state.2.1.queueOf p).copies) ∧
      state'.2.2.nextEnvelope = state.2.2.nextEnvelope := by
  obtain ⟨retired, q, s⟩ := state
  obtain ⟨q₁, hf, h⟩ := bind_eq_some_iff.mp h
  obtain ⟨i, -, rfl⟩ := map_eq_some_iff.mp hf
  dsimp only at h
  have hq := copies_released (s.liveEnvelope copy.envelopeId) { q with queuedByProducer := i }
    copy.holder.pluginKey
  have hm := s.next_markHolderRetired copy.envelopeId copy.holder.holderKey
  split at h
  · obtain ⟨s₁, hb, rfl⟩ := map_eq_some_iff.mp h
    exact ⟨hq, (next_beginRetirement hb).trans hm⟩
  · cases h
    exact ⟨hq, hm⟩

variable {o : String}

theorem dropQueuedForOwner_advances (h : inner.dropQueuedForOwner o g = some (retired, inner')) :
    Advances inner inner' := by
  obtain ⟨⟨dropped, queues⟩, hd, h⟩ := bind_eq_some_iff.mp h
  obtain ⟨⟨retired', queues', store⟩, hr, h⟩ := bind_eq_some_iff.mp h
  cases h
  have hk := Machine.run_rel (R := fun state state' : List ℕ × Queues × EnvelopeStore =>
      (∀ p, (state'.2.1.queueOf p).copies = (state.2.1.queueOf p).copies) ∧
        state'.2.2.nextEnvelope = state.2.2.nextEnvelope)
    (fun _ => ⟨fun _ => rfl, rfl⟩)
    (fun _ _ _ h h' => ⟨fun p => (h'.1 p).trans (h.1 p), h'.2.trans h.2⟩)
    (fun _ _ _ => releaseDropped_keeps) hr
  refine .of_sublist hk.2 fun p => ?_
  rw [hk.1 p]
  exact copies_dropFromConsumers hd p

theorem applyUnload_advances (h : inner.applyUnload o g = some (r, inner')) :
    Advances inner inner' := by
  unfold applyUnload at h
  split at h
  · cases h
    exact .of_queues_eq rfl rfl
  obtain ⟨registry, -, h⟩ := bind_eq_some_iff.mp h
  have ha := dropQueuedForOwner_advances h
  exact ⟨ha.next_le, ha.queue⟩

theorem applyMetadata_advances
    (h : inner.applyMetadata work = some (work', inner')) : Advances inner inner' := by
  unfold applyMetadata at h
  split at h
  · cases h
    exact .of_queues_eq rfl rfl
  obtain ⟨⟨retired, inner₁⟩, hu, heq⟩ := map_eq_some_iff.mp h
  cases heq
  have ha := applyUnload_advances hu
  exact ⟨ha.next_le, ha.queue⟩

theorem destroyPayloads_advances (work : OwnerWork) :
    Advances inner (inner.destroyPayloads work).2 := by
  refine .of_queues_eq ?_ rfl
  change (work.retiredPayloads.foldl destroyPayload inner.store).nextEnvelope = _
  generalize inner.store = s
  induction work.retiredPayloads generalizing s with
  | nil => rfl
  | cons _ _ ih => rw [foldl_cons, ih, next_destroyPayload]

variable {subscriptions : List EventSubscription} {c : List EmittedContract}

/-! #### Generations -/

theorem commitPackageGeneration_keeps
    (h : inner.commitPackageGeneration o c subscriptions = some (result, inner')) :
    (∀ p, inner'.queues.queueOf p = inner.queues.queueOf p) ∧
      inner'.store.nextEnvelope = inner.store.nextEnvelope := by
  obtain ⟨⟨result', registry⟩, -, heq⟩ := map_eq_some_iff.mp h
  cases result' with
  | error =>
    cases heq
    exact ⟨fun _ => rfl, rfl⟩
  | ok =>
    cases heq
    split
    · exact ⟨fun _ => rfl, rfl⟩
    · exact ⟨queueOf_foldl_ensureConsumer _ _, next_ensureProducer _ _⟩

theorem activateStagedGeneration_advances
    (h : inner.activateStagedGeneration s = some (r, inner')) :
    Advances inner inner' := by
  unfold activateStagedGeneration at h
  split at h
  · cases h
    exact .of_queues_eq rfl rfl
  obtain ⟨⟨retired, unloaded⟩, hu, h⟩ := bind_eq_some_iff.mp h
  obtain ⟨⟨committed, inner₁⟩, hc, h⟩ := bind_eq_some_iff.mp h
  cases h
  have ha := applyUnload_advances hu
  obtain ⟨hq, hn⟩ := commitPackageGeneration_keeps hc
  refine ⟨hn ▸ ha.next_le, fun p => ?_⟩
  rw [hq p]
  exact ha.queue p

variable {e : Bool} {d : ReadyDelivery}

/-! #### Requeue -/

theorem copies_requeue (h : inner.requeue d e = some (.ok ok, inner'))
    (hl : (inner.store.liveEnvelope d.envelopeId).isSome) (p : String) :
    (inner'.queues.queueOf p).copies = if p = d.holder.pluginKey then
      d.copy :: (inner.queues.queueOf p).copies
      else (inner.queues.queueOf p).copies := by
  unfold requeue at h
  split at h
  · cases h
  rw [if_neg (by simp [isSome_iff_ne_none.mp hl])] at h
  dsimp only at h
  split at h
  · cases h
  obtain ⟨queues, hr, heq⟩ := map_eq_some_iff.mp h
  cases heq
  have hc := copies_requeueCopy hr p
  rw [queueOf_ensureConsumer] at hc
  exact hc

theorem requeue_ok (h : inner.requeue d e = some (r, inner'))
    (hp : d.pullId ∈ inner.outstandingPulls)
    (hl : (inner.store.liveEnvelope d.envelopeId).isSome)
    (he : (inner.queues.queueOf d.holder.pluginKey).events + 1 ≤
      inner.policy.consumerQueueMaxEvents)
    (hb : (inner.queues.queueOf d.holder.pluginKey).bytes + d.size ≤
      inner.policy.consumerQueueMaxBytes) :
    r = .ok () ∧ inner'.outstandingPulls = inner.outstandingPulls.erase d.pullId := by
  unfold requeue at h
  rw [if_neg (not_not.mpr hp), if_neg (by simp [isSome_iff_ne_none.mp hl])] at h
  dsimp only at h
  rw [queueOf_ensureConsumer, if_neg (not_or.mpr ⟨not_lt.mpr he, not_lt.mpr hb⟩)] at h
  obtain ⟨queues, -, heq⟩ := map_eq_some_iff.mp h
  cases heq
  exact ⟨rfl, rfl⟩

theorem copies_requeue_error (h : inner.requeue d e = some (.error s, inner'))
    (p : String) : inner'.queues.queueOf p = inner.queues.queueOf p := by
  unfold requeue at h
  split at h
  · cases h
    rfl
  split at h
  · cases h
  dsimp only at h
  split at h
  · cases h
    exact queueOf_ensureConsumer ..
  · obtain ⟨queues, -, heq⟩ := map_eq_some_iff.mp h
    cases (Prod.mk.inj heq).1

end RouterInner

def Op.delivers : Op → Bool
  | .pull _ | .noteAdmitted _ _ | .retireHolder _ | .retirePulled _ | .retireAgain _
  | .requeue _ _ | .unpark => true
  | _ => false

namespace World

variable {encode : Json → Option (List UInt8)} {w w' : World} {op : Op}

theorem step_advances (hop : op.delivers = false) (h : w.step encode op = some w') :
    RouterInner.Advances w.inner w'.inner := by
  have same {w' : World} (h : some w = some w') : RouterInner.Advances w.inner w'.inner := by
    cases h
    exact .of_queues_eq rfl rfl
  cases op with
  | pull | noteAdmitted | retireHolder | retirePulled | retireAgain | requeue | unpark =>
    cases hop
  | ingress =>
    obtain ⟨⟨r, inner⟩, hs, rfl⟩ := map_eq_some_iff.mp h
    exact tryIngressNow_advances hs
  | workMetadata =>
    rw [step] at h
    split at h
    · exact same h
    · obtain ⟨⟨work, inner⟩, hs, rfl⟩ := map_eq_some_iff.mp h
      exact applyMetadata_advances hs
  | workDestroy =>
    rw [step] at h
    split at h
    · exact same h
    · cases h
      exact destroyPayloads_advances _
  | workFinish =>
    rw [step] at h
    split at h
    · exact same h
    split at h
    · obtain ⟨inner, hs, rfl⟩ := map_eq_some_iff.mp h
      obtain ⟨store, hr, rfl⟩ := map_eq_some_iff.mp hs
      exact .of_queues_eq (next_retireDestroyedPayloads hr) rfl
    · exact same h
  | stage =>
    obtain ⟨⟨r, inner⟩, hs, rfl⟩ := map_eq_some_iff.mp h
    obtain ⟨⟨result', registry⟩, -, heq⟩ := map_eq_some_iff.mp hs
    cases heq
    exact .of_queues_eq rfl rfl
  | activate =>
    obtain ⟨⟨r, inner⟩, hs, rfl⟩ := map_eq_some_iff.mp h
    exact activateStagedGeneration_advances hs
  | unload | abort | subscribeClient | unsubscribeClient | cleanupClient | markStranded =>
    cases h
    exact .of_queues_eq rfl rfl

/-- An operation that delivers nothing neither reads nor changes what is held. -/
theorem step_held (hop : op.delivers = false) (inner : RouterInner)
    (held spent : List ReadyDelivery) (works : List RouterInner.OwnerWork) :
    World.step encode ⟨inner, held, spent, works⟩ op =
      (World.step encode ⟨inner, [], [], works⟩ op).map fun w' =>
        { w' with held := held, spent := spent } := by
  cases op with
  | pull | noteAdmitted | retireHolder | retirePulled | retireAgain | requeue | unpark =>
    cases hop
  | workMetadata | workDestroy =>
    simp only [step]
    split
    · rfl
    first
    | rfl
    | (rw [Option.map_map]; rfl)
  | workFinish =>
    simp only [step]
    split
    · rfl
    split
    · rw [Option.map_map]
      rfl
    · rfl
  | ingress | stage | activate =>
    simp only [step]
    rw [Option.map_map]
    rfl
  | unload | abort | subscribeClient | unsubscribeClient | cleanupClient | markStranded => rfl

end World

end BotsterHub.Router
