import BotsterHub.Router.Admission
import BotsterHub.Router.Balance

/-!
Every operation of the router keeps its accounts and fails no `expect`. `Settled out` holds
between two operations, with `out` the pulled copies; `Moves` is the state an operation reaches,
`Progress` what it leaves to those copies.
-/

namespace BotsterHub.Router

open Multiset List Option AList EventSubscription EnvelopeStore ReadyDelivery RouterInner Registry
  Progress Queues

namespace RouterInner

structure Settled (out : Multiset QueuedCopy) (inner : RouterInner) : Prop where
  sound : inner.registry.Sound inner.policy
  balanced : Balanced inner.policy [] out inner.queues inner.store

/-- Afterwards the state is settled with `out` pulled, and at most `fresh` holder generations were
taken in. -/
structure Moves (out : Multiset QueuedCopy) (fresh : Multiset ℕ) (inner inner' : RouterInner) :
    Prop where
  settled : inner'.Settled out
  policy_eq : inner'.policy = inner.policy
  supply_le : inner'.registry.supply ≤ inner.registry.supply + fresh

variable {out : Multiset QueuedCopy} {inner inner' inner'' : RouterInner}

theorem Settled.refl (h : inner.Settled out) : Moves out 0 inner inner := ⟨h, rfl, by rw [add_zero]⟩

variable {out' : Multiset QueuedCopy}

theorem Moves.trans (h : Moves out 0 inner inner')
    (h' : Moves out' 0 inner' inner'') : Moves out' 0 inner inner'' :=
  ⟨h'.settled, h'.policy_eq.trans h.policy_eq, by
    have hle := h'.supply_le.trans (add_le_add_left h.supply_le 0)
    rwa [add_zero] at hle⟩

theorem Settled.setPlane (h : inner.Settled out) (hb : Balanced inner.policy [] out' q s)
    (hi : inner' = { inner with
      queues := q
      store := s
      nextPull := inner'.nextPull
      outstandingPulls := inner'.outstandingPulls
      strandedOwners := inner'.strandedOwners }) : Moves out' 0 inner inner' := by
  rw [hi]
  exact ⟨⟨h.sound, hb⟩, rfl, by rw [add_zero]⟩

theorem Settled.setRegistry (h : inner.Settled out) {registry : Registry} {fresh : Multiset ℕ}
    (hs : registry.Sound inner.policy) (hle : registry.supply ≤ inner.registry.supply + fresh) :
    Moves out fresh inner { inner with registry := registry } :=
  ⟨⟨hs, h.balanced⟩, rfl, hle⟩

theorem Settled.shrunk (h : inner.Settled out) {registry : Registry}
    (hs : Registry.Shrunk inner.policy inner.registry registry) :
    Moves out 0 inner { inner with registry := registry } :=
  h.setRegistry hs.sound (by rw [add_zero]; exact hs.supply_le)

abbrev Accounts (out : Multiset QueuedCopy) (fresh : Multiset ℕ) (inner inner' : RouterInner) :
    Prop :=
  Moves out fresh inner inner' ∧ Progress out inner.store inner'.store

theorem Settled.stays (h : inner.Settled out) : Accounts out 0 inner inner :=
  ⟨h.refl, Progress.refl out _⟩

variable (policy : Policy)

theorem namesExact_new (s : Json → Bool) : (new policy s).registry.NamesExact := by
  intro name
  have hc : (new policy s).registry.declarers name =
      if ((hubContracts s).lookup name).isSome then 1 else 0 := by
    simp only [declarers, new]
    rw [total_insert_of_none _ _ _ rfl]
    rfl
  rw [hc]
  simp only [new, lookup_filterMapVal]
  cases (hubContracts s).lookup name <;> simp

theorem settled_new (schema : Json → Bool) : (new policy schema).Settled 0 where
  sound :=
    { indexed := ⟨counts_empty, counts₂_empty⟩
      keyed := fun o name s hs => by cases hs
      names := namesExact_new policy schema
      perPlugin_le := fun plugin => Nat.zero_le _
      perEvent_le := fun o name => Nat.zero_le _
      pendingOwned := fun pending hp => by cases hp }
  balanced := Balanced.empty policy

theorem supply_new (s : Json → Bool) : (new policy s).registry.supply = 0 := rfl

def projectedOf (q : Queues) (projected : Dict String (ℕ × ℕ)) (plugin : String) : ℕ × ℕ :=
  (projected.lookup plugin).getD ((q.queueOf plugin).events, (q.queueOf plugin).bytes)

theorem projectedOf_ensureConsumer (q : Queues) (projected : Dict String (ℕ × ℕ))
    (plugin o : String) : projectedOf (q.ensureConsumer plugin) projected o =
      projectedOf q projected o := by
  rw [projectedOf, projectedOf, queueOf_ensureConsumer]

theorem projectedOf_insert (q : Queues) (projected : Dict String (ℕ × ℕ)) (plugin o : String)
    (v : ℕ × ℕ) : projectedOf q (projected.insert plugin v) o =
      if o = plugin then v else projectedOf q projected o := by
  rw [projectedOf, lookup_insert_eq]
  split <;> rfl

theorem admitCopies_spec (size : ℕ) (l : List EventSubscription) (q : Queues)
    (projected : Dict String (ℕ × ℕ))
    (hr : ∀ plugin, (projectedOf q projected plugin).1 ≤ policy.consumerQueueMaxEvents ∧
      (projectedOf q projected plugin).2 ≤ policy.consumerQueueMaxBytes) :
    (admitCopies policy size l q projected).1.Sublist l ∧
    (∃ v : List String, (admitCopies policy size l q projected).2 = v.foldl ensureConsumer q) ∧
    ∀ plugin, (projectedOf q projected plugin).1 +
        Balanced.copiesFor plugin (admitCopies policy size l q projected).1 ≤
        policy.consumerQueueMaxEvents ∧
      (projectedOf q projected plugin).2 +
        Balanced.copiesFor plugin (admitCopies policy size l q projected).1 * size ≤
        policy.consumerQueueMaxBytes := by
  induction l generalizing q projected with
  | nil =>
    exact ⟨Sublist.refl _, ⟨[], rfl⟩, by simpa [admitCopies, Balanced.copiesFor] using hr⟩
  | cons a l ih =>
    set q₁ := q.ensureConsumer a.pluginKey with hq₁
    have hvalue : (projected.lookup a.pluginKey).getD
        ((q₁.queueOf a.pluginKey).events, (q₁.queueOf a.pluginKey).bytes) =
        projectedOf q projected a.pluginKey := by
      rw [hq₁, ← projectedOf_ensureConsumer q projected a.pluginKey]
      rfl
    have hview (value : ℕ × ℕ) (plugin : String) :
        projectedOf q₁ (projected.insert a.pluginKey value) plugin =
          if plugin = a.pluginKey then value else projectedOf q projected plugin := by
      rw [projectedOf_insert, hq₁, projectedOf_ensureConsumer]
    obtain ⟨hself₁, hself₂⟩ := hr a.pluginKey
    simp only [admitCopies, ← hq₁, hvalue]
    split
    · obtain ⟨hs, ⟨v, hv⟩, ha⟩ := ih q₁
        (projected.insert a.pluginKey (projectedOf q projected a.pluginKey)) fun plugin => by
          rw [hview]
          split <;> simp_all
      refine ⟨hs.cons a, ⟨a.pluginKey :: v, hv⟩, fun plugin => ?_⟩
      have hplugin := ha plugin
      rw [hview] at hplugin
      split at hplugin
      · next hp => rw [hp] at hplugin ⊢; exact hplugin
      · exact hplugin
    · next hf =>
      simp only [not_or, not_lt] at hf
      obtain ⟨hs, ⟨v, hv⟩, ha⟩ := ih q₁ (projected.insert a.pluginKey
        ((projectedOf q projected a.pluginKey).1 + 1,
          (projectedOf q projected a.pluginKey).2 + size)) fun plugin => by
        rw [hview]
        split
        · exact hf
        · exact hr plugin
      refine ⟨hs.cons_cons a, ⟨a.pluginKey :: v, hv⟩, fun plugin => ?_⟩
      have hplugin := ha plugin
      rw [hview] at hplugin
      simp only [Balanced.copiesFor, List.countP_cons] at hplugin ⊢
      by_cases hp : plugin = a.pluginKey
      · subst hp
        simp only [if_true, decide_true] at hplugin ⊢
        rw [Nat.add_mul, Nat.one_mul]
        omega
      · simp only [hp, if_false, Ne.symm hp, decide_false, Bool.false_eq_true,
          Nat.add_zero] at hplugin ⊢
        exact hplugin

theorem nodup_holderKey {r : Registry} (h : r.generations.Nodup) {o name : String}
    {l : List EventSubscription} (hl : l.Sublist (r.subscribersOf o name)) :
    (l.map holderKey).Nodup := by
  have hg : (l.map generation).Nodup :=
    (Multiset.nodup_of_le (r.generationsOf_le o name) h).sublist (hl.map _)
  refine Nodup.of_map Prod.snd ?_
  rw [List.map_map]
  exact hg

theorem Settled.publish (h : inner.Settled out) (hu : inner.registry.generations.Nodup)
    {owner name : String} {e : List UInt8} {accepted : List EventSubscription}
    (hs : accepted.Sublist (inner.registry.subscribersOf owner name)) (hpos : accepted ≠ [])
    (hp : (inner.store.producerOf owner).events + 1 ≤ inner.policy.producerQueueMaxEvents ∧
      (inner.store.producerOf owner).bytes + e.length ≤ inner.policy.producerQueueMaxBytes)
    (hg : inner.store.globalInFlightBytes + e.length ≤ inner.policy.globalInFlightBytes)
    (hr : ∀ plugin, (inner.queues.queueOf plugin).events +
        Balanced.copiesFor plugin accepted ≤ inner.policy.consumerQueueMaxEvents ∧
      (inner.queues.queueOf plugin).bytes + Balanced.copiesFor plugin accepted * e.length ≤
        inner.policy.consumerQueueMaxBytes) (payload : Json) (now : Instant) :
    ∃ inner', inner.publish owner name payload e now accepted = some inner' ∧
      Accounts out 0 inner inner' := by
  unfold RouterInner.publish
  set envelope : Envelope :=
    { id := inner.store.nextEnvelope
      owner := owner
      name := name
      payload := e
      payloadJson := payload
      size := e.length
      enqueuedAt := now
      remainingHolders := accepted.length
      retirement := none } with he
  obtain ⟨hi, hprogress⟩ := h.balanced.insertEnvelope envelope rfl rfl
    (fun a ha => (h.sound.keyed owner name a (hs.subset ha)).1)
    (nodup_holderKey hu hs) rfl hpos hp hg
  have hsize : (inner.store.insertEnvelope envelope).size envelope.id = envelope.size :=
    size_of_lookup (lookup_insert _)
  obtain ⟨q', hf, hb⟩ := hi.enqueueAll accepted hsize hr
  exact ⟨{ inner with queues := q', store := inner.store.insertEnvelope envelope },
    by simp [hf, map_some], h.setPlane hb rfl, hprogress⟩

theorem Settled.fanOut (h : inner.Settled out) (hu : inner.registry.generations.Nodup)
    (o name : String) (payload : Json) (e : List UInt8) (now : Instant) :
    ∃ result inner', inner.fanOut o name payload e now = some (result, inner') ∧
      Accounts out 0 inner inner' := by
  unfold RouterInner.fanOut
  dsimp only
  split
  · exact ⟨_, inner, rfl, h.stays⟩
  obtain ⟨he, hp⟩ := h.balanced.ensureProducer o
  split
  · exact ⟨_, _, rfl, h.setPlane he rfl, hp⟩
  next hf =>
  simp only [not_or, not_lt] at hf
  obtain ⟨hsub, ⟨v, hv⟩, hr⟩ := admitCopies_spec inner.policy e.length
    (selectSubscriptions inner.registry o name) inner.queues ∅ h.balanced.consumer_le
  set admitted := admitCopies inner.policy e.length
    (selectSubscriptions inner.registry o name) inner.queues ∅
  have hvisit : Balanced inner.policy [] out admitted.2 (inner.store.ensureProducer o) := by
    rw [hv]
    exact he.foldl_ensureConsumer v
  set inner₁ : RouterInner :=
    { inner with store := inner.store.ensureProducer o, queues := admitted.2 }
  have hm : Moves out 0 inner inner₁ := h.setPlane hvisit rfl
  split
  · split <;> exact ⟨_, _, rfl, hm, hp⟩
  next hs =>
  split
  · exact ⟨_, _, rfl, hm, hp⟩
  have hq (plugin : String) : inner₁.queues.queueOf plugin = inner.queues.queueOf plugin := by
    change admitted.2.queueOf plugin = _
    rw [hv, queueOf_foldl_ensureConsumer]
  obtain ⟨inner', hpublish, hmoves, hp'⟩ := hm.settled.publish hu
    (hsub.trans filter_sublist) (by simpa using hs) ⟨hf.1, hf.2.1⟩ hf.2.2
    (fun plugin => by rw [hq]; exact hr plugin) payload now
  exact ⟨_, inner', congrArg (Option.map _) hpublish, hm.trans hmoves, hp.trans hp' le_rfl⟩

theorem Settled.setBuckets (h : inner.Settled out) (buckets : Dict String TokenBucket) :
    Moves out 0 inner { inner with registry := { inner.registry with buckets } } :=
  h.setRegistry ⟨⟨h.sound.indexed.perPlugin, h.sound.indexed.byPlugin⟩, h.sound.keyed,
    h.sound.names, h.sound.perPlugin_le, h.sound.perEvent_le, h.sound.pendingOwned⟩
    (Multiset.le_add_right ..)

theorem Settled.consumeToken (h : inner.Settled out) (o : String) (now : Instant) :
    Moves out 0 inner
      { inner with registry := (inner.registry.consumeToken inner.policy o now).2 } := by
  unfold Registry.consumeToken
  dsimp only
  split
  · exact h.setBuckets _
  · exact h.setBuckets _

theorem generations_consumeToken (r : Registry) (o : String)
    (now : Instant) : (r.consumeToken policy o now).2.generations = r.generations := by
  unfold consumeToken
  dsimp only
  split <;> rfl

theorem Settled.tryIngressNow (h : inner.Settled out) (hu : inner.registry.generations.Nodup)
    (encode : Json → Option (List UInt8)) (c name : String) (payload : Json)
    (now : Instant) :
    ∃ result inner', inner.tryIngressNow encode c name payload now = some (result, inner') ∧
      Accounts out 0 inner inner' := by
  have same (result : Ingress) : ∃ result' inner',
      some (result, inner) = some (result', inner') ∧ Accounts out 0 inner inner' :=
    ⟨result, inner, rfl, h.stays⟩
  unfold RouterInner.tryIngressNow
  split
  · exact same _
  split
  · exact same _
  split
  · split <;> exact same _
  split
  · exact same _
  split
  · exact same _
  split
  · exact same _
  next e _ =>
  split
  · exact same _
  have ht := h.consumeToken c now
  dsimp only
  split
  · obtain ⟨result, inner', hf, hm, hp⟩ := ht.settled.fanOut
      (by rw [generations_consumeToken]; exact hu) c name payload e now
    exact ⟨result, inner', hf, ht.trans hm, hp⟩
  · exact ⟨_, _, rfl, ht, Progress.refl out _⟩

theorem Settled.noteAdmitted (h : inner.Settled out) (e : ℕ) (key : String × ℕ) :
    Accounts out 0 inner (inner.noteAdmitted e key) := by
  have hr := noteAdmitted_spec h.balanced.exact h.balanced.holders h.balanced.noOrphan e key
  exact ⟨h.setPlane (h.balanced.released hr) rfl, Balanced.progress_of_released hr⟩

theorem Settled.retireHolder {copy : QueuedCopy} (h : inner.Settled (copy ::ₘ out)) :
    ∃ last s', inner.retireHolder copy.envelopeId copy.holder.holderKey =
        some (last, { inner with store := s' }) ∧
      Moves out 0 inner { inner with store := s' } ∧ Progress out inner.store s' ∧
      s'.Done copy.envelopeId copy.holder.holderKey := by
  obtain ⟨last, s', hs, hb, hp, hd⟩ := h.balanced.retire
  exact ⟨last, s', by rw [RouterInner.retireHolder, hs]; rfl, h.setPlane hb rfl, hp, hd⟩

theorem retireHolder_of_done (h : inner.store.Done e key) :
    inner.retireHolder e key = some (false, inner) := by
  rw [retireHolder, retireHolderLocked_of_done h.2]
  rfl

theorem Settled.setPulls (h : inner.Settled out) (pulls : Finset ℕ) :
    Moves out 0 inner { inner with outstandingPulls := pulls } :=
  h.setPlane h.balanced rfl

theorem Settled.requeue (h : inner.Settled (d.copy ::ₘ out))
    (hs : d.size = inner.store.size d.envelopeId) (e : Bool) :
    ∃ result inner', inner.requeue d e = some (result, inner') ∧ inner'.store = inner.store ∧
      Moves (if result.isOk then out else d.copy ::ₘ out) 0 inner inner' := by
  unfold RouterInner.requeue
  split
  · exact ⟨_, inner, rfl, rfl, h.refl⟩
  obtain ⟨envelope, hl, -⟩ := h.balanced.holders.live d.copy (by simp)
  rw [show inner.store.liveEnvelope d.envelopeId = some envelope from hl]
  simp only [isNone_some, Bool.false_eq_true, if_false]
  have he := h.balanced.ensureConsumer d.holder.pluginKey
  split
  · exact ⟨_, _, rfl, rfl, h.setPlane he rfl⟩
  next hf =>
  simp only [not_or, not_lt] at hf
  obtain ⟨q', hstep, hp⟩ := requeueCopy_spec he.accounted he.ready d.copy e
  rw [hs] at hf ⊢
  rw [show (inner.queues.ensureConsumer d.holder.pluginKey).requeueCopy d.copy
    (inner.store.size d.envelopeId) e = some q' from hstep, map_some]
  exact ⟨_, _, rfl, rfl, h.setPlane (he.pushed hp hf.1 hf.2) rfl⟩

theorem Settled.unpark (h : inner.Settled out) : Moves out 0 inner inner.unparkEngineConsumers.2 :=
  h.setPlane h.balanced.unpark rfl

namespace Pull

variable {p p' : Pull} (limits : PullLimits) (plugin : String)

def handed (p : Pull) : Multiset QueuedCopy := (p.ready.map ReadyDelivery.copy : List QueuedCopy)

structure Good (out : Multiset QueuedCopy) (p : Pull) : Prop where
  settled : p.inner.Settled (out + p.handed)
  sizes : ∀ d ∈ p.ready, d.size = p.inner.store.size d.envelopeId

structure Runs (out : Multiset QueuedCopy) (p p' : Pull) : Prop where
  good : p'.Good out
  policy_eq : p'.inner.policy = p.inner.policy
  registry_eq : p'.inner.registry = p.inner.registry
  progress : Progress out p.inner.store p'.inner.store

def Unexpired (p : Pull) : Prop :=
  ∀ reading id envelope, p.inner.store.liveEnvelope id = some envelope →
    limits.clock reading - envelope.enqueuedAt ≤ p.inner.policy.queueAge

def forPlugin (plugin : String) (l : List ReadyDelivery) : List ReadyDelivery :=
  l.filter fun d => d.holder.pluginKey = plugin

/-- The turns took copies off the fronts and handed out `delivered` in order; the others had
expired. -/
structure Takes (delivered : List ReadyDelivery) (p p' : Pull) : Prop where
  ready_eq : p'.ready = p.ready ++ delivered
  queue : ∀ plugin, ∃ taken : List QueuedCopy, (p.inner.queues.queueOf plugin).copies =
      taken ++ (p'.inner.queues.queueOf plugin).copies ∧
    ((forPlugin plugin delivered).map ReadyDelivery.copy).Sublist taken ∧
    (p.Unexpired limits → (forPlugin plugin delivered).map ReadyDelivery.copy = taken)
  store_eq : p.Unexpired limits → p'.inner.store = p.inner.store
  policy_eq : p'.inner.policy = p.inner.policy
  next_eq : p'.inner.store.nextEnvelope = p.inner.store.nextEnvelope
  numbered : p.inner.nextPull + delivered.length ≤ u64Max →
    p'.inner.nextPull = p.inner.nextPull + delivered.length ∧
    delivered.map ReadyDelivery.pullId = List.range' p.inner.nextPull delivered.length ∧
    p'.inner.outstandingPulls =
      p.inner.outstandingPulls ∪ (delivered.map ReadyDelivery.pullId).toFinset

theorem Takes.of_same (hq : ∀ plugin, (p'.inner.queues.queueOf plugin).copies =
      (p.inner.queues.queueOf plugin).copies := by exact fun _ => rfl)
    (hr : p'.ready = p.ready := by rfl) (hs : p'.inner.store = p.inner.store := by rfl)
    (hp : p'.inner.policy = p.inner.policy := by rfl)
    (hn : p'.inner.nextPull = p.inner.nextPull := by rfl)
    (hpulls : p'.inner.outstandingPulls = p.inner.outstandingPulls := by rfl) :
    Takes limits [] p p' where
  ready_eq := by rw [hr, append_nil]
  queue plugin := ⟨[], by rw [hq, nil_append], Sublist.refl _, fun _ => rfl⟩
  store_eq _ := hs
  policy_eq := hp
  next_eq := by rw [hs]
  numbered _ := ⟨hn, rfl, by simp [hpulls]⟩

theorem Takes.trans (h : Takes limits delivered p p') (h' : Takes limits delivered' p' p'') :
    Takes limits (delivered ++ delivered') p p'' := by
  have hunexpired (hu : p.Unexpired limits) : p'.Unexpired limits := by
    intro r id e hl
    rw [h.store_eq hu] at hl
    rw [h.policy_eq]
    exact hu r id e hl
  refine ⟨by rw [h'.ready_eq, h.ready_eq, append_assoc], fun plugin => ?_,
    fun hu => (h'.store_eq (hunexpired hu)).trans (h.store_eq hu),
    h'.policy_eq.trans h.policy_eq, h'.next_eq.trans h.next_eq, fun hle => ?_⟩
  rotate_left
  · rw [length_append] at hle ⊢
    obtain ⟨hn, hi, hp⟩ := h.numbered (by omega)
    obtain ⟨hn', hi', hp'⟩ := h'.numbered (by omega)
    refine ⟨by omega, ?_, ?_⟩
    · rw [map_append, hi, hi', hn, range'_append_1]
    · rw [hp', hp, map_append, toFinset_append, Finset.union_assoc]
  obtain ⟨taken, hq, hsub, ha⟩ := h.queue plugin
  obtain ⟨taken', hq', hsub', ha'⟩ := h'.queue plugin
  have hs : (forPlugin plugin (delivered ++ delivered')).map copy =
      (forPlugin plugin delivered).map copy ++ (forPlugin plugin delivered').map copy := by
    rw [forPlugin, filter_append, map_append]
    rfl
  refine ⟨taken ++ taken', by rw [hq, hq', append_assoc], hs ▸ hsub.append hsub', fun hu => ?_⟩
  rw [hs, ha hu, ha' (hunexpired hu)]

theorem Good.refl (h : p.Good out) : Runs out p p := ⟨h, rfl, rfl, Progress.refl out _⟩

theorem Runs.trans (h : Runs out p p') (h' : Runs out p' p'') : Runs out p p'' :=
  ⟨h'.good, h'.policy_eq.trans h.policy_eq, h'.registry_eq.trans h.registry_eq,
    h.progress.trans h'.progress le_rfl⟩

theorem Good.tick (h : p.Good out) : Runs out p p.tick :=
  ⟨⟨h.settled, h.sizes⟩, rfl, rfl, Progress.refl out _⟩

inductive Disposed (copy : QueuedCopy) (expired : Bool) : Bool → Pull → Pull → Prop
  | retired {p p' : Pull} (hexpired : expired = true)
      (hqueues : p'.inner.queues = p.inner.queues) (hready : p'.ready = p.ready)
      (hnext : p'.inner.store.nextEnvelope = p.inner.store.nextEnvelope)
      (hnextPull : p'.inner.nextPull = p.inner.nextPull)
      (hpulls : p'.inner.outstandingPulls = p.inner.outstandingPulls) :
      Disposed copy expired true p p'
  | handed {p p' : Pull} (d : ReadyDelivery) (hcopy : d.copy = copy)
      (hqueues : p'.inner.queues = p.inner.queues) (hready : p'.ready = p.ready ++ [d])
      (hstore : p'.inner.store = p.inner.store) (hpull : d.pullId = p.inner.nextPull)
      (hnextPull : p'.inner.nextPull = saturatingAdd p.inner.nextPull 1)
      (hpulls : p'.inner.outstandingPulls = insert d.pullId p.inner.outstandingPulls) :
      Disposed copy expired true p p'
  | putBack {p p' : Pull}
      (hqueue : ∀ other, (p'.inner.queues.queueOf other).copies = if other = plugin then
        copy :: (p.inner.queues.queueOf plugin).copies else (p.inner.queues.queueOf other).copies)
      (hready : p'.ready = p.ready) (hstore : p'.inner.store = p.inner.store)
      (hnextPull : p'.inner.nextPull = p.inner.nextPull)
      (hpulls : p'.inner.outstandingPulls = p.inner.outstandingPulls) :
      Disposed copy expired false p p'

theorem disposeCopy_spec {copy : QueuedCopy} {e : Envelope}
    (h : p.inner.Settled (copy ::ₘ (out + p.handed)))
    (hs : ∀ d ∈ p.ready, d.size = p.inner.store.size d.envelopeId)
    (hk : copy.holder.pluginKey = plugin)
    (hlive : p.inner.store.liveEnvelope copy.envelopeId = some e)
    (hl : p.inner.queues.consumers.lookup plugin = some (p.inner.queues.queueOf plugin))
    (hevents : (p.inner.queues.queueOf plugin).events + 1 ≤ p.inner.policy.consumerQueueMaxEvents)
    (hb : (p.inner.queues.queueOf plugin).bytes + e.size ≤
      p.inner.policy.consumerQueueMaxBytes) (expired : Bool) :
    ∃ again p', p.disposeCopy limits plugin copy e.size expired = some (again, p') ∧
      Runs out p p' ∧ Disposed plugin copy expired again p p' := by
  have hsize : p.inner.store.size copy.envelopeId = e.size :=
    size_of_lookup (liveEnvelope_eq_some.mp hlive).1
  unfold disposeCopy
  split
  · next he =>
    obtain ⟨last, s', hstep, hm, hp, -⟩ := h.retireHolder
    have hn : s'.nextEnvelope = p.inner.store.nextEnvelope := by
      obtain ⟨⟨last', s₁⟩, hr, heq⟩ := map_eq_some_iff.mp hstep
      rw [← next_retireHolderLocked hr]
      exact congrArg (fun r => r.2.store.nextEnvelope) heq.symm
    refine ⟨true, { p with inner := { p.inner with store := s' } }, by rw [hstep]; rfl,
      ⟨⟨hm.settled, fun d hd => ?_⟩, rfl, rfl, hp.done,
        fun c hc => hp.size_eq c (by simp [hc])⟩, .retired he rfl rfl hn rfl rfl⟩
    rw [hs d hd]
    refine (hp.size_eq d.copy (mem_add.mpr (.inr ?_))).symm
    exact mem_coe.mpr (mem_map_of_mem hd)
  split
  · have hput := putBackCopy_spec h.balanced.accounted h.balanced.ready copy (by rw [hk]; exact hl)
    rw [hk, hsize] at hput
    have hpushed := h.balanced.pushed hput (by rw [hk]; exact hevents) (by rw [hk, hsize]; exact hb)
    exact ⟨false, _, rfl, ⟨⟨⟨h.sound, hpushed⟩, hs⟩, rfl, rfl, refl out _⟩,
      .putBack (copies_putBackCopy hl copy e.size) rfl rfl rfl rfl⟩
  · refine ⟨true, p.deliver copy e, by rw [hlive]; rfl, ⟨⟨⟨h.sound, ?_⟩, fun d hd => ?_⟩,
      rfl, rfl, Progress.refl out _⟩, .handed _ rfl rfl rfl rfl rfl rfl rfl⟩
    · have hh : out + (p.deliver copy e).handed = copy ::ₘ (out + p.handed) := by
        simp only [handed, deliver, List.map_append, List.map_cons, List.map_nil,
          ← Multiset.coe_add, Multiset.coe_singleton, ReadyDelivery.copy]
        rw [← add_assoc, add_comm, Multiset.singleton_add]
      rw [hh]
      exact h.balanced
    · rcases mem_append.mp hd with hd | hd
      · exact hs d hd
      · obtain rfl := List.mem_singleton.mp hd
        exact hsize.symm

theorem Disposed.takes {p₁ : Pull} {copy : QueuedCopy} {rest : List QueuedCopy}
    {e a : Bool} (h : Disposed plugin copy e a p₁ p')
    (hc : (p.inner.queues.queueOf plugin).copies = copy :: rest)
    (hk : copy.holder.pluginKey = plugin)
    (hpopped : ∀ o, (p₁.inner.queues.queueOf o).copies =
      if o = plugin then rest else (p.inner.queues.queueOf o).copies)
    (hr : p₁.ready = p.ready) (hs : p₁.inner.store = p.inner.store)
    (hn : p₁.inner.nextPull = p.inner.nextPull)
    (hp : p₁.inner.outstandingPulls = p.inner.outstandingPulls)
    (hpolicy : p'.inner.policy = p.inner.policy)
    (he : e = true → ¬p.Unexpired limits) :
    ∃ delivered, delivered.length ≤ 1 ∧ Takes limits delivered p p' := by
  -- the queue of `plugin` lost its first copy, the others are as they were
  have hf (q : Queues) (hq : q = p₁.inner.queues) (o : String) : (p.inner.queues.queueOf o).copies =
        (if o = plugin then [copy] else []) ++ (q.queueOf o).copies := by
    rw [hq, hpopped]
    by_cases ho : o = plugin
    · rw [if_pos ho, if_pos ho, ho, hc]
      rfl
    · rw [if_neg ho, if_neg ho, nil_append]
  cases h with
  | retired hexp hqueues hr' hnext hn' hp' =>
    exact ⟨[], Nat.zero_le _, by rw [hr', hr, append_nil], fun o =>
      ⟨_, hf _ hqueues o, nil_sublist _, fun hu => absurd hu (he hexp)⟩,
      fun hu => absurd hu (he hexp), hpolicy, by rw [hnext, hs],
      fun _ => ⟨hn'.trans hn, rfl, by simp [hp', hp]⟩⟩
  | handed d hcopy hqueues hr' hs' hpull hn' hp' =>
    have hdelivered (o : String) : (forPlugin o [d]).map ReadyDelivery.copy =
        if o = plugin then [copy] else [] := by
      have hd : d.holder.pluginKey = plugin := by
        rw [← hk, ← hcopy]
        rfl
      by_cases ho : o = plugin
      · simp [forPlugin, hd, ho, hcopy]
      · simp [forPlugin, hd, ho, Ne.symm ho]
    refine ⟨[d], le_rfl, by rw [hr', hr], fun o => ⟨_, hf _ hqueues o, ?_,
      fun _ => hdelivered o⟩, fun _ => hs'.trans hs, hpolicy,
      by rw [hs', hs], fun hle => ⟨?_, ?_, ?_⟩⟩
    · rw [hdelivered]
    · rw [hn', hn]
      exact Nat.min_eq_left hle
    · rw [List.map_singleton, hpull, hn]
      rfl
    · rw [hp', hp, List.map_singleton, Finset.insert_eq, Finset.union_comm]
      rfl
  | putBack hqueue hr' hs' hn' hp' =>
    refine ⟨[], Nat.zero_le _, Takes.of_same limits (fun o => ?_) (hr'.trans hr)
      (hs'.trans hs) hpolicy (hn'.trans hn) (hp'.trans hp)⟩
    rw [hqueue, hpopped, hpopped]
    by_cases ho : o = plugin
    · rw [if_pos ho, if_pos rfl, ho, hc]
    · rw [if_neg ho, if_neg ho]

theorem pullCopy_spec (h : p.Good out) :
    ∃ a p', p.pullCopy limits plugin = some (a, p') ∧ Runs out p p' ∧
      (∃ delivered, delivered.length ≤ 1 ∧ Takes limits delivered p p') ∧
      (a = true → (p'.inner.queues.queueOf plugin).copies.length + 1 =
        (p.inner.queues.queueOf plugin).copies.length) := by
  unfold pullCopy
  cases hc : (p.inner.queues.queueOf plugin).copies with
  | nil =>
    rw [popQueuedCopy_of_nil hc, bind_some]
    exact ⟨false, p, rfl, h.refl, ⟨[], Nat.zero_le _, .of_same limits⟩, nofun⟩
  | cons _ rest =>
    obtain ⟨q₁, e, hp⟩ := h.settled.balanced.pop hc
    set queue : ConsumerQueue := ⟨(p.inner.queues.queueOf plugin).events - 1,
      (p.inner.queues.queueOf plugin).bytes - e.size, rest⟩ with hqueue
    have hs : (p.tick.setQueues (q₁.setQueue plugin queue)).inner.queues.queueOf plugin =
        queue := by
      rw [setQueues, queueOf_setQueue, if_pos rfl]
    obtain ⟨a, p', hstep, hr, hd⟩ := disposeCopy_spec limits plugin
      (p := p.tick.setQueues (q₁.setQueue plugin queue))
      ⟨h.settled.sound, hp.balanced⟩ h.sizes hp.key hp.live
      (by rw [hs]; exact lookup_setQueue ..)
      (by rw [hs]; exact hp.events_room) (by rw [hs]; exact hp.bytes_room)
      (decide (p.inner.policy.queueAge < limits.clock p.readings - e.enqueuedAt))
    have ht := hd.takes limits plugin hc hp.key (fun o => ?_) rfl rfl rfl rfl
      hr.policy_eq fun he hu =>
        absurd (of_decide_eq_true he) (not_lt.mpr (hu p.readings _ e hp.live))
    · refine ⟨a, p', ?_, ⟨hr.good, hr.policy_eq, hr.registry_eq, hr.progress⟩, ht, fun ha => ?_⟩
      · rw [hp.step, bind_some]
        simp only [setQueues, hp.live, hp.lookup]
        exact hstep
      cases hd with
      | retired _ hq => rw [hq, hs, length_cons]
      | handed d _ hq => rw [hq, hs, length_cons]
      | putBack => cases ha
    · by_cases ho : o = plugin
      · rw [if_pos ho, ho, hs]
      · rw [if_neg ho, setQueues, queueOf_setQueue, if_neg ho, hp.queueOf_ne o ho]

structure Turns (out : Multiset QueuedCopy) (p p' : Pull) : Prop where
  runs : Runs out p p'
  takes : ∃ delivered, Takes limits delivered p p'
  room : p.ready.length ≤ limits.maxItems → p'.ready.length ≤ limits.maxItems

theorem Turns.trans (h : Turns limits out p p') (h' : Turns limits out p' p'') :
    Turns limits out p p'' := by
  obtain ⟨delivered, ht⟩ := h.takes
  obtain ⟨delivered', ht'⟩ := h'.takes
  exact ⟨h.runs.trans h'.runs, ⟨_, ht.trans limits ht'⟩, fun hle => h'.room (h.room hle)⟩

theorem Good.turn (h : p.Good out) : Turns limits out p p.tick :=
  ⟨h.tick, ⟨[], .of_same limits⟩, id⟩

theorem pullConsumer_spec (fuel : ℕ) (h : p.Good out)
    (hf : (p.inner.queues.queueOf plugin).copies.length < fuel) :
    ∃ p', p.pullConsumer limits plugin fuel = some p' ∧ Turns limits out p p' := by
  induction fuel generalizing p with
  | zero => exact absurd hf (Nat.not_lt_zero _)
  | succ _ ih =>
    rw [pullConsumer]
    split
    · exact ⟨p.tick, rfl, h.turn limits⟩
    next hg =>
    obtain ⟨a, p₁, hs, hr, ⟨delivered, ho, ht⟩, hl⟩ := pullCopy_spec limits plugin h.tick.good
    have hroom : p₁.ready.length ≤ limits.maxItems := by
      simp only [stops, Bool.or_eq_true, decide_eq_true_eq, not_or, not_le] at hg
      have hgrown : p₁.ready.length = p.ready.length + delivered.length := by
        rw [ht.ready_eq, length_append]
        rfl
      omega
    have hturns := (h.turn limits).trans limits ⟨hr, ⟨delivered, ht⟩, fun _ => hroom⟩
    rw [hs, bind_some]
    cases a with
    | false => exact ⟨p₁, rfl, hturns⟩
    | true =>
      have hless := hl rfl
      change _ = (p.inner.queues.queueOf plugin).copies.length at hless
      obtain ⟨p', hrest, hturns'⟩ := ih hr.good (by omega)
      exact ⟨p', hrest, hturns.trans limits hturns'⟩

theorem pullConsumers_spec (v : ℕ) (h : p.Good out) :
    ∃ p', p.pullConsumers limits v = some p' ∧ Turns limits out p p' := by
  induction v generalizing p with
  | zero => exact ⟨p, rfl, h.refl, ⟨[], .of_same limits⟩, id⟩
  | succ _ ih =>
    rw [pullConsumers]
    split
    · exact ⟨p.tick, rfl, h.turn limits⟩
    split
    · exact ⟨p.tick, rfl, h.turn limits⟩
    next plugin _ =>
    have hc : Turns limits out p (p.tick.withCursor plugin) :=
      ⟨⟨⟨⟨h.settled.sound, h.settled.balanced.queues_congr (fun _ => rfl) rfl
        h.settled.balanced.ready⟩, h.sizes⟩, rfl, rfl, refl out _⟩, ⟨[], .of_same limits⟩, id⟩
    obtain ⟨p₁, hs, ht⟩ := pullConsumer_spec limits plugin
      ((p.inner.queues.queueOf plugin).copies.length + 1) hc.runs.good (Nat.lt_succ_self _)
    obtain ⟨p', hrest, ht'⟩ := ih ht.runs.good
    refine ⟨p', ?_, (hc.trans limits ht).trans limits ht'⟩
    rw [hs, bind_some]
    exact hrest

end Pull

section

variable (h : inner.Settled out)
include h

theorem Settled.pullReadyBatch (limits : PullLimits) :
    ∃ batch raised inner', inner.pullReadyBatch limits = some (batch, raised, inner') ∧
      Moves (out + (batch.map ReadyDelivery.copy : List QueuedCopy)) 0 inner inner' ∧
      Progress out inner.store inner'.store ∧
      (∀ d ∈ batch, d.size = inner'.store.size d.envelopeId) ∧ batch.length ≤ limits.maxItems ∧
      ∃ usedBytes readings, Pull.Takes limits batch ⟨inner, [], 0, 0⟩
        ⟨inner', batch, usedBytes, readings⟩ := by
  have hg : Pull.Good out ⟨inner, [], 0, 0⟩ :=
    ⟨by simpa [Pull.handed] using h, fun d hd => by cases hd⟩
  obtain ⟨p', hs, hr, ⟨delivered, ht⟩, hb⟩ := Pull.pullConsumers_spec limits
    inner.queues.readyConsumers.card hg
  obtain rfl : p'.ready = delivered := ht.ready_eq
  refine ⟨p'.ready, _, p'.inner, by rw [RouterInner.pullReadyBatch, hs]; rfl,
    ⟨hr.good.settled, hr.policy_eq, ?_⟩, hr.progress, hr.good.sizes,
    hb (Nat.zero_le _), p'.usedBytes, p'.readings, ht⟩
  rw [hr.registry_eq, add_zero]

theorem Settled.dropQueuedForOwner (o : String) (g : ℕ) :
    ∃ r inner', inner.dropQueuedForOwner o g = some (r, inner') ∧
      Moves out 0 inner inner' ∧ Progress out inner.store inner'.store ∧
      inner'.registry = inner.registry := by
  obtain ⟨d, q₁, hd, hb⟩ := h.balanced.dropFromConsumers
    (fun copy => unloadRemovesSubscription o g copy.holder)
    (unloadConsumers inner.queues o) (h.balanced.unloadConsumers_isSome o)
  obtain ⟨r, q', s', hr, hb', hp⟩ := hb.releaseAllDropped (o, g) d []
  refine ⟨r, { inner with
    queues := q'
    store := s'
    strandedOwners := inner.strandedOwners.erase o }, ?_, h.setPlane hb' rfl,
    hp, rfl⟩
  simp [RouterInner.dropQueuedForOwner, hd, hr, bind_eq_bind, bind_some]

theorem Settled.applyUnload (owner : String) (g : ℕ) :
    ∃ retired inner', inner.applyUnload owner g = some (retired, inner') ∧
      Moves out 0 inner inner' ∧ Progress out inner.store inner'.store ∧
      inner'.registry.pending = inner.registry.pending ∧
      inner'.registry.generations ≤ inner.registry.generations := by
  unfold RouterInner.applyUnload
  split
  · exact ⟨[], inner, rfl, h.refl, Progress.refl out _, rfl, le_rfl⟩
  obtain ⟨registry, hu, hs⟩ := h.sound.unloadRegistrations owner g
  have hm := h.shrunk hs
  obtain ⟨retired, inner', hd, hm', hp, hr⟩ := hm.settled.dropQueuedForOwner owner g
  refine ⟨retired, inner', by rw [hu, bind_some]; exact hd, hm.trans hm', hp, ?_, ?_⟩
  · rw [hr]
    exact hs.pending_eq
  · rw [hr]
    exact hs.narrows.generations_le

theorem Settled.discardPending :
    Moves out 0 inner { inner with registry := { inner.registry with pending := none } } :=
  h.setRegistry h.sound.discard (by rw [add_zero]; exact add_le_add_right (zero_le _) _)

theorem Settled.applyMetadata (work : OwnerWork) :
    ∃ work' inner', inner.applyMetadata work = some (work', inner') ∧
      Accounts out 0 inner inner' := by
  unfold RouterInner.applyMetadata
  split
  · exact ⟨work, inner, rfl, h.stays⟩
  obtain ⟨retired, inner', hu, hm, hp, -⟩ := h.applyUnload work.owner work.generation
  rw [hu, map_some]
  dsimp only
  split
  · exact ⟨_, _, rfl, hm.trans hm.settled.discardPending, hp⟩
  · exact ⟨_, _, rfl, hm, hp⟩

theorem Settled.destroyPayloads (work : OwnerWork) :
    Accounts out 0 inner (inner.destroyPayloads work).2 := by
  have hf (ids : List ℕ) (s : EnvelopeStore)
      (hs : Balanced inner.policy [] out inner.queues s) (hp : Progress out inner.store s) :
      Balanced inner.policy [] out inner.queues (ids.foldl destroyPayload s) ∧
        Progress out inner.store (ids.foldl destroyPayload s) := by
    induction ids generalizing s with
    | nil => exact ⟨hs, hp⟩
    | cons id _ ih =>
      have hr := destroyPayload_spec hs.exact hs.holders hs.noOrphan id
      exact ih _ (hs.released hr) (hp.trans (Balanced.progress_of_released hr) le_rfl)
  obtain ⟨hb, hprogress⟩ := hf work.retiredPayloads inner.store h.balanced (Progress.refl out _)
  exact ⟨h.setPlane hb rfl, hprogress⟩

theorem Settled.finishWork (work : OwnerWork) :
    ∃ inner', inner.finishWork work = some inner' ∧ Accounts out 0 inner inner' := by
  obtain ⟨s', hs, hr⟩ := retireDestroyedPayloads_spec h.balanced.exact
    h.balanced.holders h.balanced.noOrphan (work.owner, work.generation)
  exact ⟨{ inner with store := s' }, by rw [RouterInner.finishWork, hs]; rfl,
    h.setPlane (h.balanced.released hr) rfl, Balanced.progress_of_released hr⟩

theorem Settled.ensureOwnerQueues (o : String) :
    Accounts out 0 inner (inner.ensureOwnerQueues o) := by
  obtain ⟨he, hp⟩ := h.balanced.ensureProducer o
  exact ⟨h.setPlane (he.foldl_ensureConsumer _) rfl, hp⟩

theorem Settled.stageGeneration (owner : String)
    (c : List EmittedContract) (s : List EventSubscription)
    (r : PendingGeneration → ℕ) (reservedBytes : ℕ) :
    ∃ result inner', inner.stageGeneration owner c s r reservedBytes = some (result, inner') ∧
      Moves out (generationsOf s) inner inner' ∧ inner'.store = inner.store := by
  obtain ⟨result, registry, hstep, hsound, hs⟩ := h.sound.stagePackageGeneration owner
    c s r reservedBytes
  exact ⟨result, { inner with registry := registry },
    by rw [RouterInner.stageGeneration, hstep]; rfl, h.setRegistry hsound hs, rfl⟩

theorem Settled.commitPackageGeneration {owner : String}
    {contracts : List EmittedContract} (ho : ∀ c ∈ contracts, c.owner = owner)
    (s : List EventSubscription) (hpending : inner.registry.pending = none) :
    ∃ result inner', inner.commitPackageGeneration owner contracts s = some (result, inner') ∧
      Accounts out (generationsOf s) inner inner' := by
  obtain ⟨result, registry, hstep, hc⟩ := h.sound.commitRegistrations ho s
  have hs : registry.supply ≤ inner.registry.supply + generationsOf s := by
    rw [supply, supply, pendingGenerations,
      pendingGenerations, hc.pending_eq, hpending, elim_none, add_zero,
      add_zero]
    exact hc.generations_le
  have hm := h.setRegistry hc.sound hs
  simp only [RouterInner.commitPackageGeneration, hstep, map_some]
  cases result with
  | error => exact ⟨_, _, rfl, hm, Progress.refl out _⟩
  | ok =>
    dsimp only
    split
    · exact ⟨_, _, rfl, hm, Progress.refl out _⟩
    obtain ⟨he, hp⟩ := hm.settled.ensureOwnerQueues owner
    refine ⟨_, _, rfl, ⟨he.settled, he.policy_eq, ?_⟩, hp⟩
    have hle := he.supply_le
    rw [add_zero] at hle
    exact hle.trans hm.supply_le

theorem Settled.activateStagedGeneration (s : StagedGeneration) :
    ∃ r inner', inner.activateStagedGeneration s = some (r, inner') ∧
      Accounts out 0 inner inner' := by
  unfold RouterInner.activateStagedGeneration
  rcases inner.registry.takeStaged_eq s with ht | ⟨pending, hpending, ht⟩
  · rw [ht]
    exact ⟨_, inner, rfl, h.stays⟩
  rw [ht]
  have hd := h.discardPending
  obtain ⟨retired, unloaded, hunload, hm, hp, hn, hg⟩ :=
    hd.settled.applyUnload pending.owner
      (generationOf { inner.registry with pending := none } pending.owner)
  obtain ⟨r, inner', hc, hm', hp'⟩ :=
    hm.settled.commitPackageGeneration
      (h.sound.pendingOwned pending hpending) pending.subscriptions hn
  simp only [hunload, hc, bind_eq_bind, bind_some]
  refine ⟨_, inner', rfl, ⟨hm'.settled, ?_, ?_⟩, hp.trans hp' le_rfl⟩
  · rw [hm'.policy_eq, hm.policy_eq]
  have hu := hm.supply_le
  rw [add_zero] at hu
  rw [add_zero, supply_of_pending hpending]
  exact hm'.supply_le.trans (add_le_add_left hu _)

theorem Settled.abortStagedGeneration (s : StagedGeneration) :
    Moves out 0 inner (inner.abortStagedGeneration s).2 ∧
      (inner.abortStagedGeneration s).2.store = inner.store := by
  unfold RouterInner.abortStagedGeneration
  rcases inner.registry.takeStaged_eq s with ht | ⟨pending, -, ht⟩
  · rw [ht]
    exact ⟨h.refl, rfl⟩
  · rw [ht]
    exact ⟨h.discardPending, rfl⟩

theorem Settled.subscribeClient (holder : ClientEventHolder) :
    Moves out 0 inner (inner.subscribeClient holder).2 :=
  h.shrunk (h.sound.subscribeClientLocked holder)

theorem Settled.unsubscribeClient (c s : String) :
    Moves out 0 inner (inner.unsubscribeClient c s).2 :=
  h.shrunk (h.sound.unsubscribeClientLocked c s)

theorem Settled.cleanupClientHolder (c s : String) (mailbox : ℕ) :
    Moves out 0 inner (inner.cleanupClientHolder c s mailbox) :=
  h.shrunk (h.sound.cleanupClientHolder c s mailbox)

theorem Settled.markStranded (o : String) : Moves out 0 inner (inner.markStranded o) :=
  h.setPlane h.balanced rfl

end

end RouterInner

end BotsterHub.Router
