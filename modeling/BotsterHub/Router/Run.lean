import BotsterHub.Router.Operations

/-!
Runs of the router.

A `World` is the router with what its callers hold: pulled deliveries, deliveries given up, and
unload works between their critical sections. A delivery is requeued or retired once; a late
completion may retire it again. `none` means that an `expect`, an assertion or a checked
subtraction failed.
-/

namespace BotsterHub.Router

open Multiset List Option ReadyDelivery RouterInner Progress Registry

structure World where
  inner : RouterInner
  held : List ReadyDelivery
  spent : List ReadyDelivery
  works : List RouterInner.OwnerWork

/-- Operations on a delivery or a work name it by its position. -/
inductive Op where
  | ingress (caller name : String) (payload : Json) (now : Instant)
  | pull (limits : RouterInner.PullLimits)
  | noteAdmitted (envelopeId : ℕ) (key : String × ℕ)
  | retireHolder (index : ℕ)
  | retirePulled (index : ℕ)
  | retireAgain (index : ℕ)
  | requeue (index : ℕ) (engineRefused : Bool)
  | unpark
  | unload (owner : String) (generation : ℕ)
  | workMetadata (index : ℕ)
  | workDestroy (index : ℕ)
  | workFinish (index : ℕ)
  | stage (owner : String) (contracts : List EmittedContract)
      (subscriptions : List EventSubscription) (retainedBytes : PendingGeneration → ℕ)
      (reservedBytes : ℕ)
  | activate (staged : StagedGeneration)
  | abort (staged : StagedGeneration)
  | subscribeClient (holder : ClientEventHolder)
  | unsubscribeClient (connectionId subscriptionId : String)
  | cleanupClient (connectionId subscriptionId : String) (mailbox : ℕ)
  | markStranded (owner : String)

def Op.staged : Op → List EventSubscription
  | .stage _ _ subscriptions _ _ => subscriptions
  | _ => []

namespace World

def new (policy : Policy) (schema : Json → Bool) : World :=
  ⟨RouterInner.new policy schema, [], [], []⟩

def giveUp (w : World) (index : ℕ) (delivery : ReadyDelivery) (inner : RouterInner) : World :=
  { w with inner, held := w.held.eraseIdx index, spent := delivery :: w.spent }

def setWork (w : World) (index : ℕ) (work : RouterInner.OwnerWork) (inner : RouterInner) :
    World :=
  { w with inner, works := w.works.set index work }

def step (encode : Json → Option (List UInt8)) (w : World) : Op → Option World
  | .ingress caller name payload now =>
    (w.inner.tryIngressNow encode caller name payload now).map fun (_, inner) =>
      { w with inner := inner }
  | .pull limits =>
    (w.inner.pullReadyBatch limits).map fun (batch, _, inner) =>
      { w with inner := inner, held := w.held ++ batch }
  | .noteAdmitted envelopeId key => some { w with inner := w.inner.noteAdmitted envelopeId key }
  | .retireHolder index =>
    match w.held[index]? with
    | none => some w
    | some d => (w.inner.retireHolder d.envelopeId d.holder.holderKey).map fun (_, inner) =>
      w.giveUp index d inner
  | .retirePulled index =>
    match w.held[index]? with
    | none => some w
    | some d => (w.inner.retirePulled d.pullId d.envelopeId d.holder.holderKey).map
        fun (_, inner) => w.giveUp index d inner
  | .retireAgain index =>
    match w.spent[index]? with
    | none => some w
    | some d => (w.inner.retireHolder d.envelopeId d.holder.holderKey).map fun (_, inner) =>
      { w with inner := inner }
  | .requeue index engineRefused =>
    match w.held[index]? with
    | none => some w
    | some d => (w.inner.requeue d engineRefused).map fun
        | (.ok _, inner) => { w with inner := inner, held := w.held.eraseIdx index }
        | (.error _, inner) => { w with inner := inner }
  | .unpark => some { w with inner := w.inner.unparkEngineConsumers.2 }
  | .unload owner generation =>
    some { w with works := w.works ++ (RouterInner.tryApplyUnload owner generation).toList }
  | .workMetadata index =>
    match w.works[index]? with
    | none => some w
    | some work => (w.inner.applyMetadata work).map fun (work, inner) => w.setWork index work inner
  | .workDestroy index =>
    match w.works[index]? with
    | none => some w
    | some work =>
      let (work, inner) := w.inner.destroyPayloads work
      some (w.setWork index work inner)
  | .workFinish index =>
    match w.works[index]? with
    | none => some w
    | some work =>
      -- the second critical section follows the other two phases
      if work.metadataApplied && work.retiredPayloads.isEmpty then
        (w.inner.finishWork work).map fun inner =>
          { w with inner := inner, works := w.works.eraseIdx index }
      else some w
  | .stage owner contracts subscriptions retainedBytes reservedBytes =>
    (w.inner.stageGeneration owner contracts subscriptions retainedBytes reservedBytes).map
      fun (_, inner) => { w with inner := inner }
  | .activate staged =>
    (w.inner.activateStagedGeneration staged).map fun (result, inner) =>
      { w with inner := inner, works := w.works ++ (result.map Prod.snd).toList }
  | .abort staged => some { w with inner := (w.inner.abortStagedGeneration staged).2 }
  | .subscribeClient holder => some { w with inner := (w.inner.subscribeClient holder).2 }
  | .unsubscribeClient connectionId subscriptionId =>
    some { w with inner := (w.inner.unsubscribeClient connectionId subscriptionId).2 }
  | .cleanupClient connectionId subscriptionId mailbox =>
    some { w with inner := w.inner.cleanupClientHolder connectionId subscriptionId mailbox }
  | .markStranded owner => some { w with inner := w.inner.markStranded owner }

def run (encode : Json → Option (List UInt8)) (w : World) (ops : List Op) : Option World :=
  ops.foldlM (step encode) w

def pulled (w : World) : Multiset QueuedCopy := (w.held.map ReadyDelivery.copy : List QueuedCopy)

structure Invariant (policy : Policy) (future : Multiset ℕ) (w : World) : Prop where
  settled : w.inner.Settled w.pulled
  policy_eq : w.inner.policy = policy
  sizes : ∀ d ∈ w.held, d.size = w.inner.store.size d.envelopeId
  done : ∀ d ∈ w.spent, w.inner.store.Done d.envelopeId d.holder.holderKey
  unique : (w.inner.registry.supply + future).Nodup

variable {policy : Policy} {f future : Multiset ℕ} {w w' : World}
  (encode : Json → Option (List UInt8))

theorem invariant_new (policy : Policy) (s : Json → Bool) (h : future.Nodup) :
    (new policy s).Invariant policy future where
  settled := settled_new policy s
  policy_eq := rfl
  sizes d hd := by cases hd
  done d hd := by cases hd
  unique := by rwa [new, supply_new, zero_add]

variable {inner : RouterInner}

section

variable (h : w.Invariant policy (f + future))
include h

theorem Invariant.unique_of_moves (hm : RouterInner.Moves out f w.inner inner) :
    (inner.registry.supply + future).Nodup := by
  refine nodup_of_le (add_le_add_left hm.supply_le future) ?_
  rw [add_assoc]
  exact h.unique

theorem Invariant.moves (hm : RouterInner.Moves w.pulled f w.inner inner)
    (hp : Progress w.pulled w.inner.store inner.store) (works : List RouterInner.OwnerWork) :
    Invariant policy future { w with inner := inner, works := works } where
  settled := hm.settled
  policy_eq := hm.policy_eq.trans h.policy_eq
  sizes d hd := (h.sizes d hd).trans (hp.size_eq d.copy (mem_coe.mpr (mem_map_of_mem hd))).symm
  done d hd := hp.done _ _ (h.done d hd)
  unique := h.unique_of_moves hm

theorem Invariant.moves_registry
    (hm : RouterInner.Moves w.pulled f w.inner inner) (hs : inner.store = w.inner.store) :
    Invariant policy future { w with inner := inner } :=
  h.moves hm (hs ▸ refl _ _) w.works

end

theorem Invariant.same (h : w.Invariant policy (0 + future)) : w.Invariant policy future := by
  rwa [zero_add] at h

variable {d : ReadyDelivery}

theorem pulled_cons (h : w.held[i]? = some d) :
    w.pulled = d.copy ::ₘ ((w.held.eraseIdx i).map copy : List QueuedCopy) := by
  obtain ⟨hlt, hg⟩ := List.getElem?_eq_some_iff.mp h
  rw [pulled, Multiset.cons_coe, Multiset.coe_eq_coe, ← List.map_cons]
  refine Perm.map _ ?_
  rw [← hg]
  exact (getElem_cons_eraseIdx_perm hlt).symm

section

variable (h : w.Invariant policy (0 + future))
include h

theorem Invariant.released (index : ℕ)
    (hm : RouterInner.Moves ((w.held.eraseIdx index).map copy : List QueuedCopy) 0 w.inner inner)
    (hp : Progress ((w.held.eraseIdx index).map copy : List QueuedCopy) w.inner.store inner.store)
    {spent : List ReadyDelivery}
    (hs : ∀ e ∈ spent, inner.store.Done e.envelopeId e.holder.holderKey) :
    Invariant policy future
      { w with inner := inner, held := w.held.eraseIdx index, spent := spent } where
  settled := hm.settled
  policy_eq := hm.policy_eq.trans h.policy_eq
  sizes e he := (h.sizes e (mem_of_mem_eraseIdx he)).trans
    (hp.size_eq e.copy (mem_coe.mpr (mem_map_of_mem he))).symm
  done := hs
  unique := h.unique_of_moves hm

theorem Invariant.giveUp {index : ℕ} (hd : w.held[index]? = some d) (pulls : Finset ℕ) :
    ∃ last inner, retireHolder { w.inner with outstandingPulls := pulls } d.envelopeId
        d.holder.holderKey = some (last, inner) ∧
      (w.giveUp index d inner).Invariant policy future := by
  have hpulls := h.settled.setPulls pulls
  have hs := hpulls.settled
  rw [pulled_cons hd] at hs
  obtain ⟨last, s', hstep, hm, hp, hdone⟩ := hs.retireHolder
  refine ⟨last, _, hstep, h.released index (hpulls.trans hm) hp fun e he => ?_⟩
  rcases mem_cons.mp he with rfl | he
  · exact hdone
  · exact hp.done _ _ (h.done e he)

theorem Invariant.requeue {i : ℕ} (hd : w.held[i]? = some d) (e : Bool) :
    ∃ w', w.step encode (.requeue i e) = some w' ∧ w'.Invariant policy future := by
  have hs := h.settled
  rw [pulled_cons hd] at hs
  obtain ⟨r, inner, hstep, hstore, hm⟩ := hs.requeue (h.sizes d (mem_of_getElem? hd)) e
  simp only [step, hd, hstep, map_some]
  cases r with
  | ok =>
    exact ⟨_, rfl, h.released i hm (hstore ▸ refl _ _) (hstore ▸ h.done)⟩
  | error =>
    refine ⟨_, rfl, h.moves_registry ?_ hstore⟩
    rw [pulled_cons hd]
    exact hm

theorem Invariant.pull (l : RouterInner.PullLimits) :
    ∃ w', w.step encode (.pull l) = some w' ∧ w'.Invariant policy future := by
  obtain ⟨b, raised, inner, hstep, hm, hp, hs, -⟩ := h.settled.pullReadyBatch l
  refine ⟨{ w with inner := inner, held := w.held ++ b }, by simp [step, hstep],
    ?_, hm.policy_eq.trans h.policy_eq, fun d hd => ?_,
    fun d hd => hp.done _ _ (h.done d hd), h.unique_of_moves hm⟩
  · rw [pulled, map_append, ← coe_add]
    exact hm.settled
  rcases mem_append.mp hd with hd | hd
  · exact (h.sizes d hd).trans (hp.size_eq d.copy (mem_coe.mpr (mem_map_of_mem hd))).symm
  · exact hs d hd

end

/-- No operation fails in a sound world, and each keeps it sound. -/
theorem step_invariant (op : Op) (h : w.Invariant policy (generationsOf op.staged + future)) :
    ∃ w', w.step encode op = some w' ∧ w'.Invariant policy future := by
  have hg : w.inner.registry.generations.Nodup :=
    nodup_of_le ((le_add_right _ _).trans (le_add_right _ _)) h.unique
  cases op with
  | ingress caller name p now =>
    obtain ⟨result, inner, hs, hm, hp⟩ := h.settled.tryIngressNow hg encode caller name p now
    exact ⟨_, by simp [step, hs, map_some], h.moves hm hp w.works⟩
  | pull l => exact h.pull encode l
  | noteAdmitted e key =>
    obtain ⟨hm, hp⟩ := h.settled.noteAdmitted e key
    exact ⟨_, rfl, h.moves hm hp w.works⟩
  | retireHolder =>
    rw [step]
    split
    · exact ⟨w, rfl, h.same⟩
    next hd =>
    obtain ⟨last, inner, hs, hi⟩ := h.giveUp hd w.inner.outstandingPulls
    exact ⟨_, congrArg (Option.map _) hs, hi⟩
  | retirePulled =>
    rw [step]
    split
    · exact ⟨w, rfl, h.same⟩
    next d hd =>
    obtain ⟨last, inner, hs, hi⟩ := h.giveUp hd (w.inner.outstandingPulls.erase d.pullId)
    exact ⟨_, congrArg (Option.map _) hs, hi⟩
  | retireAgain =>
    rw [step]
    split
    · exact ⟨w, rfl, h.same⟩
    next d hd =>
    have hdone := h.done d (mem_of_getElem? hd)
    exact ⟨w, by rw [retireHolder_of_done hdone]; rfl, h.same⟩
  | requeue i engineRefused =>
    cases hd : w.held[i]? with
    | none => exact ⟨w, by simp [step, hd], h.same⟩
    | some => exact h.requeue encode hd engineRefused
  | unpark => exact ⟨_, rfl, h.moves_registry h.settled.unpark rfl⟩
  | unload =>
    exact ⟨_, rfl, h.moves h.settled.refl (refl _ _) _⟩
  | workMetadata =>
    rw [step]
    split
    · exact ⟨w, rfl, h.same⟩
    next work _ =>
    obtain ⟨work', inner, hs, hm, hp⟩ := h.settled.applyMetadata work
    exact ⟨_, by rw [hs]; rfl, h.moves hm hp _⟩
  | workDestroy =>
    rw [step]
    split
    · exact ⟨w, rfl, h.same⟩
    next work _ =>
    obtain ⟨hm, hp⟩ := h.settled.destroyPayloads work
    exact ⟨_, rfl, h.moves hm hp _⟩
  | workFinish =>
    rw [step]
    split
    · exact ⟨w, rfl, h.same⟩
    next work _ =>
    split
    · obtain ⟨inner, hs, hm, hp⟩ := h.settled.finishWork work
      exact ⟨_, by rw [hs]; rfl, h.moves hm hp _⟩
    · exact ⟨w, rfl, h.same⟩
  | stage o contracts subscriptions r reservedBytes =>
    obtain ⟨result, inner, hs, hm, hstore⟩ := h.settled.stageGeneration o contracts
      subscriptions r reservedBytes
    exact ⟨_, by simp [step, hs, map_some], h.moves_registry hm hstore⟩
  | activate staged =>
    obtain ⟨result, inner, hs, hm, hp⟩ := h.settled.activateStagedGeneration staged
    exact ⟨_, by simp [step, hs, map_some], h.moves hm hp (w.works ++ (result.map Prod.snd).toList)⟩
  | abort staged =>
    obtain ⟨hm, hstore⟩ := h.settled.abortStagedGeneration staged
    exact ⟨_, rfl, h.moves_registry hm hstore⟩
  | subscribeClient holder =>
    exact ⟨_, rfl, h.moves_registry (h.settled.subscribeClient holder) rfl⟩
  | unsubscribeClient c s =>
    exact ⟨_, rfl, h.moves_registry (h.settled.unsubscribeClient c s) rfl⟩
  | cleanupClient c s m =>
    exact ⟨_, rfl, h.moves_registry (h.settled.cleanupClientHolder c s m) rfl⟩
  | markStranded o => exact ⟨_, rfl, h.moves_registry (h.settled.markStranded o) rfl⟩

theorem run_invariant (ops : List Op)
    (h : w.Invariant policy (generationsOf (ops.flatMap Op.staged))) :
    ∃ w', w.run encode ops = some w' ∧ w'.Invariant policy 0 :=
  Machine.run_rest
    (I := fun rest (w : World) => w.Invariant policy (generationsOf (rest.flatMap Op.staged)))
    (fun op rest w h => by
      rw [flatMap_cons, generationsOf_append] at h
      exact step_invariant encode op h) ops w h

/-- What counters and indexes say about envelopes, queues and registrations. An envelope occupies
its producer until it is gone, also while its payload is destroyed. -/
structure Ledger (w : World) : Prop where
  global_eq : w.inner.store.globalInFlightBytes = w.inner.store.envelopes.total Envelope.size
  producer_events : ∀ owner, (w.inner.store.producerOf owner).events =
    w.inner.store.envelopes.total fun envelope => if envelope.owner = owner then 1 else 0
  producer_bytes : ∀ owner, (w.inner.store.producerOf owner).bytes =
    w.inner.store.envelopes.total fun envelope =>
      if envelope.owner = owner then envelope.size else 0
  consumer_events : ∀ plugin, (w.inner.queues.queueOf plugin).events =
    (w.inner.queues.queueOf plugin).copies.length
  consumer_bytes : ∀ plugin, (w.inner.queues.queueOf plugin).bytes =
    ((w.inner.queues.queueOf plugin).copies.map fun copy => w.inner.store.size copy.envelopeId).sum
  queued : ∀ plugin, ∀ copy ∈ (w.inner.queues.queueOf plugin).copies,
    copy.holder.pluginKey = plugin ∧
    (∃ envelope, w.inner.store.liveEnvelope copy.envelopeId = some envelope ∧
      envelope.owner = copy.holder.owner) ∧
    w.inner.store.admitted.get₂ copy.envelopeId copy.holder.holderKey ≠ some ⟨true⟩
  remaining : ∀ id envelope, w.inner.store.liveEnvelope id = some envelope →
    0 < envelope.remainingHolders ∧ envelope.remainingHolders =
      ((w.inner.queues.copies + w.pulled).filter fun copy => copy.envelopeId = id).card
  distinct : ((w.inner.queues.copies + w.pulled).map EnvelopeStore.claimKey).Nodup
  retired : w.inner.store.RetiredClean
  queuedByProducer : w.inner.queues.queuedByProducer.Counts₂ fun owner plugin =>
    (w.inner.queues.queueOf plugin).copies.countP fun copy => copy.holder.owner = owner
  retiringByCleanup : ∀ cleanup id, id ∈ w.inner.store.retiringOf cleanup ↔
    w.inner.store.Retiring cleanup id
  retiringNonempty : ∀ cleanup ids,
    w.inner.store.retiringByCleanup.lookup cleanup = some ids → ids.Nodup ∧ ids ≠ []
  readyConsumers : ∀ plugin, plugin ∈ w.inner.queues.readyConsumers ↔
    (w.inner.queues.queueOf plugin).copies ≠ [] ∧ plugin ∉ w.inner.queues.engineParked
  registrations : w.inner.registry.Indexed []
  contractNames : w.inner.registry.NamesExact

structure WithinLimits (policy : Policy) (w : World) : Prop where
  global : w.inner.store.globalInFlightBytes ≤ policy.globalInFlightBytes
  producer : ∀ owner, (w.inner.store.producerOf owner).events ≤ policy.producerQueueMaxEvents ∧
    (w.inner.store.producerOf owner).bytes ≤ policy.producerQueueMaxBytes
  consumer : ∀ plugin, (w.inner.queues.queueOf plugin).events ≤ policy.consumerQueueMaxEvents ∧
    (w.inner.queues.queueOf plugin).bytes ≤ policy.consumerQueueMaxBytes
  perPlugin : ∀ plugin, (w.inner.registry.subscriptionsPerPlugin.lookup plugin).getD 0 ≤
    policy.subscriptionsPerPluginMax
  perEvent : ∀ owner name, (w.inner.registry.subscribersOf owner name).length ≤
    policy.subscribersPerEventMax

theorem Invariant.ledger (h : w.Invariant policy future) : w.Ledger := by
  have hb := h.settled.balanced
  have hclaims := hb.holders
  rw [coe_nil, add_zero] at hclaims
  refine ⟨hb.exact.global_eq, hb.exact.events_eq, hb.exact.bytes_eq, hb.accounted.events_eq,
    fun p => ?_, fun p copy hc => ?_, fun id e hl => ?_, hclaims.nodup,
    hb.clean, hb.accounted.byProducer.congr fun owner p => ?_, hb.exact.retiring_iff,
    hb.exact.retiring_wf, hb.ready, h.settled.sound.indexed, h.settled.sound.names⟩
  · rw [hb.accounted.bytes_eq]
    rfl
  · have hm : copy ∈ w.inner.queues.copies + w.pulled :=
      mem_add.mpr (.inl (Queues.mem_copies.mpr ⟨p, hc⟩))
    exact ⟨hb.accounted.keyed p copy hc, hclaims.live copy hm, hclaims.unretired copy hm⟩
  · exact ⟨hb.noOrphan id e hl, hclaims.remaining_eq id e hl⟩
  · refine (Nat.add_zero _).trans (countP_congr fun copy hc => ?_)
    simp [hb.accounted.keyed p copy hc]

theorem Invariant.withinLimits (h : w.Invariant policy future) : w.WithinLimits policy := by
  have hb := h.settled.balanced
  have hs := h.settled.sound
  rw [h.policy_eq] at hb hs
  refine ⟨hb.global_le, hb.producer_le, hb.consumer_le, fun p => ?_, hs.perEvent_le⟩
  rw [hs.indexed.count_eq]
  exact hs.perPlugin_le p

/-- Every run ends without a failed `expect`, assertion or checked subtraction, with an exact ledger
within the policy, when no two submitted subscriptions share a holder generation. -/
theorem run_keeps_ledger (policy : Policy) (schema : Json → Bool) (ops : List Op)
    (hunique : ((ops.flatMap Op.staged).map EventSubscription.generation).Nodup) :
    ∃ w, (new policy schema).run encode ops = some w ∧ w.Ledger ∧ w.WithinLimits policy := by
  obtain ⟨w, hrun, h⟩ := run_invariant encode ops
    (invariant_new policy schema (coe_nodup.mpr hunique))
  exact ⟨w, hrun, h.ledger, h.withinLimits⟩

/-- A listener is installed, receives an event, returns it once, gives it up and is unloaded. -/
def listenerRun : List Op :=
  let limits : RouterInner.PullLimits := ⟨8, 32768, 0, 8000000, fun _ => 0⟩
  let subscription (name : String) (generation : ℕ) : EventSubscription :=
    ⟨"listener", hubEventOwner, name, "on_worktree", generation, 0, 0⟩
  [.stage "listener" [] [subscription "worktree_created" 1, subscription "worktree_deleted" 2]
      (fun _ => 0) 0,
    .activate ⟨"listener", 1⟩, .workDestroy 0, .workFinish 0,
    .ingress hubEventOwner "worktree_created" (.obj []) 0, .pull limits, .requeue 0 true, .unpark,
    .pull limits, .noteAdmitted 1 ("listener", 1), .retireHolder 0, .retireAgain 0,
    .ingress hubEventOwner "worktree_deleted" (.obj []) 0, .unload "listener" 1,
    .workMetadata 0, .workDestroy 0, .workFinish 0]

theorem run_keeps_ledger_listener :
    ((listenerRun.flatMap Op.staged).map EventSubscription.generation).Nodup ∧
      ∃ w, (new default fun _ => true).run (fun _ => some [123, 125]) listenerRun = some w ∧
        w.Ledger ∧ w.WithinLimits default :=
  ⟨by decide, run_keeps_ledger _ default _ listenerRun (by decide)⟩

end World

end BotsterHub.Router
