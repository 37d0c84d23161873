import BotsterHub.Router.Inner
import BotsterHub.Router.QueueLedger
import BotsterHub.Router.Retirement

/-!
Queues and envelopes together.

`Balanced policy owed out q s`: every queued copy, every one in `out` (pulled and not given up)
and in `owed` (taken out by an unload, not yet released) is a claim on its envelope. `Progress`:
what pulled copies and finished holders keep across a step.
-/

namespace BotsterHub.Router

open Multiset List Option AList EnvelopeStore RouterInner Queues

structure Balanced (policy : Policy) (owed : List QueuedCopy) (out : Multiset QueuedCopy)
    (q : Queues) (s : EnvelopeStore) : Prop where
  accounted : q.Accounted s.size owed
  ready : q.ReadyExact
  exact : s.Exact
  holders : s.Holders (q.copies + owed + out)
  noOrphan : s.NoOrphan
  clean : s.RetiredClean
  consumer_le : ∀ plugin, (q.queueOf plugin).events ≤ policy.consumerQueueMaxEvents ∧
    (q.queueOf plugin).bytes ≤ policy.consumerQueueMaxBytes
  producer_le : ∀ owner, (s.producerOf owner).events ≤ policy.producerQueueMaxEvents ∧
    (s.producerOf owner).bytes ≤ policy.producerQueueMaxBytes
  global_le : s.globalInFlightBytes ≤ policy.globalInFlightBytes

structure Progress (out : Multiset QueuedCopy) (s s' : EnvelopeStore) : Prop where
  done : ∀ id key, s.Done id key → s'.Done id key
  size_eq : ∀ copy ∈ out, s'.size copy.envelopeId = s.size copy.envelopeId

theorem Progress.refl (out : Multiset QueuedCopy) (s : EnvelopeStore) : Progress out s s :=
  ⟨fun _ _ h => h, fun _ _ => rfl⟩

theorem Progress.trans (h : Progress out s s') (h' : Progress out' s' s'') (hs : out' ≤ out) :
    Progress out' s s'' :=
  ⟨fun id key hd => h'.done id key (h.done id key hd), fun copy hc =>
    (h'.size_eq copy hc).trans (h.size_eq copy (mem_of_le hs hc))⟩

namespace Balanced

variable {policy : Policy} {owed : List QueuedCopy} {out out' : Multiset QueuedCopy}
  {q q' : Queues} {s s' : EnvelopeStore}

theorem empty (policy : Policy) : Balanced policy [] 0 empty empty where
  accounted := accounted_empty _
  ready := readyExact_empty
  exact := exact_empty
  holders := holders_empty
  noOrphan := noOrphan_empty
  clean id envelope h := by simp [EnvelopeStore.empty] at h
  consumer_le _ := ⟨Nat.zero_le _, Nat.zero_le _⟩
  producer_le owner := by
    have hz : EnvelopeStore.empty.producerOf owner = default := by
      simp only [EnvelopeStore.producerOf, EnvelopeStore.empty, lookup_insert_eq]
      split <;> rfl
    rw [hz]
    exact ⟨Nat.zero_le _, Nat.zero_le _⟩
  global_le := Nat.zero_le _

theorem released (h : Balanced policy owed out q s)
    (hr : s.Released (q.copies + owed + out') s') : Balanced policy owed out' q s' where
  accounted := h.accounted.size_congr (fun copy hc => (hr.size_eq copy (by simp [hc])).symm)
    (fun copy hc => (hr.size_eq copy (by simp [hc])).symm)
  ready := h.ready
  exact := hr.exact
  holders := hr.holders
  noOrphan := hr.noOrphan
  clean := hr.keepsClean h.clean
  consumer_le := h.consumer_le
  producer_le owner := ⟨(hr.producer_le owner).1.trans (h.producer_le owner).1,
    (hr.producer_le owner).2.trans (h.producer_le owner).2⟩
  global_le := hr.global_le.trans h.global_le

theorem progress_of_released (hr : s.Released (q.copies + owed + out) s') : Progress out s s' :=
  ⟨hr.keepsDone, fun copy hc => hr.size_eq copy (by simp [hc])⟩

variable {copy : QueuedCopy}

theorem retire (h : Balanced policy owed (copy ::ₘ out) q s) :
    ∃ last s', s.retireHolderLocked copy.envelopeId copy.holder.holderKey = some (last, s') ∧
      Balanced policy owed out q s' ∧ Progress out s s' ∧
      s'.Done copy.envelopeId copy.holder.holderKey := by
  have hc : q.copies + owed + copy ::ₘ out = copy ::ₘ (q.copies + owed + out) := add_cons ..
  obtain ⟨last, s', hs, hr, hd⟩ := retireHolderLocked_spec h.exact (hc ▸ h.holders) h.noOrphan
  exact ⟨last, s', hs, h.released hr, progress_of_released hr, hd⟩

section

variable (h : Balanced policy owed out q s)
include h

theorem queues_congr (hq : ∀ p, q'.queueOf p = q.queueOf p)
    (hi : q'.queuedByProducer = q.queuedByProducer) (hr : q'.ReadyExact) :
    Balanced policy owed out q' s :=
  { h with
    accounted := h.accounted.congr hq hi
    ready := hr
    holders := by
      rw [copies_eq_of_queueOf_eq hq]
      exact h.holders
    consumer_le := fun p => by
      rw [hq]
      exact h.consumer_le p }

theorem ensureConsumer (p : String) : Balanced policy owed out (q.ensureConsumer p) s :=
  h.queues_congr (queueOf_ensureConsumer q p) (ensureConsumer_index q p)
    fun o => by simpa using h.ready o

theorem foldl_ensureConsumer (l : List String) :
    Balanced policy owed out (l.foldl Queues.ensureConsumer q) s := by
  induction l generalizing q with
  | nil => exact h
  | cons p l ih => exact ih (h.ensureConsumer p)

theorem ensureProducer (o : String) : Balanced policy owed out q (s.ensureProducer o) ∧
      Progress out s (s.ensureProducer o) := by
  have he := h.exact.ensureProducer o
  have hp := producerOf_ensureProducer s o
  rw [ensureProducer_eq] at he hp ⊢
  exact ⟨{ h with
    exact := he
    holders := h.holders.congr (fun _ => rfl) fun _ _ => rfl
    producer_le := fun other => by
      rw [hp]
      exact h.producer_le other }, fun _ _ hd => hd, fun _ _ => rfl⟩

theorem unpark : Balanced policy owed out q.unparkEngineConsumers.2 s :=
  h.queues_congr (fun _ => rfl) rfl (unparkEngineConsumers_ready h.ready)

end

theorem pushed (h : Balanced policy owed (copy ::ₘ out) q s)
    (hp : Queues.Pushed s.size owed copy q q')
    (he : (q.queueOf copy.holder.pluginKey).events + 1 ≤ policy.consumerQueueMaxEvents)
    (hb : (q.queueOf copy.holder.pluginKey).bytes + s.size copy.envelopeId ≤
      policy.consumerQueueMaxBytes) : Balanced policy owed out q' s :=
  { h with
    accounted := hp.accounted
    ready := hp.ready
    holders := by
      have hc : q'.copies + owed + out = q.copies + owed + copy ::ₘ out := by
        rw [hp.copies_eq, cons_add, cons_add, add_cons]
      rw [hc]
      exact h.holders
    consumer_le := fun p => by
      by_cases hplugin : p = copy.holder.pluginKey
      · subst hplugin
        rw [hp.events_eq, hp.bytes_eq]
        exact ⟨he, hb⟩
      · rw [hp.queueOf_ne p hplugin]
        exact h.consumer_le p }

structure Popped (policy : Policy) (out : Multiset QueuedCopy) (plugin : String)
    (copy : QueuedCopy) (rest : List QueuedCopy) (envelope : Envelope) (q q₁ : Queues)
    (s : EnvelopeStore) : Prop where
  step : q.popQueuedCopy plugin = some (some copy, q₁)
  live : s.liveEnvelope copy.envelopeId = some envelope
  key : copy.holder.pluginKey = plugin
  lookup : q₁.consumers.lookup plugin = some { q.queueOf plugin with copies := rest }
  queueOf_ne : ∀ other, other ≠ plugin → q₁.queueOf other = q.queueOf other
  balanced : Balanced policy [] (copy ::ₘ out) (q₁.setQueue plugin
    ⟨(q.queueOf plugin).events - 1, (q.queueOf plugin).bytes - envelope.size, rest⟩) s
  events_room : (q.queueOf plugin).events - 1 + 1 ≤ policy.consumerQueueMaxEvents
  bytes_room : (q.queueOf plugin).bytes - envelope.size + envelope.size ≤
    policy.consumerQueueMaxBytes

theorem pop (h : Balanced policy [] out q s) (hc : (q.queueOf p).copies = copy :: rest) :
    ∃ q₁ e, Popped policy out p copy rest e q q₁ s := by
  obtain ⟨q₁, hstep, hv, hlookup, hready, hp, -, ha⟩ := h.accounted.pop hc
  have hmem : copy ∈ q.copies := mem_copies.mpr ⟨p, by simp [hc]⟩
  obtain ⟨e, hlive, -⟩ := h.holders.live copy (by simp [hmem])
  have hs := size_of_lookup (liveEnvelope_eq_some.mp hlive).1
  have he : 0 < (q.queueOf p).events := by
    rw [h.accounted.events_eq, hc]
    exact Nat.succ_pos _
  have hb : e.size ≤ (q.queueOf p).bytes := by
    rw [h.accounted.bytes_eq, hc, copyBytes_cons, hs]
    omega
  have hl := h.consumer_le p
  refine ⟨q₁, e, hstep, hlive, h.accounted.keyed p copy (by simp [hc]), hlookup,
    fun o ho => by rw [hv, if_neg ho], ?_, by omega, by omega⟩
  have hq (o : String) : (q₁.setQueue p ⟨(q.queueOf p).events - 1,
      (q.queueOf p).bytes - e.size, rest⟩).queueOf o = if o = p then
      ⟨(q.queueOf p).events - 1, (q.queueOf p).bytes - e.size, rest⟩
      else q.queueOf o := by
    rw [queueOf_setQueue, hv]
    split <;> rfl
  refine { h with
    accounted := hs ▸ ha
    ready := fun o => ?_
    holders := ?_
    consumer_le := fun o => ?_ }
  · rw [hq, setQueue_ready, setQueue_parked, hready, hp]
    by_cases ho : o = p
    · subst ho
      have hold := h.ready o
      rw [hc] at hold
      by_cases hr : rest = []
      · simp [hr]
      · simp [hr, hold]
    · by_cases hr : rest = []
      · simp [hr, ho, h.ready o]
      · simp [hr, ho, h.ready o]
  · have hm := copies_of_update hq
    rw [hc, ← cons_coe, add_cons] at hm
    have hclaims : (q₁.setQueue p ⟨(q.queueOf p).events - 1,
        (q.queueOf p).bytes - e.size, rest⟩).copies + ([] : List QueuedCopy) +
        copy ::ₘ out = q.copies + ([] : List QueuedCopy) + out := by
      rw [coe_nil, add_zero, add_zero, add_cons, ← cons_add]
      congr 1
      rw [← cons_add] at hm
      exact add_right_cancel hm
    rw [hclaims]
    exact h.holders
  · rw [hq]
    split
    · exact ⟨(Nat.sub_le _ _).trans hl.1, (Nat.sub_le _ _).trans hl.2⟩
    · exact h.consumer_le o

theorem insertEnvelope (h : Balanced policy [] out q s) (envelope : Envelope)
    (hid : envelope.id = s.nextEnvelope) (hlive : envelope.retirement = none)
    (ho : ∀ a ∈ accepted, a.owner = envelope.owner)
    (hk : (accepted.map EventSubscription.holderKey).Nodup)
    (hcount : envelope.remainingHolders = accepted.length) (hpos : accepted ≠ [])
    (hp : (s.producerOf envelope.owner).events + 1 ≤ policy.producerQueueMaxEvents ∧
      (s.producerOf envelope.owner).bytes + envelope.size ≤ policy.producerQueueMaxBytes)
    (hg : s.globalInFlightBytes + envelope.size ≤ policy.globalInFlightBytes) :
    Balanced policy [] (((accepted.map (QueuedCopy.mk envelope.id) : List QueuedCopy) :
        Multiset QueuedCopy) + out) q (s.insertEnvelope envelope) ∧
      Progress out s (s.insertEnvelope envelope) := by
  have hlookup (j : ℕ) : (s.insertEnvelope envelope).envelopes.lookup j =
      if j = envelope.id then some envelope else s.envelopes.lookup j :=
    lookup_insert_eq ..
  have hclaim (copy : QueuedCopy) (hc : copy ∈ q.copies + ([] : List QueuedCopy) + out) :
      (s.insertEnvelope envelope).size copy.envelopeId = s.size copy.envelopeId := by
    obtain ⟨e, he, -⟩ := h.holders.envelope_of_mem hc
    have hne : copy.envelopeId ≠ envelope.id := by
      intro heq
      rw [heq, hid, h.exact.lookup_next] at he
      cases he
    rw [size, size, hlookup, if_neg hne]
  refine ⟨⟨h.accounted.size_congr (fun copy hc => (hclaim copy (by simp [hc])).symm)
    (fun copy hc => by cases hc), h.ready, h.exact.insertEnvelope envelope hid hlive, ?_,
    h.noOrphan.insertEnvelope envelope (hcount ▸ length_pos_of_ne_nil hpos), ?_,
    h.consumer_le, fun o => ?_, hg⟩, fun id key hd => ?_,
    fun copy hc => hclaim copy (by simp [hc])⟩
  · have hadded := h.holders.insertEnvelope h.exact envelope hid hlive
      (accepted.map (QueuedCopy.mk envelope.id)) (fun copy hc => ?_) ?_ (by simp [hcount])
    · have hs : q.copies + ([] : List QueuedCopy) +
          (((accepted.map (QueuedCopy.mk envelope.id) : List QueuedCopy) :
            Multiset QueuedCopy) + out) =
          ((accepted.map (QueuedCopy.mk envelope.id) : List QueuedCopy) : Multiset QueuedCopy) +
            (q.copies + ([] : List QueuedCopy) + out) := by
        rw [add_left_comm]
      rw [hs]
      exact hadded
    · obtain ⟨a, ha, rfl⟩ := mem_map.mp hc
      exact ⟨rfl, ho a ha⟩
    · rw [List.map_map]
      exact hk
  · intro id e hl hr
    rw [hlookup] at hl
    split at hl
    · cases hl
      exact absurd hlive hr
    · exact h.clean id e hl hr
  · simp only [EnvelopeStore.insertEnvelope, EnvelopeStore.producerOf, lookup_insert_eq]
    split
    · exact hp
    · exact h.producer_le o
  · have hne : id ≠ envelope.id := by
      rw [hid]
      exact hd.1.ne
    refine ⟨?_, hd.2.imp (fun hn => ?_) fun hret => hret⟩
    · have hlt := hd.1
      rw [← hid] at hlt
      exact Nat.lt_succ_of_lt hlt
    · rw [liveEnvelope, hlookup, if_neg hne]
      exact hn

def copiesFor (plugin : String) (l : List EventSubscription) : ℕ :=
  l.countP fun a => a.pluginKey = plugin

theorem enqueueAll {id size : ℕ} (accepted : List EventSubscription)
    (h : Balanced policy [] (((accepted.map (QueuedCopy.mk id) : List QueuedCopy) :
      Multiset QueuedCopy) + out) q s) (hsize : s.size id = size)
    (hr : ∀ p, (q.queueOf p).events + copiesFor p accepted ≤ policy.consumerQueueMaxEvents ∧
      (q.queueOf p).bytes + copiesFor p accepted * size ≤ policy.consumerQueueMaxBytes) :
    ∃ q', accepted.foldlM (fun (q : Queues) a => q.enqueueConsumerCopy id size a) q = some q' ∧
      Balanced policy [] out q' s := by
  induction accepted generalizing q with
  | nil => exact ⟨q, rfl, by simpa using h⟩
  | cons a accepted ih =>
    obtain ⟨q₁, hs, hp⟩ := enqueueConsumerCopy_spec h.accounted h.ready ⟨id, a⟩
    have hself := hr a.pluginKey
    simp only [copiesFor, List.countP_cons, decide_true, if_true] at hself
    rw [Nat.add_mul, Nat.one_mul] at hself
    have h₁ : Balanced policy []
        (((accepted.map (QueuedCopy.mk id) : List QueuedCopy) : Multiset QueuedCopy) + out) q₁ s :=
      pushed (by simpa only [List.map_cons, ← Multiset.cons_coe, Multiset.cons_add] using h) hp
      (by dsimp only; omega) (by dsimp only; omega)
    obtain ⟨q', hrest, hq'⟩ := ih h₁ fun p => by
      by_cases hplugin : p = a.pluginKey
      · subst hplugin
        rw [hp.events_eq, hp.bytes_eq]
        simp only [copiesFor]
        omega
      · have ho := hr p
        rw [hp.queueOf_ne p hplugin]
        simpa [copiesFor, List.countP_cons, Ne.symm hplugin] using ho
    refine ⟨q', ?_, hq'⟩
    rw [hsize] at hs
    rw [foldlM_cons, hs]
    exact hrest

theorem dropFromConsumers (r : QueuedCopy → Bool) (l : List String)
    (hl : ∀ p ∈ l, (q.consumers.lookup p).isSome)
    (h : Balanced policy owed out q s) :
    ∃ d q', dropFromConsumers r (owed, q) l = some (d, q') ∧ Balanced policy d out q' s := by
  induction l generalizing owed q with
  | nil => exact ⟨owed, q, rfl, h⟩
  | cons p l ih =>
    obtain ⟨queue, hlookup⟩ := isSome_iff_exists.mp (hl p mem_cons_self)
    rw [← queueOf_of_lookup hlookup] at hlookup
    obtain ⟨q₁, hs, ha, hr, hc, hle⟩ := dropFrom_spec h.accounted h.ready r hlookup
    have hclaims : q₁.copies + (owed ++ (q.queueOf p).copies.filter r : List QueuedCopy) + out =
        q.copies + owed + out := by
      rw [← hc, ← coe_add, add_comm (owed : Multiset QueuedCopy), ← add_assoc]
    have h₁ : Balanced policy (owed ++ (q.queueOf p).copies.filter r) out q₁ s :=
      { h with
        accounted := ha
        ready := hr
        holders := by
          rw [hclaims]
          exact h.holders
        consumer_le := fun o => ⟨(hle o).1.trans (h.consumer_le o).1,
          (hle o).2.trans_le (h.consumer_le o).2⟩ }
    obtain ⟨d, q', hrest, hq'⟩ := ih (fun o ho =>
      isSome_lookup_dropFrom hs (hl o (mem_cons_of_mem p ho))) h₁
    refine ⟨d, q', ?_, hq'⟩
    rw [dropFromConsumers, foldlM_cons]
    simp only [hs, map_some]
    exact hrest

theorem unloadConsumers_isSome (h : Balanced policy [] out q s) (o : String) :
    ∀ p ∈ unloadConsumers q o, (q.consumers.lookup p).isSome := by
  intro p hm
  rw [unloadConsumers, (List.perm_insertionSort _ _).mem_iff, List.mem_dedup, mem_append] at hm
  rcases hm with hm | hm
  · obtain ⟨n, hn⟩ := isSome_iff_exists.mp (lookup_isSome.mpr (mem_keys.mp hm))
    rw [← get₂_eq_getD, h.accounted.byProducer.get₂_eq] at hn
    have hne : (q.queueOf p).copies ≠ [] := by
      intro hnil
      rw [hnil] at hn
      cases hn
    rw [lookup_of_copies_ne_nil hne]
    rfl
  · split at hm
    · next hs =>
      obtain rfl := List.mem_singleton.mp hm
      exact hs
    · cases hm

theorem releaseDropped (h : Balanced policy (copy :: owed) out q s)
    (c : String × ℕ) (retired : List ℕ) :
    ∃ retired' q' s', releaseDropped c (retired, q, s) copy =
        some (retired', q', s') ∧ Balanced policy owed out q' s' ∧ Progress out s s' := by
  obtain ⟨i, hf, ha⟩ := h.accounted.settle
  have hclaims : q.copies + ((copy :: owed : List QueuedCopy) : Multiset QueuedCopy) + out =
      copy ::ₘ (q.copies + owed + out) := by
    rw [← cons_coe, add_cons, cons_add]
  have hh := h.holders
  rw [hclaims] at hh
  obtain ⟨e, last, s₁, hmark, hm⟩ := markHolderRetired_spec h.exact hh (mem_cons_self _ _)
  have hs := size_of_lookup (liveEnvelope_eq_some.mp hm.live).1
  set q₁ := { q with queuedByProducer := i }.releaseBytes copy.holder.pluginKey e.size with hq₁
  rw [hs] at ha
  have hqueue (p : String) : (q₁.queueOf p).events = (q.queueOf p).events ∧
      (q₁.queueOf p).bytes ≤ (q.queueOf p).bytes ∧
      (q₁.queueOf p).copies = (q.queueOf p).copies := by
    rw [hq₁, queueOf_releaseBytes]
    split
    · next hp =>
      rw [hp]
      exact ⟨rfl, Nat.sub_le _ _, rfl⟩
    · exact ⟨rfl, le_rfl, rfl⟩
  have hready : q₁.ReadyExact := fun p => by
    rw [hq₁, releaseBytes_ready, releaseBytes_parked, ← hq₁, (hqueue p).2.2]
    exact h.ready p
  have hc : q₁.copies = q.copies := by
    have hu (o : String) : q₁.queueOf o = if o = copy.holder.pluginKey then
        q₁.queueOf copy.holder.pluginKey else q.queueOf o := by
      split
      · next ho => rw [ho]
      next ho =>
      rw [hq₁, queueOf_releaseBytes, if_neg ho]
      rfl
    have hmove := copies_of_update hu
    rw [(hqueue _).2.2] at hmove
    exact add_right_cancel hmove
  -- the queue side is settled as if a caller had pulled the copy; the envelope side retires it
  have h₁ : Balanced policy owed (copy ::ₘ out) q₁ s :=
    { h with
      accounted := ha
      ready := hready
      holders := by
        rw [hc, add_cons]
        exact hh
      consumer_le := fun p => by
        rw [(hqueue p).1]
        exact ⟨(h.consumer_le p).1, (hqueue p).2.1.trans (h.consumer_le p).2⟩ }
  rw [← hc] at hh
  simp only [RouterInner.releaseDropped, hf, bind_some, hm.live, hmark, ← hq₁]
  cases last with
  | false =>
    have hr := hm.released hh h.noOrphan
    exact ⟨retired, q₁, s₁, rfl, h₁.released hr, progress_of_released hr⟩
  | true =>
    obtain ⟨s₂, hb, hr⟩ := hm.beginRetirement hh h.noOrphan c
    exact ⟨retired ++ [copy.envelopeId], q₁, s₂, by simp [hb], h₁.released hr,
      progress_of_released hr⟩

theorem releaseAllDropped (c : String × ℕ) (d : List QueuedCopy) (retired : List ℕ)
    (h : Balanced policy d out q s) :
    ∃ retired' q' s', d.foldlM (RouterInner.releaseDropped c) (retired, q, s) =
        some (retired', q', s') ∧ Balanced policy [] out q' s' ∧ Progress out s s' := by
  induction d generalizing retired q s with
  | nil => exact ⟨retired, q, s, rfl, h, Progress.refl out s⟩
  | cons _ _ ih =>
    obtain ⟨retired₁, q₁, s₁, hs, h₁, hp₁⟩ := h.releaseDropped c retired
    obtain ⟨retired', q', s', hr, h', hp'⟩ := ih retired₁ h₁
    exact ⟨retired', q', s', by rw [foldlM_cons, hs]; exact hr, h', hp₁.trans hp' le_rfl⟩

end Balanced

end BotsterHub.Router
