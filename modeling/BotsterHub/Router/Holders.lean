import BotsterHub.Router.Envelopes

/-!
What the envelope store accounts for.

A *claim* is a copy that still holds its envelope: queued, dropped but not settled, or pulled and
not retired. `Exact` is the accounting of the store itself; `Holders` relates its envelopes to the
multiset of claims.
-/

namespace BotsterHub.Router

open Multiset AList EnvelopeRetirement

namespace EnvelopeStore

variable (s : EnvelopeStore)

def retiringOf (cleanup : String × ℕ) : List ℕ := (s.retiringByCleanup.lookup cleanup).getD []

def Retiring (cleanup : String × ℕ) (id : ℕ) : Prop :=
  ∃ envelope retirement, s.envelopes.lookup id = some envelope ∧
    envelope.retirement = some retirement ∧ retirement.cleanup = cleanup

structure Exact (s : EnvelopeStore) : Prop where
  global_eq : s.globalInFlightBytes = s.envelopes.total Envelope.size
  events_eq : ∀ owner, (s.producerOf owner).events =
    s.envelopes.total fun envelope => if envelope.owner = owner then 1 else 0
  bytes_eq : ∀ owner, (s.producerOf owner).bytes =
    s.envelopes.total fun envelope => if envelope.owner = owner then envelope.size else 0
  id_eq : ∀ id envelope, s.envelopes.lookup id = some envelope →
    envelope.id = id ∧ id < s.nextEnvelope
  admitted_mem : ∀ id, s.admitted.lookup id ≠ none → s.envelopes.lookup id ≠ none
  retiring_iff : ∀ cleanup id, id ∈ s.retiringOf cleanup ↔ s.Retiring cleanup id
  retiring_wf : ∀ cleanup ids, s.retiringByCleanup.lookup cleanup = some ids → ids.Nodup ∧ ids ≠ []

def claimKey (copy : QueuedCopy) : ℕ × String × ℕ := (copy.envelopeId, copy.holder.holderKey)

structure Holders (s : EnvelopeStore) (claims : Multiset QueuedCopy) : Prop where
  live : ∀ copy ∈ claims, ∃ envelope, s.liveEnvelope copy.envelopeId = some envelope ∧
    envelope.owner = copy.holder.owner
  unretired : ∀ copy ∈ claims, s.admitted.get₂ copy.envelopeId copy.holder.holderKey ≠ some ⟨true⟩
  nodup : (claims.map claimKey).Nodup
  remaining_eq : ∀ id envelope, s.liveEnvelope id = some envelope →
    envelope.remainingHolders = (claims.filter fun copy => copy.envelopeId = id).card

def NoOrphan : Prop :=
  ∀ id envelope, s.liveEnvelope id = some envelope → 0 < envelope.remainingHolders

def Done (id : ℕ) (key : String × ℕ) : Prop :=
  id < s.nextEnvelope ∧ (s.liveEnvelope id = none ∨ s.admitted.get₂ id key = some ⟨true⟩)

def RetiredClean : Prop :=
  ∀ id envelope, s.envelopes.lookup id = some envelope → envelope.retirement ≠ none →
    envelope.remainingHolders = 0 ∧ envelope.payload = [] ∧ envelope.payloadJson = .null

theorem exact_empty : empty.Exact where
  global_eq := rfl
  events_eq owner := by
    simp only [producerOf, empty, lookup_insert_eq]
    split <;> rfl
  bytes_eq owner := by
    simp only [producerOf, empty, lookup_insert_eq]
    split <;> rfl
  id_eq id envelope h := by simp [empty] at h
  admitted_mem id h := absurd rfl h
  retiring_iff cleanup id := by simp [empty, retiringOf, Retiring]
  retiring_wf cleanup ids h := by simp [empty] at h

theorem holders_empty : empty.Holders 0 where
  live copy h := by simp at h
  unretired copy h := by simp at h
  nodup := by simp
  remaining_eq id envelope h := by simp [liveEnvelope, empty] at h

theorem noOrphan_empty : empty.NoOrphan := fun id envelope h => by simp [liveEnvelope, empty] at h

variable {s s' : EnvelopeStore} {claims rest : Multiset QueuedCopy}

theorem Exact.lookup_next (h : s.Exact) : s.envelopes.lookup s.nextEnvelope = none := by
  cases hl : s.envelopes.lookup s.nextEnvelope with
  | none => rfl
  | some => exact absurd (h.id_eq _ _ hl).2 (Nat.lt_irrefl _)

variable {copy : QueuedCopy}

theorem Holders.envelope_of_mem (h : s.Holders claims) (hc : copy ∈ claims) :
    ∃ envelope, s.envelopes.lookup copy.envelopeId = some envelope ∧
      envelope.retirement = none := by
  obtain ⟨envelope, hl, -⟩ := h.live copy hc
  exact ⟨envelope, liveEnvelope_eq_some.mp hl⟩

theorem Exact.ensureProducer (h : s.Exact) (o : String) : (s.ensureProducer o).Exact := by
  have hp := producerOf_ensureProducer s o
  rw [ensureProducer_eq] at hp ⊢
  exact { h with
    events_eq := fun other => by rw [hp, h.events_eq]
    bytes_eq := fun other => by rw [hp, h.bytes_eq] }

theorem Holders.congr (h : s.Holders claims) (hlive : ∀ id, s'.liveEnvelope id = s.liveEnvelope id)
    (ha : ∀ id key, s'.admitted.get₂ id key = s.admitted.get₂ id key) :
    s'.Holders claims where
  live copy hc := by rw [hlive]; exact h.live copy hc
  unretired copy hc := by rw [ha]; exact h.unretired copy hc
  nodup := h.nodup
  remaining_eq id envelope hl := h.remaining_eq id envelope (by rwa [hlive] at hl)

theorem Exact.insertEnvelope (h : s.Exact) (envelope : Envelope)
    (hid : envelope.id = s.nextEnvelope) (hlive : envelope.retirement = none) :
    (s.insertEnvelope envelope).Exact := by
  have hn : s.envelopes.lookup envelope.id = none := hid ▸ h.lookup_next
  have hl (id : ℕ) : (s.insertEnvelope envelope).envelopes.lookup id =
      if id = envelope.id then some envelope else s.envelopes.lookup id :=
    lookup_insert_eq ..
  have hp (o : String) : (s.insertEnvelope envelope).producerOf o =
      if o = envelope.owner then ⟨(s.producerOf envelope.owner).events + 1,
        (s.producerOf envelope.owner).bytes + envelope.size⟩ else s.producerOf o := by
    simp only [producerOf, EnvelopeStore.insertEnvelope, lookup_insert_eq]
    split <;> rfl
  have ht (f : Envelope → ℕ) : (s.insertEnvelope envelope).envelopes.total f =
      f envelope + s.envelopes.total f :=
    total_insert_of_none _ _ _ hn
  constructor
  · rw [ht, ← h.global_eq, Nat.add_comm]
    rfl
  · intro o
    rw [ht, hp]
    by_cases ho : o = envelope.owner
    · subst ho
      simp only [if_true, h.events_eq]
      omega
    · simp [ho, Ne.symm ho, h.events_eq]
  · intro o
    rw [ht, hp]
    by_cases ho : o = envelope.owner
    · subst ho
      simp only [if_true, h.bytes_eq]
      omega
    · simp [ho, Ne.symm ho, h.bytes_eq]
  · intro id e he
    rw [hl] at he
    change e.id = id ∧ id < envelope.id + 1
    split at he
    · next hi =>
      cases he
      exact ⟨hi.symm, by omega⟩
    · have hold := h.id_eq id e he
      exact ⟨hold.1, by omega⟩
  · intro id hne
    rw [hl]
    split
    · simp
    · exact h.admitted_mem id hne
  · intro c id
    rw [show (s.insertEnvelope envelope).retiringOf c = s.retiringOf c from rfl, h.retiring_iff]
    simp only [Retiring, hl]
    by_cases hi : id = envelope.id
    · subst hi
      simp [hn, hlive]
    · simp [hi]
  · exact h.retiring_wf

theorem Holders.insertEnvelope (h : s.Holders claims) (he : s.Exact) (envelope : Envelope)
    (hid : envelope.id = s.nextEnvelope) (hlive : envelope.retirement = none)
    (added : List QueuedCopy) (hadded : ∀ copy ∈ added, copy.envelopeId = envelope.id ∧
      copy.holder.owner = envelope.owner)
    (hk : (added.map fun copy => copy.holder.holderKey).Nodup)
    (hcount : envelope.remainingHolders = added.length) :
    (s.insertEnvelope envelope).Holders ((added : Multiset QueuedCopy) + claims) := by
  have hn : s.envelopes.lookup envelope.id = none := hid ▸ he.lookup_next
  have hlookup (id : ℕ) : (s.insertEnvelope envelope).liveEnvelope id =
      if id = envelope.id then some envelope else s.liveEnvelope id := by
    simp only [liveEnvelope, EnvelopeStore.insertEnvelope, lookup_insert_eq]
    split <;> simp [hlive]
  -- claims are live, so none of them names the fresh envelope
  have hf : ∀ copy ∈ claims, copy.envelopeId ≠ envelope.id := by
    intro copy hc heq
    obtain ⟨e, hl, -⟩ := h.envelope_of_mem hc
    rw [heq, hn] at hl
    simp at hl
  constructor
  · intro copy hc
    rw [hlookup]
    rcases mem_add.mp hc with hc | hc
    · have hcopy := hadded copy hc
      exact ⟨envelope, by simp [hcopy.1], hcopy.2.symm⟩
    · rw [if_neg (hf copy hc)]
      exact h.live copy hc
  · intro copy hc
    rcases mem_add.mp hc with hc | hc
    · have hadmitted : s.admitted.lookup copy.envelopeId = none := by
        rw [(hadded copy hc).1, hid]
        by_contra hne
        exact he.admitted_mem _ hne he.lookup_next
      change s.admitted.get₂ _ _ ≠ _
      simp [get₂, hadmitted]
    · exact h.unretired copy hc
  · rw [map_add, nodup_add]
    refine ⟨?_, h.nodup, ?_⟩
    · rw [map_coe, coe_nodup]
      have hm : added.map claimKey =
          (added.map fun copy => copy.holder.holderKey).map (Prod.mk envelope.id) := by
        rw [List.map_map]
        exact List.map_congr_left fun copy hc => by simp [claimKey, (hadded copy hc).1]
      rw [hm]
      exact hk.map (Prod.mk_right_injective _)
    · rw [disjoint_left]
      intro key hleft hr
      obtain ⟨a, ha, rfl⟩ := mem_map.mp hleft
      obtain ⟨c, hc, hkey⟩ := mem_map.mp hr
      exact hf c hc ((congrArg Prod.fst hkey).trans (hadded a ha).1)
  · intro id e hl
    rw [hlookup] at hl
    rw [filter_add, card_add]
    split at hl
    · next hi =>
      cases hl
      have hall : (added : Multiset QueuedCopy).filter (fun copy => copy.envelopeId = id) =
          added := filter_eq_self.mpr fun copy hc => by
        rw [hi]
        exact (hadded copy hc).1
      have hz : claims.filter (fun copy => copy.envelopeId = id) = 0 :=
        filter_eq_nil.mpr fun copy hc => by
          rw [hi]
          exact hf copy hc
      rw [hall, hz, hcount]
      simp
    · next hi =>
      have hz : (added : Multiset QueuedCopy).filter (fun copy => copy.envelopeId = id) = 0 :=
        filter_eq_nil.mpr fun copy hc => by
          rw [(hadded copy hc).1]
          exact fun heq => hi heq.symm
      rw [hz, h.remaining_eq id e hl]
      simp

theorem NoOrphan.insertEnvelope (h : s.NoOrphan) (envelope : Envelope)
    (hp : 0 < envelope.remainingHolders) : (s.insertEnvelope envelope).NoOrphan := by
  intro id e hl
  obtain ⟨hlookup, hr⟩ := liveEnvelope_eq_some.mp hl
  rw [EnvelopeStore.insertEnvelope, lookup_insert_eq] at hlookup
  split at hlookup
  · cases hlookup
    exact hp
  · exact h id e (liveEnvelope_eq_some.mpr ⟨hlookup, hr⟩)

variable {envelope : Envelope}

theorem Exact.replaceEnvelope (h : s.Exact) {id : ℕ} (envelope' : Envelope)
    (hl : s.envelopes.lookup id = some envelope) (hid : envelope'.id = envelope.id)
    (ho : envelope'.owner = envelope.owner) (hsize : envelope'.size = envelope.size)
    (ha : ∀ j, s'.admitted.lookup j ≠ none → j = id ∨ s.admitted.lookup j ≠ none)
    (hs : s' = { s with
      envelopes := s.envelopes.insert id envelope'
      admitted := s'.admitted
      retiringByCleanup := s'.retiringByCleanup })
    (hi : ∀ c j, j ∈ s'.retiringOf c ↔ s'.Retiring c j)
    (hwf : ∀ c ids, s'.retiringByCleanup.lookup c = some ids →
      ids.Nodup ∧ ids ≠ []) : s'.Exact := by
  have hlookup (j : ℕ) : s'.envelopes.lookup j =
      if j = id then some envelope' else s.envelopes.lookup j := by
    rw [hs]
    exact lookup_insert_eq ..
  have ht (f : Envelope → ℕ) (hf : f envelope' = f envelope) :
      s'.envelopes.total f = s.envelopes.total f := by
    have hm := total_insert_of_some s.envelopes f envelope' hl
    rw [hf] at hm
    rw [hs]
    exact Nat.add_right_cancel hm
  have hp (o : String) : s'.producerOf o = s.producerOf o := by
    rw [hs]
    rfl
  constructor
  · rw [ht _ hsize, ← h.global_eq, hs]
  · intro o
    rw [hp, h.events_eq, ht _ (by rw [ho])]
  · intro o
    rw [hp, h.bytes_eq, ht _ (by rw [ho, hsize])]
  · intro j e he
    have hn : s'.nextEnvelope = s.nextEnvelope := by rw [hs]
    rw [hlookup] at he
    rw [hn]
    split at he
    · next hj =>
      cases he
      rw [hid, hj]
      exact h.id_eq id envelope hl
    · exact h.id_eq j e he
  · intro j hne
    rw [hlookup]
    split
    · simp
    · next hj => exact h.admitted_mem j ((ha j hne).resolve_left hj)
  · exact hi
  · exact hwf

theorem Exact.updateEnvelope (h : s.Exact) {id : ℕ} (envelope' : Envelope)
    (hl : s.envelopes.lookup id = some envelope) (hid : envelope'.id = envelope.id)
    (ho : envelope'.owner = envelope.owner) (hsize : envelope'.size = envelope.size)
    (hret : envelope'.retirement.map cleanup = envelope.retirement.map cleanup)
    (ha : ∀ j, s'.admitted.lookup j ≠ none → j = id ∨ s.admitted.lookup j ≠ none)
    (hs : s' = { s with envelopes := s.envelopes.insert id envelope', admitted := s'.admitted }) :
    s'.Exact := by
  refine h.replaceEnvelope envelope' hl hid ho hsize ha (by rw [hs]) (fun cleanup j => ?_)
    (by rw [hs]; exact h.retiring_wf)
  have hof : s'.retiringOf cleanup = s.retiringOf cleanup := by rw [hs]; rfl
  rw [hof, h.retiring_iff, hs]
  simp only [Retiring, lookup_insert_eq]
  by_cases hj : j = id
  · subst hj
    simp only [hl, if_true, Option.some.injEq, exists_and_left, exists_eq_left']
    cases hr : envelope.retirement with
    | none =>
      have hr' : envelope'.retirement = none := by simpa [hr] using hret
      simp [hr']
    | some retirement =>
      obtain ⟨retirement', hr', hc⟩ : ∃ r', envelope'.retirement = some r' ∧
          r'.cleanup = retirement.cleanup := by simpa [hr] using hret
      simp [hr', hc]
  · simp [hj]

structure Marked (s : EnvelopeStore) (copy : QueuedCopy) (envelope : Envelope) (last : Bool)
    (s' : EnvelopeStore) : Prop where
  live : s.liveEnvelope copy.envelopeId = some envelope
  envelopes_eq : s'.envelopes = s.envelopes.insert copy.envelopeId
    { envelope with remainingHolders := envelope.remainingHolders - 1 }
  admitted_eq : s'.admitted = s.admitted.insert₂ copy.envelopeId copy.holder.holderKey ⟨true⟩
  last_iff : last = true ↔ envelope.remainingHolders = 1
  exact : s'.Exact
  producer_eq : s'.producer = s.producer
  global_eq : s'.globalInFlightBytes = s.globalInFlightBytes
  next_eq : s'.nextEnvelope = s.nextEnvelope

theorem Holders.remaining_pos (h : s.Holders claims) (hc : copy ∈ claims)
    (hl : s.liveEnvelope copy.envelopeId = some envelope) :
    0 < envelope.remainingHolders := by
  rw [h.remaining_eq _ _ hl, card_pos_iff_exists_mem]
  exact ⟨copy, mem_filter.mpr ⟨hc, rfl⟩⟩

theorem markHolderRetired_spec (he : s.Exact) (h : s.Holders claims) (hc : copy ∈ claims) :
    ∃ envelope last s', s.markHolderRetired copy.envelopeId copy.holder.holderKey = (last, s') ∧
      Marked s copy envelope last s' := by
  obtain ⟨envelope, hl, -⟩ := h.live copy hc
  obtain ⟨hlookup, hr⟩ := liveEnvelope_eq_some.mp hl
  have hp := h.remaining_pos hc hl
  refine ⟨envelope, decide (envelope.remainingHolders - 1 = 0),
    { s with
      envelopes := s.envelopes.insert copy.envelopeId
        { envelope with remainingHolders := envelope.remainingHolders - 1 }
      admitted := s.admitted.insert₂ copy.envelopeId copy.holder.holderKey ⟨true⟩ },
    by simp only [markHolderRetired, hl, h.unretired copy hc, hlookup, Option.isNone_some,
      Bool.false_eq_true, if_false], ⟨hl, rfl, rfl, ?_, ?_, rfl, rfl, rfl⟩⟩
  · rw [decide_eq_true_iff]
    omega
  refine he.updateEnvelope
    { envelope with remainingHolders := envelope.remainingHolders - 1 } hlookup rfl rfl rfl rfl
    (fun j hne => ?_) rfl
  simp only [insert₂, lookup_insert_eq] at hne
  split at hne
  · next hj => exact .inl hj
  · exact .inr hne

variable {last : Bool}

theorem Marked.liveEnvelope_eq (h : Marked s copy envelope last s') (id : ℕ) :
    s'.liveEnvelope id = if id = copy.envelopeId then
      some { envelope with remainingHolders := envelope.remainingHolders - 1 }
      else s.liveEnvelope id := by
  obtain ⟨-, hr⟩ := liveEnvelope_eq_some.mp h.live
  simp only [liveEnvelope, h.envelopes_eq, lookup_insert_eq]
  split
  · simp [hr]
  · rfl

theorem card_filter_cons_self (copy : QueuedCopy) (rest : Multiset QueuedCopy) :
    ((copy ::ₘ rest).filter fun c => c.envelopeId = copy.envelopeId).card =
      (rest.filter fun c => c.envelopeId = copy.envelopeId).card + 1 := by
  simp

section

variable (h : Marked s copy envelope last s')
include h

theorem Marked.holders (hh : s.Holders (copy ::ₘ rest)) : s'.Holders rest := by
  have hnd := hh.nodup
  rw [map_cons, nodup_cons] at hnd
  constructor
  · intro c hc
    obtain ⟨e, hl, ho⟩ := hh.live c (mem_cons_of_mem hc)
    rw [h.liveEnvelope_eq]
    split
    · next hi =>
      rw [hi, h.live] at hl
      cases hl
      exact ⟨_, rfl, ho⟩
    · exact ⟨e, hl, ho⟩
  · intro c hc
    rw [h.admitted_eq, get₂_insert₂]
    split
    · next hk =>
      -- a second claim with the same key would repeat the marked one
      refine absurd (mem_map.mpr ⟨c, hc, ?_⟩) hnd.1
      simp [claimKey, hk.1, hk.2]
    · exact hh.unretired c (mem_cons_of_mem hc)
  · exact hnd.2
  · intro id e hl
    rw [h.liveEnvelope_eq] at hl
    split at hl
    · next hi =>
      cases hl
      have hcount := hh.remaining_eq _ _ h.live
      rw [card_filter_cons_self] at hcount
      simp only [hcount, hi, Nat.add_sub_cancel]
    · next hi =>
      have hcount := hh.remaining_eq _ _ hl
      rwa [filter_cons_of_neg _ fun heq => hi heq.symm] at hcount

theorem Marked.size_eq (id : ℕ) : s'.size id = s.size id := by
  obtain ⟨hl, -⟩ := liveEnvelope_eq_some.mp h.live
  simp only [size, h.envelopes_eq, lookup_insert_eq]
  split
  · next hi =>
    rw [hi, hl]
    rfl
  · rfl

theorem Marked.keepsDone {id : ℕ} {key : String × ℕ} (hd : s.Done id key) : s'.Done id key := by
  refine ⟨h.next_eq ▸ hd.1, hd.2.imp (fun hn => ?_) fun hr => ?_⟩
  · rw [h.liveEnvelope_eq, if_neg, hn]
    rintro rfl
    rw [h.live] at hn
    cases hn
  · rw [h.admitted_eq, get₂_insert₂]
    split
    · rfl
    · exact hr

theorem Marked.done (he : s.Exact) : s'.Done copy.envelopeId copy.holder.holderKey := by
  have hl := (liveEnvelope_eq_some.mp h.live).1
  refine ⟨h.next_eq ▸ (he.id_eq _ _ hl).2, .inr ?_⟩
  rw [h.admitted_eq, get₂_insert₂, if_pos ⟨rfl, rfl⟩]

theorem Marked.retiredClean (hc : s.RetiredClean) : s'.RetiredClean := by
  intro id e hl hr
  rw [h.envelopes_eq, lookup_insert_eq] at hl
  split at hl
  · cases hl
    exact absurd (liveEnvelope_eq_some.mp h.live).2 hr
  · exact hc id e hl hr

end

theorem Marked.noOrphan (h : Marked s copy envelope false s') (hs : s.NoOrphan) : s'.NoOrphan := by
  intro id e hl
  have hne : envelope.remainingHolders ≠ 1 := fun ho => by simpa using h.last_iff.mpr ho
  rw [h.liveEnvelope_eq] at hl
  split at hl
  · cases hl
    have hp := hs _ _ h.live
    simp only
    omega
  · exact hs id e hl

theorem Marked.no_claim (h : Marked s copy envelope true s') (hh : s.Holders (copy ::ₘ rest)) :
    ∀ c ∈ rest, c.envelopeId ≠ copy.envelopeId := by
  intro c hc heq
  have hcount := hh.remaining_eq _ _ h.live
  rw [h.last_iff.mp rfl, card_filter_cons_self] at hcount
  have hp : 0 < (rest.filter fun c => c.envelopeId = copy.envelopeId).card :=
    card_pos_iff_exists_mem.mpr ⟨c, mem_filter.mpr ⟨hc, heq⟩⟩
  omega

theorem markHolderRetired_of_done {id : ℕ} {key : String × ℕ}
    (h : s.liveEnvelope id = none ∨ s.admitted.get₂ id key = some ⟨true⟩) :
    s.markHolderRetired id key = (false, s) := by
  unfold markHolderRetired
  rcases h with h | h
  · simp [h]
  · simp [h]

end EnvelopeStore

end BotsterHub.Router
