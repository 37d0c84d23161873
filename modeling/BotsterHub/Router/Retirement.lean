import BotsterHub.Router.Holders

/-!
Retirement of envelopes.

The last holder takes its envelope away, at once when its consumer retires it, in two steps when
an unload drops it: the envelope stays charged while its payload is destroyed outside the lock
(`Removed`, `Released`).
-/

namespace BotsterHub.Router

open List Option AList

namespace EnvelopeStore

variable {s s' : EnvelopeStore} {claims rest : Multiset QueuedCopy}

structure Removed (s : EnvelopeStore) (id : ℕ) (s' : EnvelopeStore) : Prop where
  exact : s'.Exact
  lookup_eq : ∀ j, s'.envelopes.lookup j = if j = id then none else s.envelopes.lookup j
  admitted_eq : ∀ j, s'.admitted.lookup j = if j = id then none else s.admitted.lookup j
  next_eq : s'.nextEnvelope = s.nextEnvelope
  global_le : s'.globalInFlightBytes ≤ s.globalInFlightBytes
  producer_le : ∀ owner, (s'.producerOf owner).events ≤ (s.producerOf owner).events ∧
    (s'.producerOf owner).bytes ≤ (s.producerOf owner).bytes

structure LeftCleanup (s : EnvelopeStore) (id : ℕ)
    (retiring : Dict (String × ℕ) (List ℕ)) : Prop where
  mem_iff : ∀ cleanup j, j ∈ (retiring.lookup cleanup).getD [] ↔ j ≠ id ∧ s.Retiring cleanup j
  wf : ∀ cleanup ids, retiring.lookup cleanup = some ids → ids.Nodup ∧ ids ≠ []

variable {envelope : Envelope} {id : ℕ}

theorem LeftCleanup.of_live (h : s.Exact)
    (hl : s.envelopes.lookup id = some envelope) (hr : envelope.retirement = none) :
    LeftCleanup s id s.retiringByCleanup := by
  refine ⟨fun cleanup j => ?_, h.retiring_wf⟩
  rw [← retiringOf, h.retiring_iff]
  refine ⟨fun hj => ⟨?_, hj⟩, fun hj => hj.2⟩
  rintro rfl
  obtain ⟨e, r, he, hre, -⟩ := hj
  rw [hl] at he
  cases he
  rw [hr] at hre
  simp at hre

theorem LeftCleanup.of_retiring (h : s.Exact)
    (hl : s.envelopes.lookup id = some envelope) (hr : envelope.retirement = some retirement)
    (hi : s.retiringByCleanup.lookup retirement.cleanup = some ids) :
    LeftCleanup s id (if (ids.erase id).isEmpty then
      s.retiringByCleanup.erase retirement.cleanup
      else s.retiringByCleanup.insert retirement.cleanup (ids.erase id)) := by
  have hnd := (h.retiring_wf _ _ hi).1
  have hlookup (c : String × ℕ) : (if (ids.erase id).isEmpty then
      s.retiringByCleanup.erase retirement.cleanup
      else s.retiringByCleanup.insert retirement.cleanup (ids.erase id)).lookup c =
      if c = retirement.cleanup then (if (ids.erase id).isEmpty then none else some (ids.erase id))
      else s.retiringByCleanup.lookup c := by
    split
    · rw [lookup_erase_eq]
    · rw [lookup_insert_eq]
  constructor
  · intro c j
    have hretiring : j ∈ s.retiringOf c ↔ s.Retiring c j := h.retiring_iff _ _
    rw [hlookup]
    by_cases hcl : c = retirement.cleanup
    · subst hcl
      have herase : (if (ids.erase id).isEmpty then none else some (ids.erase id)).getD [] =
          ids.erase id := by
        cases ids.erase id <;> rfl
      rw [if_pos rfl, herase, hnd.mem_erase_iff, ← hretiring, retiringOf, hi]
      rfl
    · rw [if_neg hcl, ← retiringOf, hretiring]
      refine ⟨fun hj => ⟨?_, hj⟩, fun hj => hj.2⟩
      rintro rfl
      obtain ⟨e, r, he, hre, rfl⟩ := hj
      rw [hl] at he
      cases he
      rw [hr] at hre
      exact hcl (by rw [some.inj hre])
  · intro c l hlk
    rw [hlookup] at hlk
    split at hlk
    · split at hlk
      · simp at hlk
      next hempty =>
      cases hlk
      exact ⟨hnd.erase id, fun hn => by simp [hn] at hempty⟩
    · exact h.retiring_wf _ _ hlk

theorem leaveCleanup_spec (h : s.Exact)
    (hl : s.envelopes.lookup id = some envelope) (t : EnvelopeStore)
    (ht : t.retiringByCleanup = s.retiringByCleanup) :
    ∃ retiring, t.leaveCleanup id envelope.retirement =
        some { t with retiringByCleanup := retiring } ∧ LeftCleanup s id retiring := by
  cases hr : envelope.retirement with
  | none => exact ⟨s.retiringByCleanup, by rw [← ht]; rfl, LeftCleanup.of_live h hl hr⟩
  | some r =>
    have hm : id ∈ s.retiringOf r.cleanup := (h.retiring_iff _ _).mpr ⟨envelope, r, hl, hr, rfl⟩
    cases hi : s.retiringByCleanup.lookup r.cleanup with
    | none => simp [retiringOf, hi] at hm
    | some ids =>
      have hin : id ∈ ids := by simpa [retiringOf, hi] using hm
      exact ⟨_, by simp only [leaveCleanup, ht, hi, hin, if_true],
        LeftCleanup.of_retiring h hl hr hi⟩

def withoutEnvelope (s : EnvelopeStore) (id : ℕ) (envelope : Envelope)
    (retiring : Dict (String × ℕ) (List ℕ)) : EnvelopeStore :=
  ({ s with
      envelopes := s.envelopes.erase id
      admitted := s.admitted.erase id
      retiringByCleanup := retiring
      globalInFlightBytes := (s.envelopes.erase id).total Envelope.size } :
    EnvelopeStore).releaseProducer envelope.owner envelope.size

theorem retireEnvelopeLocked_eq (h : s.Exact) (hl : s.envelopes.lookup id = some envelope) :
    ∃ r, s.retireEnvelopeLocked id = some (s.withoutEnvelope id envelope r) ∧
      LeftCleanup s id r := by
  set t : EnvelopeStore :=
    { s with envelopes := s.envelopes.erase id, admitted := s.admitted.erase id } with ht
  obtain ⟨r, hs, hleft⟩ := leaveCleanup_spec h hl t rfl
  have hsub : checkedSub s.globalInFlightBytes envelope.size =
      some ((s.envelopes.erase id).total Envelope.size) := by
    rw [checkedSub, h.global_eq, total_erase _ _ hl, if_pos (Nat.le_add_right _ _),
      Nat.add_sub_cancel_left]
  refine ⟨r, ?_, hleft⟩
  simp only [retireEnvelopeLocked, hl, ← ht, hs, bind_eq_bind, bind_some]
  rw [show t.globalInFlightBytes = s.globalInFlightBytes from rfl, hsub]
  rfl

theorem Exact.withoutEnvelope (h : s.Exact) (hl : s.envelopes.lookup id = some envelope)
    (hleft : LeftCleanup s id r) : Removed s id (s.withoutEnvelope id envelope r) := by
  have ht (f : Envelope → ℕ) : s.envelopes.total f = f envelope + (s.envelopes.erase id).total f :=
    total_erase _ f hl
  have henvelopes : (s.withoutEnvelope id envelope r).envelopes = s.envelopes.erase id := by
    rw [EnvelopeStore.withoutEnvelope, releaseProducer_eq]
  have hr : (s.withoutEnvelope id envelope r).retiringByCleanup = r := by
    rw [EnvelopeStore.withoutEnvelope, releaseProducer_eq]
  have hg : (s.withoutEnvelope id envelope r).globalInFlightBytes =
      (s.envelopes.erase id).total Envelope.size := by
    rw [EnvelopeStore.withoutEnvelope, releaseProducer_eq]
  have hn : (s.withoutEnvelope id envelope r).nextEnvelope = s.nextEnvelope := by
    rw [EnvelopeStore.withoutEnvelope, releaseProducer_eq]
  have hlookup (j : ℕ) : (s.withoutEnvelope id envelope r).envelopes.lookup j =
      if j = id then none else s.envelopes.lookup j := by
    rw [henvelopes, lookup_erase_eq]
  have ha (j : ℕ) : (s.withoutEnvelope id envelope r).admitted.lookup j =
      if j = id then none else s.admitted.lookup j := by
    rw [EnvelopeStore.withoutEnvelope, releaseProducer_eq]
    exact lookup_erase_eq ..
  have hp (o : String) : (s.withoutEnvelope id envelope r).producerOf o =
      if o = envelope.owner then ⟨(s.producerOf envelope.owner).events - 1,
        (s.producerOf envelope.owner).bytes - envelope.size⟩ else s.producerOf o := by
    rw [EnvelopeStore.withoutEnvelope, producerOf_releaseProducer]
    rfl
  refine ⟨⟨?_, fun o => ?_, fun o => ?_, fun j e he => ?_, fun j hne => ?_,
    fun cleanup j => ?_, ?_⟩, hlookup, ha, hn, ?_, fun o => ?_⟩
  · rw [hg, henvelopes]
  · have hs := ht fun e => if e.owner = o then 1 else 0
    rw [hp, henvelopes]
    by_cases ho : o = envelope.owner
    · subst ho
      simp only [if_true, h.events_eq] at hs ⊢
      omega
    · rw [if_neg ho, h.events_eq, hs, if_neg (Ne.symm ho), Nat.zero_add]
  · have hs := ht fun e => if e.owner = o then e.size else 0
    rw [hp, henvelopes]
    by_cases ho : o = envelope.owner
    · subst ho
      simp only [if_true, h.bytes_eq] at hs ⊢
      omega
    · rw [if_neg ho, h.bytes_eq, hs, if_neg (Ne.symm ho), Nat.zero_add]
  · rw [hlookup] at he
    rw [hn]
    split at he
    · simp at he
    · exact h.id_eq j e he
  · rw [ha] at hne
    rw [hlookup]
    split at hne
    · exact absurd rfl hne
    next hj =>
    rw [if_neg hj]
    exact h.admitted_mem j hne
  · rw [retiringOf, hr, hleft.mem_iff]
    simp only [Retiring, hlookup]
    by_cases hj : j = id
    · simp [hj]
    · simp [hj]
  · rw [hr]
    exact hleft.wf
  · rw [hg, h.global_eq, ht]
    exact Nat.le_add_left _ _
  · rw [hp]
    split
    · next ho => rw [ho]; exact ⟨Nat.sub_le _ _, Nat.sub_le _ _⟩
    · exact ⟨le_rfl, le_rfl⟩

theorem retireEnvelopeLocked_spec (h : s.Exact) (hl : s.envelopes.lookup id = some envelope) :
    ∃ s', s.retireEnvelopeLocked id = some s' ∧ Removed s id s' := by
  obtain ⟨retiring, hs, hleft⟩ := retireEnvelopeLocked_eq h hl
  exact ⟨_, hs, h.withoutEnvelope hl hleft⟩

theorem Removed.liveEnvelope_eq (h : Removed s id s') (j : ℕ) :
    s'.liveEnvelope j = if j = id then none else s.liveEnvelope j := by
  simp only [liveEnvelope, h.lookup_eq]
  split <;> rfl

/-- The claims `rest` are left: everything is exact, sizes stay, and no charge has grown. -/
structure Released (s : EnvelopeStore) (rest : Multiset QueuedCopy) (s' : EnvelopeStore) :
    Prop where
  exact : s'.Exact
  holders : s'.Holders rest
  noOrphan : s'.NoOrphan
  keepsDone : ∀ id key, s.Done id key → s'.Done id key
  keepsClean : s.RetiredClean → s'.RetiredClean
  size_eq : ∀ copy ∈ rest, s'.size copy.envelopeId = s.size copy.envelopeId
  global_le : s'.globalInFlightBytes ≤ s.globalInFlightBytes
  producer_le : ∀ owner, (s'.producerOf owner).events ≤ (s.producerOf owner).events ∧
    (s'.producerOf owner).bytes ≤ (s.producerOf owner).bytes

theorem Released.refl (he : s.Exact) (hh : s.Holders claims) (ho : s.NoOrphan) :
    Released s claims s :=
  ⟨he, hh, ho, fun _ _ h => h, fun h => h, fun _ _ => rfl, le_rfl, fun _ => ⟨le_rfl, le_rfl⟩⟩

theorem Released.trans (h : Released s claims s')
    (h' : Released s' rest s'') (hs : ∀ copy ∈ rest, copy ∈ claims) : Released s rest s'' where
  exact := h'.exact
  holders := h'.holders
  noOrphan := h'.noOrphan
  keepsDone id key hd := h'.keepsDone id key (h.keepsDone id key hd)
  keepsClean hc := h'.keepsClean (h.keepsClean hc)
  size_eq copy hc := (h'.size_eq copy hc).trans (h.size_eq copy (hs copy hc))
  global_le := h'.global_le.trans h.global_le
  producer_le owner := ⟨(h'.producer_le owner).1.trans (h.producer_le owner).1,
    (h'.producer_le owner).2.trans (h.producer_le owner).2⟩

theorem Released.of_ended (hh : s.Holders claims) (hn : ∀ copy ∈ claims, copy.envelopeId ≠ id)
    (ho : ∀ j envelope, j ≠ id → s.liveEnvelope j = some envelope → 0 < envelope.remainingHolders)
    (he' : s'.Exact) (hlive : ∀ j, s'.liveEnvelope j = if j = id then none else s.liveEnvelope j)
    (ha : ∀ j, j ≠ id → s'.admitted.lookup j = s.admitted.lookup j)
    (hnext : s'.nextEnvelope = s.nextEnvelope) (hclean : s.RetiredClean → s'.RetiredClean)
    (hs : ∀ j, j ≠ id → s'.size j = s.size j)
    (hg : s'.globalInFlightBytes ≤ s.globalInFlightBytes)
    (hp : ∀ o, (s'.producerOf o).events ≤ (s.producerOf o).events ∧
      (s'.producerOf o).bytes ≤ (s.producerOf o).bytes) : Released s claims s' := by
  have hother (j : ℕ) (e : Envelope) (hl : s'.liveEnvelope j = some e) :
      j ≠ id ∧ s.liveEnvelope j = some e := by
    rw [hlive] at hl
    split at hl
    · cases hl
    · next hj => exact ⟨hj, hl⟩
  refine ⟨he', ⟨fun copy hc => ?_, fun copy hc => ?_, hh.nodup,
    fun j e hl => hh.remaining_eq j e (hother j e hl).2⟩,
    fun j e hl => ho j e (hother j e hl).1 (hother j e hl).2,
    fun j key hd => ⟨hnext ▸ hd.1, ?_⟩, hclean, fun copy hc => hs _ (hn copy hc), hg,
    hp⟩
  · rw [hlive, if_neg (hn copy hc)]
    exact hh.live copy hc
  · rw [get₂, ha _ (hn copy hc)]
    exact hh.unretired copy hc
  by_cases hj : j = id
  · exact .inl (by rw [hlive, if_pos hj])
  · rw [hlive, if_neg hj, get₂, ha j hj]
    exact hd.2

theorem Removed.released (h : Removed s id s') (hh : s.Holders claims)
    (hn : ∀ copy ∈ claims, copy.envelopeId ≠ id)
    (ho : ∀ j envelope, j ≠ id → s.liveEnvelope j = some envelope →
      0 < envelope.remainingHolders) : Released s claims s' := by
  refine .of_ended hh hn ho h.exact h.liveEnvelope_eq
    (fun j hj => (h.admitted_eq j).trans (if_neg hj)) h.next_eq (fun hc j e hl hr => ?_)
    (fun j hj => by simp [size, h.lookup_eq, hj]) h.global_le h.producer_le
  rw [h.lookup_eq] at hl
  split at hl
  · cases hl
  · exact hc j e hl hr

variable {copy : QueuedCopy} {last : Bool}

theorem Marked.producerOf_eq (h : Marked s copy envelope last s') (o : String) :
    s'.producerOf o = s.producerOf o := by
  rw [producerOf, producerOf, h.producer_eq]

variable {s₁ : EnvelopeStore}

theorem Marked.then_released
    (hm : Marked s copy envelope last s₁) (h : Released s₁ rest s') : Released s rest s' where
  exact := h.exact
  holders := h.holders
  noOrphan := h.noOrphan
  keepsDone _ _ hd := h.keepsDone _ _ (hm.keepsDone hd)
  keepsClean hc := h.keepsClean (hm.retiredClean hc)
  size_eq c hc := (h.size_eq c hc).trans (hm.size_eq _)
  global_le := hm.global_eq ▸ h.global_le
  producer_le owner := hm.producerOf_eq owner ▸ h.producer_le owner

theorem Marked.held_of_ne
    (hm : Marked s copy envelope last s₁) (ho : s.NoOrphan) (j : ℕ) (e : Envelope)
    (hj : j ≠ copy.envelopeId) (hl : s₁.liveEnvelope j = some e) : 0 < e.remainingHolders := by
  rw [hm.liveEnvelope_eq, if_neg hj] at hl
  exact ho j e hl

theorem Marked.released
    (hm : Marked s copy envelope false s₁) (hh : s.Holders (copy ::ₘ rest)) (ho : s.NoOrphan) :
    Released s rest s₁ :=
  hm.then_released (.refl hm.exact (hm.holders hh) (hm.noOrphan ho))

theorem retireHolderLocked_spec (he : s.Exact) (hh : s.Holders (copy ::ₘ rest)) (ho : s.NoOrphan) :
    ∃ last s', s.retireHolderLocked copy.envelopeId copy.holder.holderKey = some (last, s') ∧
      Released s rest s' ∧ s'.Done copy.envelopeId copy.holder.holderKey := by
  obtain ⟨envelope, last, s₁, hmark, hm⟩ :=
    markHolderRetired_spec he hh (Multiset.mem_cons_self copy rest)
  cases last with
  | false =>
    exact ⟨false, s₁, by simp [retireHolderLocked, hmark], hm.released hh ho, hm.done he⟩
  | true =>
    have hl := (liveEnvelope_eq_some.mp ((hm.liveEnvelope_eq copy.envelopeId).trans (if_pos rfl))).1
    obtain ⟨s₂, hretire, hr⟩ := retireEnvelopeLocked_spec hm.exact hl
    have hrel := hr.released (hm.holders hh) (hm.no_claim hh) (hm.held_of_ne ho)
    exact ⟨true, s₂, by simp [retireHolderLocked, hmark, hretire], hm.then_released hrel,
      hrel.keepsDone _ _ (hm.done he)⟩

theorem retireHolderLocked_of_done
    (h : s.liveEnvelope id = none ∨ s.admitted.get₂ id key = some ⟨true⟩) :
    s.retireHolderLocked id key = some (false, s) := by
  simp [retireHolderLocked, markHolderRetired_of_done h]

def emptied (envelope : Envelope) (cleanup : String × ℕ) : Envelope :=
  { envelope with retirement := some ⟨cleanup, false⟩, payload := [], payloadJson := .null }

theorem beginRetirement_eq (hl : s.envelopes.lookup id = some envelope) (c : String × ℕ) :
    s.beginRetirement id c = some { s with
      retiringByCleanup := s.retiringByCleanup.insert c ((s.retiringOf c).insert id)
      envelopes := s.envelopes.insert id (emptied envelope c) } := by
  simp only [beginRetirement, hl]
  rfl

theorem Exact.beginRetirement (h : s.Exact)
    (hl : s.liveEnvelope id = some envelope) (cleanup : String × ℕ)
    (hs : s.beginRetirement id cleanup = some s') : s'.Exact := by
  obtain ⟨hlookup, hnone⟩ := liveEnvelope_eq_some.mp hl
  rw [beginRetirement_eq hlookup] at hs
  cases hs
  refine h.replaceEnvelope (emptied envelope cleanup) hlookup rfl rfl rfl (fun _ => .inr)
    rfl (fun c j => ?_) fun c ids hc => ?_
  · have hsets : ((s.retiringByCleanup.insert cleanup
        ((s.retiringOf cleanup).insert id)).lookup c).getD [] =
        if c = cleanup then (s.retiringOf cleanup).insert id else s.retiringOf c := by
      rw [lookup_insert_eq]
      split <;> rfl
    rw [retiringOf, hsets]
    simp only [Retiring, lookup_insert_eq]
    by_cases hj : j = id
    · subst hj
      have hn : j ∉ s.retiringOf c := by
        intro hm
        obtain ⟨e, r, he, hr, -⟩ := (h.retiring_iff c j).mp hm
        rw [hlookup] at he
        cases he
        rw [hnone] at hr
        simp at hr
      by_cases hc : c = cleanup
      · subst hc
        simp [emptied]
      · simp [emptied, hc, Ne.symm hc, hn]
    · simp only [hj, if_false]
      refine Iff.trans ?_ (h.retiring_iff c j)
      split
      · next hc =>
        subst hc
        simp [hj]
      · rfl
  · rw [lookup_insert_eq] at hc
    split at hc
    · cases hc
      refine ⟨Nodup.insert ?_, ne_nil_of_mem (mem_insert_self)⟩
      rw [retiringOf]
      cases hcl : s.retiringByCleanup.lookup cleanup with
      | none => simp
      | some => exact (h.retiring_wf _ _ hcl).1
    · exact h.retiring_wf _ _ hc

theorem Marked.beginRetirement
    (hm : Marked s copy envelope true s₁) (hh : s.Holders (copy ::ₘ rest)) (ho : s.NoOrphan)
    (c : String × ℕ) :
    ∃ s₂, s₁.beginRetirement copy.envelopeId c = some s₂ ∧ Released s rest s₂ := by
  have hlive := (hm.liveEnvelope_eq copy.envelopeId).trans (if_pos rfl)
  have hb := beginRetirement_eq (liveEnvelope_eq_some.mp hlive).1 c
  refine ⟨_, hb, hm.then_released (.of_ended (hm.holders hh) (hm.no_claim hh)
    (hm.held_of_ne ho) (hm.exact.beginRetirement hlive c hb) (fun j => ?_)
    (fun _ _ => rfl) rfl (fun hc j e hl hr => ?_) (fun j hj => ?_) le_rfl
    fun _ => ⟨le_rfl, le_rfl⟩)⟩
  · simp only [liveEnvelope, lookup_insert_eq]
    split <;> simp [emptied]
  · simp only [lookup_insert_eq] at hl
    split at hl
    · cases hl
      have hone := hm.last_iff.mp rfl
      exact ⟨by simp [emptied, hone], rfl, rfl⟩
    · exact hc j e hl hr
  · simp [size, hj]

theorem Released.of_live_eq (hh : s.Holders claims) (ho : s.NoOrphan) (he' : s'.Exact)
    (hlive : ∀ j, s'.liveEnvelope j = s.liveEnvelope j)
    (hu : ∀ copy ∈ claims, s'.admitted.get₂ copy.envelopeId copy.holder.holderKey ≠ some ⟨true⟩)
    (hr : ∀ j key, s.admitted.get₂ j key = some ⟨true⟩ → s'.admitted.get₂ j key = some ⟨true⟩)
    (hn : s'.nextEnvelope = s.nextEnvelope) (hclean : s.RetiredClean → s'.RetiredClean)
    (hs : ∀ j, s'.size j = s.size j)
    (hg : s'.globalInFlightBytes = s.globalInFlightBytes)
    (hp : ∀ o, s'.producerOf o = s.producerOf o) : Released s claims s' where
  exact := he'
  keepsDone j key hd := ⟨hn ▸ hd.1, hd.2.imp (fun h => (hlive j).trans h) (hr j key)⟩
  keepsClean := hclean
  holders := ⟨fun copy hc => by rw [hlive]; exact hh.live copy hc, hu, hh.nodup,
    fun j e hl => hh.remaining_eq j e (by rwa [hlive] at hl)⟩
  noOrphan := fun id envelope hl => ho id envelope (by rwa [hlive] at hl)
  size_eq copy _ := hs copy.envelopeId
  global_le := hg.le
  producer_le o := by rw [hp]; exact ⟨le_rfl, le_rfl⟩

theorem destroyPayload_spec (he : s.Exact) (hh : s.Holders claims) (ho : s.NoOrphan) (id : ℕ) :
    Released s claims (s.destroyPayload id) := by
  have same (heq : s.destroyPayload id = s) : Released s claims (s.destroyPayload id) :=
    heq.symm ▸ Released.refl he hh ho
  cases hl : s.envelopes.lookup id with
  | none => exact same (by simp [destroyPayload, hl])
  | some envelope =>
    cases hr : envelope.retirement with
    | none => exact same (by simp [destroyPayload, hl, hr])
    | some retirement =>
      have heq : s.destroyPayload id =
          { s with
            envelopes := s.envelopes.insert id
              { envelope with retirement := some { retirement with destroyed := true } } } := by
        simp [destroyPayload, hl, hr]
      rw [heq]
      refine Released.of_live_eq hh ho (he.updateEnvelope { envelope with
        retirement := some { retirement with destroyed := true } } hl rfl rfl rfl
        (by simp [hr]) (fun j => .inr) rfl) (fun j => ?_) hh.unretired
        (fun _ _ h => h) rfl (fun hc j e hle hre => ?_) (fun j => ?_) rfl fun _ => rfl
      · simp only [liveEnvelope, lookup_insert_eq]
        split
        · next hj =>
          rw [hj, hl]
          simp [Option.filter, hr]
        · rfl
      · rw [lookup_insert_eq] at hle
        split at hle
        · cases hle
          exact hc id envelope hl (by simp [hr])
        · exact hc j e hle hre
      · simp only [size, lookup_insert_eq]
        split
        · next hj =>
          rw [hj, hl]
          rfl
        · rfl

theorem retireDestroyedPayloads_spec (he : s.Exact) (hh : s.Holders claims) (ho : s.NoOrphan)
    (c : String × ℕ) :
    ∃ s', s.retireDestroyedPayloads c = some s' ∧ Released s claims s' := by
  have hloop (ids : List ℕ) (hnd : ids.Nodup) (t : EnvelopeStore) (ht : Released s claims t)
      (hi : ∀ id ∈ ids, ∃ envelope, t.envelopes.lookup id = some envelope ∧
        envelope.retirement ≠ none) :
      ∃ s', ids.foldlM (fun s => s.retireEnvelopeLocked) t = some s' ∧ Released s claims s' := by
    induction ids generalizing t with
    | nil => exact ⟨t, rfl, ht⟩
    | cons id _ ih =>
      obtain ⟨envelope, hl, hret⟩ := hi id mem_cons_self
      obtain ⟨t', hstep, hr⟩ := retireEnvelopeLocked_spec ht.exact hl
      have hnone : ∀ copy ∈ claims, copy.envelopeId ≠ id := by
        rintro copy hc rfl
        obtain ⟨e, he', hlive⟩ := ht.holders.envelope_of_mem hc
        rw [hl] at he'
        cases he'
        exact hret hlive
      have hrel : Released t claims t' := hr.released ht.holders hnone fun j e _ => ht.noOrphan j e
      obtain ⟨hn, hnd'⟩ := nodup_cons.mp hnd
      obtain ⟨s', hs', hrel'⟩ := ih hnd' t' (ht.trans hrel fun _ hc => hc) fun j hj => by
        obtain ⟨e, hle, hre⟩ := hi j (mem_cons_of_mem _ hj)
        have hne : j ≠ id := fun heq => hn (heq ▸ hj)
        exact ⟨e, by rw [hr.lookup_eq, if_neg hne, hle], hre⟩
      exact ⟨s', by rw [foldlM_cons, hstep]; exact hs', hrel'⟩
  unfold retireDestroyedPayloads
  cases hl : s.retiringByCleanup.lookup c with
  | none => exact ⟨s, rfl, Released.refl he hh ho⟩
  | some =>
    refine hloop _ ((he.retiring_wf _ _ hl).1.filter _) s (Released.refl he hh ho) fun id hid => ?_
    have hm : id ∈ s.retiringOf c := by
      rw [retiringOf, hl]
      exact mem_of_mem_filter hid
    obtain ⟨envelope, retirement, hle, hre, -⟩ := (he.retiring_iff c id).mp hm
    exact ⟨envelope, hle, by simp [hre]⟩

theorem noteAdmitted_spec (he : s.Exact) (hh : s.Holders claims) (ho : s.NoOrphan) (id : ℕ)
    (key : String × ℕ) : Released s claims (s.noteAdmitted id key) := by
  have same (heq : s.noteAdmitted id key = s) : Released s claims (s.noteAdmitted id key) :=
    heq.symm ▸ Released.refl he hh ho
  cases hl : s.liveEnvelope id with
  | none => exact same (by simp [noteAdmitted, hl])
  | some =>
    cases hg : s.admitted.get₂ id key with
    | some => exact same (by simp [noteAdmitted, hl, hg])
    | none =>
      obtain ⟨hlookup, -⟩ := liveEnvelope_eq_some.mp hl
      have heq : s.noteAdmitted id key =
          { s with admitted := s.admitted.insert₂ id key ⟨false⟩ } := by
        simp [noteAdmitted, hl, hg]
      rw [heq]
      refine Released.of_live_eq hh ho ⟨he.global_eq, he.events_eq, he.bytes_eq, he.id_eq,
        fun j hne => ?_, he.retiring_iff, he.retiring_wf⟩ (fun _ => rfl) (fun copy hc => ?_)
        (fun j k hr => ?_) rfl (fun hc => hc) (fun _ => rfl) rfl fun _ => rfl
      · simp only [insert₂, lookup_insert_eq] at hne
        split at hne
        · next hj => simp [hj ▸ hlookup]
        · exact he.admitted_mem j hne
      · rw [get₂_insert₂]
        split
        · simp
        · exact hh.unretired copy hc
      · rw [get₂_insert₂, if_neg, hr]
        rintro ⟨rfl, rfl⟩
        rw [hg] at hr
        cases hr

end EnvelopeStore

end BotsterHub.Router
