import BotsterHub.Owner.CoreTickets

/-!
What holds of the tickets of Core operations under every interleaving.
-/

namespace BotsterHub.Owner

open List Option AList Finset CompletionWake Tickets Channel

open CompletionWake

variable {α : Type*}

def Channel.Answered (channel : Channel α) : Prop :=
  channel.slot.isSome ∨ channel.publisher.holdsSender = false ∨ channel.ticket = false

namespace Tickets

/-- A result in the channel is that of its phase and was sent; between sending and publishing it was
read, is not asked for any more, or is still there. -/
structure ChannelSound (s : Tickets α) (identity : Identity) (channel : Channel α) : Prop where
  key : ∀ sender value, channel.slot = some (sender, value) → sender = identity
  slot : channel.slot.isSome → channel.publisher ≠ .live
  sent : channel.publisher = .sent → channel.Answered ∨ identity ∈ s.delivered
  delivered : identity ∈ s.delivered → channel.slot = none ∧ channel.publisher ≠ .live
  operation : channel.operation < s.operations
  numbered : identity.phase ≤ s.wake.lastPhase identity.waiterId ∨ identity.waiterId ∈ s.gone

def Settled (s : Tickets α) (identity : Identity) : Prop :=
  ∃ channel, s.channels.lookup identity = some channel ∧ channel.publisher ≠ .live ∧
    (channel.Answered ∨ identity ∈ s.delivered)

structure Sound (s : Tickets α) : Prop where
  channels : ∀ identity channel, s.channels.lookup identity = some channel →
    ChannelSound s identity channel
  known : ∀ identity ∈ s.outstanding ∪ s.collected ∪ s.retired, (s.channels.lookup identity).isSome
  known_delivered : ∀ identity ∈ s.delivered, (s.channels.lookup identity).isSome
  ready : s.wake.ready ⊆ s.wake.registered
  capacity : s.outstanding.card ≤ coreOwnerCompletionCapacity
  together : ∀ i ∈ s.outstanding, ∀ j ∈ s.outstanding, i.waiterId = j.waiterId →
    s.operationOf i = s.operationOf j
  present : ∀ identity ∈ s.outstanding, identity.waiterId ∉ s.gone
  apart : ∀ identity ∈ s.outstanding, identity ∉ s.collected ∧ identity ∉ s.retired
  settled : ∀ identity ∈ s.wake.ready ∪ s.held ∪ s.collected, s.Settled identity
  once : s.delivered.Nodup
  batch : (s.batch.getD []).Nodup ∧ Disjoint s.wake.registered s.held
  pending : s.wake.ready.Nonempty → s.wake.pending ∨ s.taking

theorem sound_new : Sound (new : Tickets α) := by
  constructor <;> simp [new, CompletionWake.new, outstanding, held]

/-- The channels stay; nothing new is registered, only settled phases are collected, and none is
numbered again. -/
structure Narrows (s s' : Tickets α) : Prop where
  channels : s'.channels = s.channels
  operations : s'.operations = s.operations
  delivered : s'.delivered = s.delivered
  gone : s.gone ⊆ s'.gone
  numbered : ∀ waiterId, s'.wake.lastPhase waiterId = s.wake.lastPhase waiterId ∨ waiterId ∈ s'.gone
  outstanding : s'.outstanding ⊆ s.outstanding
  ready : s'.wake.ready ⊆ s'.wake.registered
  present : ∀ identity ∈ s'.outstanding, identity.waiterId ∉ s'.gone
  ended : ∀ identity ∈ s'.collected ∪ s'.retired,
    identity ∈ s.collected ∪ s.retired ∨ (s.channels.lookup identity).isSome
  apart : ∀ identity ∈ s'.outstanding, identity ∉ s'.collected ∧ identity ∉ s'.retired
  settled : ∀ identity ∈ s'.wake.ready ∪ s'.held ∪ s'.collected, s.Settled identity
  batch : (s'.batch.getD []).Nodup ∧ Disjoint s'.wake.registered s'.held
  pending : s'.wake.ready.Nonempty → s'.wake.pending ∨ s'.taking

theorem Sound.narrow {s s' : Tickets α} (h : Sound s) (hn : Narrows s s') : Sound s' where
  channels := by
    intro identity c hl
    rw [hn.channels] at hl
    obtain ⟨hk, hslot, hsent, hd, ho, hnumbered⟩ := h.channels identity c hl
    refine ⟨hk, hslot, ?_, ?_, ?_, ?_⟩
    · rwa [hn.delivered]
    · rwa [hn.delivered]
    · rwa [hn.operations]
    rcases hnumbered with hp | hg
    · rcases hn.numbered identity.waiterId with heq | hg
      · rw [heq]
        exact .inl hp
      · exact Or.inr hg
    · exact Or.inr (hn.gone hg)
  known := by
    intro identity hm
    rw [hn.channels]
    rw [Finset.union_assoc, Finset.mem_union] at hm
    rcases hm with hout | hover
    · exact h.known identity (by
        rw [Finset.union_assoc]
        exact Finset.mem_union_left _ (hn.outstanding hout))
    rcases hn.ended identity hover with hold | hsome
    · exact h.known identity (by
        rw [Finset.union_assoc]
        exact mem_union_right _ hold)
    · exact hsome
  known_delivered := by
    rw [hn.delivered, hn.channels]
    exact h.known_delivered
  ready := hn.ready
  capacity := (card_le_card hn.outstanding).trans h.capacity
  together := by
    intro i hi j hj hw
    unfold operationOf
    rw [hn.channels]
    exact h.together i (hn.outstanding hi) j (hn.outstanding hj) hw
  present := hn.present
  apart := hn.apart
  settled := by
    intro identity hm
    have hs := hn.settled identity hm
    unfold Settled at hs ⊢
    rwa [hn.channels, hn.delivered]
  once := by
    rw [hn.delivered]
    exact h.once
  batch := hn.batch
  pending := hn.pending

variable {s : Tickets α} {identity : Identity}

theorem Settled.known (h : s.Settled identity) : (s.channels.lookup identity).isSome := by
  obtain ⟨channel, hl, -⟩ := h
  rw [hl]
  rfl

theorem Sound.settled_ready (h : Sound s) (hr : identity ∈ s.wake.ready) : s.Settled identity :=
  h.settled identity (by simp [hr])

theorem Sound.settled_held (h : Sound s) (hh : identity ∈ s.held) : s.Settled identity :=
  h.settled identity (by simp [hh])

theorem Sound.settled_collected (h : Sound s) (hc : identity ∈ s.collected) : s.Settled identity :=
  h.settled identity (mem_union_right _ hc)

theorem settled_union {r held c : Finset Identity} (hr : ∀ identity ∈ r, s.Settled identity)
    (hh : ∀ identity ∈ held, s.Settled identity)
    (hc : ∀ identity ∈ c, s.Settled identity) :
    ∀ identity ∈ r ∪ held ∪ c, s.Settled identity :=
  forall_mem_union.mpr ⟨forall_mem_union.mpr ⟨hr, hh⟩, hc⟩

theorem Sound.narrows (h : Sound s) : Narrows s s where
  channels := rfl
  operations := rfl
  delivered := rfl
  gone := Subset.refl _
  numbered := fun _ => .inl rfl
  outstanding := Subset.refl _
  ready := h.ready
  present := h.present
  ended := fun _ => .inl
  apart := h.apart
  settled := h.settled
  batch := h.batch
  pending := h.pending

theorem Sound.drop (h : Sound s) {collected retired : Finset Identity} (hh : identity ∉ s.held)
    (hk : (s.channels.lookup identity).isSome)
    (hcollected : ∀ other ∈ collected, other ∈ s.collected ∨ other = identity ∧ s.Settled identity)
    (hretired : ∀ other ∈ retired, other ∈ s.retired ∨ other = identity) :
    Sound { s with wake := s.wake.drop identity, collected := collected, retired := retired } := by
  have hs : ∀ other ∈ (s.wake.drop identity).registered ∪ s.held,
      other ≠ identity ∧ other ∈ s.outstanding := by
    intro other hm
    rcases mem_union.mp hm with hreg | ho
    · obtain ⟨hne, hreg⟩ := mem_erase.mp hreg
      exact ⟨hne, mem_union_left _ hreg⟩
    · exact ⟨fun heq => hh (heq ▸ ho), mem_union_right _ ho⟩
  refine h.narrow
    { h.narrows with
      outstanding := fun other hm => (hs other hm).2
      ready := erase_subset_erase _ h.ready
      present := fun other hm => h.present other (hs other hm).2
      ended := ?_
      apart := ?_
      settled := settled_union (fun _ hready => h.settled_ready (mem_of_mem_erase hready))
        (fun _ => h.settled_held) ?_
      batch := ⟨h.batch.1, h.batch.2.mono_left (erase_subset _ _)⟩
      pending := fun hne => h.pending (hne.mono (erase_subset _ _)) }
  · intro other hm
    rcases mem_union.mp hm with hc | hr
    · rcases hcollected other hc with hold | ⟨rfl, -⟩
      · exact .inl (mem_union_left _ hold)
      · exact .inr hk
    rcases hretired other hr with hold | rfl
    · exact .inl (mem_union_right _ hold)
    · exact .inr hk
  · intro other hm
    obtain ⟨hne, hout⟩ := hs other hm
    obtain ⟨hc, hr⟩ := h.apart other hout
    constructor
    · intro hin
      rcases hcollected other hin with hold | ⟨heq, -⟩
      · exact hc hold
      · exact hne heq
    · intro hin
      rcases hretired other hin with hold | heq
      · exact hr hold
      · exact hne heq
  · intro other hc
    rcases hcollected other hc with hold | ⟨rfl, hsettled⟩
    · exact h.settled_collected hold
    · exact hsettled

theorem held_of_none (h : s.batch = none) : s.held = ∅ := by simp [held, h]

section

variable (h : Sound s)
include h

theorem Sound.collect (hb : s.batch = none) (hr : identity ∈ s.wake.ready) :
    Sound { s with wake := s.wake.drop identity, collected := insert identity s.collected } := by
  have hs := h.settled_ready hr
  refine h.drop (by simp [held_of_none hb]) hs.known ?_ (fun _ => .inl)
  intro other hm
  rcases mem_insert.mp hm with rfl | hold
  · exact .inr ⟨rfl, hs⟩
  · exact .inl hold

theorem Sound.retire (hh : identity ∉ s.held) (hk : (s.channels.lookup identity).isSome) :
    Sound { s with wake := s.wake.drop identity, retired := insert identity s.retired } := by
  refine h.drop hh hk (fun _ => .inl) ?_
  intro other hm
  exact (mem_insert.mp hm).symm

theorem Sound.failBegin (identity : Identity) : Sound (s.failBegin identity) := by
  unfold Tickets.failBegin
  split
  · exact h
  next hl =>
  split
  · next hlive =>
    -- a publisher that has sent nothing has published nothing
    refine h.retire (fun hh => ?_) (by rw [hl]; rfl)
    obtain ⟨other, ho, hp, -⟩ := h.settled_held hh
    rw [hl] at ho
    cases ho
    exact hp hlive
  · exact h

theorem Sound.retireWaiter (hb : s.batch = none)
    (w : ℕ) : Sound (s.ownerStep (.retireWaiter w)) := by
  have hh := held_of_none hb
  have hout : ∀ identity ∈ (s.ownerStep (.retireWaiter w)).outstanding,
      identity ∈ s.wake.registered ∧ identity.waiterId ≠ w := by
    intro identity hm
    rcases mem_union.mp hm with hreg | ho
    · exact mem_filter.mp hreg
    · change identity ∈ s.held at ho
      simp [hh] at ho
  refine h.narrow
    { h.narrows with
      gone := subset_insert _ _
      numbered := ?_
      outstanding := fun identity hm => mem_union_left _ (hout identity hm).1
      ready := ?_
      present := ?_
      ended := ?_
      apart := ?_
      settled := settled_union (fun _ hready => h.settled_ready (mem_filter.mp hready).1)
        (fun _ => h.settled_held) (fun _ => h.settled_collected)
      batch := ⟨h.batch.1, h.batch.2.mono_left (filter_subset _ _)⟩
      pending := fun hne => h.pending (hne.mono (filter_subset _ _)) }
  · intro o
    by_cases heq : o = w
    · exact .inr (mem_insert.mpr (.inl heq))
    left
    show ((s.wake.nextPhase.erase w).lookup o).getD 0 = _
    rw [lookup_erase_ne heq]
    rfl
  · intro identity hm
    obtain ⟨hready, hk⟩ := mem_filter.mp hm
    have hreg := h.ready hready
    exact mem_filter.mpr ⟨hreg, fun heq => hk ⟨hreg, heq⟩⟩
  · intro identity hm hg
    obtain ⟨hreg, hne⟩ := hout identity hm
    rcases mem_insert.mp hg with heq | hold
    · exact hne heq
    · exact h.present identity (mem_union_left _ hreg) hold
  · intro identity hm
    rcases mem_union.mp hm with hc | hr
    · exact .inl (mem_union_left _ hc)
    rcases mem_union.mp hr with hold | hn
    · exact .inl (mem_union_right _ hold)
    · have hreg := (mem_filter.mp hn).1
      exact .inr (h.known identity (by simp [outstanding, hreg]))
  · intro identity hm
    obtain ⟨hreg, hne⟩ := hout identity hm
    obtain ⟨hc, hr⟩ := h.apart identity (mem_union_left _ hreg)
    refine ⟨hc, fun hin => ?_⟩
    rcases mem_union.mp hin with hold | hn
    · exact hr hold
    · exact hne (mem_filter.mp hn).2

theorem Sound.take : Sound (s.ownerStep .take) :=
  h.narrow { h.narrows with
      pending := by
        intro hne
        right
        show (s.taking || s.wake.pending) = true
        rcases h.pending hne with hp | ht
        · simp [hp]
        · simp [ht] }

theorem Sound.takeIdentities (hb : s.batch = none)
    (l : ℕ) : Sound (s.ownerStep (.takeIdentities l)) := by
  have hh := held_of_none hb
  have ht : ∀ identity ∈ firstN l s.wake.ready, identity ∈ s.wake.ready :=
    firstN_subset l s.wake.ready
  have ho : (s.ownerStep (.takeIdentities l)).outstanding ⊆ s.outstanding := by
    intro identity hm
    rcases mem_union.mp hm with hreg | hn
    · exact mem_union_left _ (mem_sdiff.mp hreg).1
    · exact mem_union_left _ (h.ready (ht identity (mem_toFinset.mp hn)))
  refine h.narrow { h.narrows with
      outstanding := ho
      ready := sdiff_subset_sdiff h.ready (Finset.Subset.rfl)
      present := fun identity hm => h.present identity (ho hm)
      apart := fun identity hm => h.apart identity (ho hm)
      settled := settled_union (fun _ hr => h.settled_ready (mem_sdiff.mp hr).1)
        (fun identity hn => h.settled_ready (ht identity (mem_toFinset.mp hn)))
        (fun _ => h.settled_collected)
      batch := ⟨firstN_nodup l s.wake.ready, sdiff_disjoint⟩
      pending := fun hne => .inl (decide_eq_true hne) }

end

theorem restoreIdentities_registered (wake : CompletionWake) (i : List Identity) :
    (wake.restoreIdentities i).registered = wake.registered ∪ i.toFinset ∧
      (wake.restoreIdentities i).ready = wake.ready ∪ i.toFinset ∧
      (wake.restoreIdentities i).nextPhase = wake.nextPhase := by
  unfold CompletionWake.restoreIdentities
  split
  · next hn => simp [hn]
  · exact ⟨rfl, rfl, rfl⟩

theorem Sound.restoreIdentities (h : Sound s) (c : ℕ) : Sound (s.restoreIdentities c) := by
  unfold Tickets.restoreIdentities
  split
  · exact h
  next i hb =>
  obtain ⟨hregistered, hready, hp⟩ := restoreIdentities_registered s.wake (i.drop c)
  have hh : s.held = i.toFinset := by simp [held, hb]
  have hback : ∀ identity ∈ i.drop c, identity ∈ s.held := by
    intro identity hm
    rw [hh]
    exact mem_toFinset.mpr (mem_of_mem_drop hm)
  have ho : ∀ identity, identity ∈ (s.wake.restoreIdentities (i.drop c)).registered ∪ ∅ →
      identity ∈ s.wake.registered ∨ identity ∈ i.drop c := by
    intro identity hm
    rw [Finset.union_empty, hregistered] at hm
    simpa using hm
  have hl : ∀ identity, identity ∈ (s.wake.restoreIdentities (i.drop c)).registered ∪ ∅ →
      identity ∈ s.outstanding := by
    intro identity hm
    rcases ho identity hm with hreg | hd
    · exact mem_union_left _ hreg
    · exact mem_union_right _ (hback identity hd)
  have hn : i.Nodup := by simpa [hb] using h.batch.1
  have hdisjoint : Disjoint s.wake.registered i.toFinset := hh ▸ h.batch.2
  refine h.narrow
    { h.narrows with
      numbered := ?_
      outstanding := hl
      ready := ?_
      present := fun identity hm => h.present identity (hl identity hm)
      ended := ?_
      apart := ?_
      settled := settled_union ?_ (by simp [held]) ?_
      batch := ⟨nodup_nil, disjoint_empty_right _⟩
      pending := ?_ }
  · intro waiterId
    left
    unfold lastPhase
    rw [hp]
  · show (s.wake.restoreIdentities _).ready ⊆ (s.wake.restoreIdentities _).registered
    rw [hready, hregistered]
    exact union_subset_union_left h.ready
  · intro identity hm
    simp only [Finset.mem_union, List.mem_toFinset] at hm ⊢
    rcases hm with (hold | ht) | hretired
    · exact .inl (.inl hold)
    · right
      refine (h.settled_held ?_).known
      rw [hh]
      exact mem_toFinset.mpr (mem_of_mem_take ht)
    · exact .inl (.inr hretired)
  · intro identity hm
    obtain ⟨hc, hr⟩ := h.apart identity (hl identity hm)
    refine ⟨fun hin => ?_, hr⟩
    rcases mem_union.mp hin with hold | ht
    · exact hc hold
    have htake := mem_toFinset.mp ht
    rcases ho identity hm with hreg | hd
    · exact disjoint_left.mp hdisjoint hreg (mem_toFinset.mpr (mem_of_mem_take htake))
    · exact disjoint_take_drop hn (le_refl c) htake hd
  · show ∀ identity ∈ (s.wake.restoreIdentities _).ready, _
    rw [hready]
    refine forall_mem_union.mpr ⟨fun _ => h.settled_ready, fun identity hd => ?_⟩
    exact h.settled_held (hback identity (mem_toFinset.mp hd))
  · refine forall_mem_union.mpr ⟨fun _ => h.settled_collected, fun identity ht => ?_⟩
    exact h.settled_held (hh ▸ mem_toFinset.mpr (mem_of_mem_take (mem_toFinset.mp ht)))
  · intro hne
    unfold CompletionWake.restoreIdentities at hne ⊢
    split
    · next hnil =>
      rw [if_pos hnil] at hne
      exact h.pending hne
    · exact .inl rfl

theorem Sound.update (h : Sound s) {channel channel' : Channel α} {delivered : List Identity}
    (hl : s.channels.lookup identity = some channel)
    (ho : ∀ other ≠ identity, other ∈ delivered ↔ other ∈ s.delivered)
    (hn : delivered.Nodup) (hoperation : channel'.operation = channel.operation)
    (hkey : ∀ sender value, channel'.slot = some (sender, value) → sender = identity)
    (hslot : channel'.slot.isSome → channel'.publisher ≠ .live)
    (hsent : channel'.publisher = .sent → channel'.Answered ∨ identity ∈ delivered)
    (hr : identity ∈ delivered → channel'.slot = none ∧ channel'.publisher ≠ .live)
    (hk : channel.publisher ≠ .live → channel.Answered ∨ identity ∈ s.delivered →
      channel'.publisher ≠ .live ∧ (channel'.Answered ∨ identity ∈ delivered)) :
    Sound { s with channels := s.channels.insert identity channel', delivered := delivered } := by
  have hs : ∀ other, (s.channels.lookup other).isSome →
      ((s.channels.insert identity channel').lookup other).isSome := by
    intro other hin
    by_cases heq : other = identity
    · rw [heq, lookup_insert]
      rfl
    · rwa [lookup_insert_ne heq]
  have hop : ∀ other, ((s.channels.insert identity channel').lookup other).map operation =
      s.operationOf other := by
    intro other
    unfold operationOf
    by_cases heq : other = identity
    · rw [heq, lookup_insert, hl]
      exact congrArg some hoperation
    · rw [lookup_insert_ne heq]
  have hold := h.channels identity channel hl
  exact
    { channels := forall_lookup_insert
        ⟨hkey, hslot, hsent, hr, hoperation ▸ hold.operation, hold.numbered⟩
        fun other found heq hf => by
          have ht := h.channels other found hf
          refine ⟨ht.key, ht.slot, ?_, ?_, ht.operation, ht.numbered⟩
          · intro hpub
            exact (ht.sent hpub).imp_right (ho other heq).mpr
          · intro hin
            exact ht.delivered ((ho other heq).mp hin)
      known := fun other hm => hs other (h.known other hm)
      known_delivered := by
        intro other hin
        by_cases heq : other = identity
        · exact hs other (by rw [heq, hl]; rfl)
        · exact hs other (h.known_delivered other ((ho other heq).mp hin))
      ready := h.ready
      capacity := h.capacity
      together := by
        intro i hi j hj hw
        show ((s.channels.insert identity channel').lookup i).map operation =
          ((s.channels.insert identity channel').lookup j).map operation
        rw [hop, hop]
        exact h.together i hi j hj hw
      present := h.present
      apart := h.apart
      settled := by
        intro other hm
        obtain ⟨found, hf, hp, ha⟩ := h.settled other hm
        by_cases heq : other = identity
        · subst heq
          rw [hl] at hf
          cases hf
          exact ⟨channel', lookup_insert _, hk hp ha⟩
        · exact ⟨found, (lookup_insert_ne heq).trans hf, hp, ha.imp_right (ho other heq).mpr⟩
      once := hn
      batch := h.batch
      pending := h.pending }

theorem publish_registered (wake : CompletionWake) (identity : Identity) :
    (wake.publish identity).registered = wake.registered ∧
      (wake.publish identity).nextPhase = wake.nextPhase ∧ ∀ o ∈ (wake.publish identity).ready,
        o ∈ wake.ready ∨ o = identity ∧ identity ∈ wake.registered := by
  unfold publish
  split
  · next hr =>
    split
    · exact ⟨rfl, rfl, fun _ => .inl⟩
    refine ⟨rfl, rfl, fun o hin => ?_⟩
    rcases mem_insert.mp hin with heq | hold
    · exact .inr ⟨heq, hr⟩
    · exact .inl hold
  · exact ⟨rfl, rfl, fun _ => .inl⟩

theorem publish_pending {wake : CompletionWake} {t : Bool}
    (h : wake.ready.Nonempty → wake.pending ∨ t)
    (hne : (wake.publish identity).ready.Nonempty) :
    (wake.publish identity).pending ∨ t := by
  unfold publish at hne ⊢
  split
  · next hr =>
    rw [if_pos hr] at hne
    split
    · next hin =>
      rw [if_pos hin] at hne
      exact h hne
    · exact .inl rfl
  · next hr =>
    rw [if_neg hr] at hne
    exact h hne

section

variable (h : Sound s)
include h

theorem Sound.publish
    (hs : s.Settled identity) : Sound { s with wake := s.wake.publish identity } := by
  obtain ⟨hr, hp, hready⟩ := publish_registered s.wake identity
  have ho : { s with wake := s.wake.publish identity }.outstanding =
      s.outstanding := by
    show (s.wake.publish identity).registered ∪ s.held = _
    rw [hr]
    rfl
  refine h.narrow
    { h.narrows with
      numbered := ?_
      outstanding := ho ▸ Subset.refl _
      ready := ?_
      present := fun o hm => h.present o (ho ▸ hm)
      apart := fun o hm => h.apart o (ho ▸ hm)
      settled := settled_union ?_ (fun _ => h.settled_held) (fun _ => h.settled_collected)
      batch := ⟨h.batch.1, by
        rw [hr]
        exact h.batch.2⟩
      pending := publish_pending h.pending }
  · intro waiterId
    left
    unfold lastPhase
    rw [hp]
  · intro o hin
    rw [hr]
    rcases hready o hin with hold | ⟨rfl, hreg⟩
    · exact h.ready hold
    · exact hreg
  · intro o hin
    rcases hready o hin with hold | ⟨rfl, -⟩
    · exact h.settled_ready hold
    · exact hs

theorem Sound.publisher {a : Publisher → Bool} {act : Channel α → Channel α}
    (hact : ∀ c, s.channels.lookup identity = some c → a c.publisher →
      Sound { s with channels := s.channels.insert identity (act c) }) :
    Sound (s.publisherStep identity a act id) := by
  unfold publisherStep
  split
  · exact h
  next c hl =>
  split
  · next ha => exact hact c hl ha
  · exact h

theorem Sound.trySend (identity : Identity) (v : α) : Sound (s.trySend identity v) := by
  refine h.publisher fun c hl ha => ?_
  have hlive : c.publisher = .live := of_decide_eq_true ha
  have hold := h.channels identity c hl
  have hu : identity ∉ s.delivered := fun hin => (hold.delivered hin).2 hlive
  split
  · refine h.update hl (fun _ _ => Iff.rfl) h.once rfl ?_ ?_ ?_ ?_ ?_
    · rintro sender result hs
      exact (congrArg Prod.fst (some.inj hs)).symm
    · exact fun _ => by simp
    · exact fun _ => .inl (.inl rfl)
    · exact fun hin => absurd hin hu
    · exact absurd hlive
  · refine h.update hl (fun _ _ => Iff.rfl) h.once rfl hold.key ?_ ?_ ?_ ?_
    · exact fun _ => by simp
    · intro hsent
      cases hsent
    · exact fun hin => absurd hin hu
    · exact absurd hlive

theorem Sound.advance {channel : Channel α}
    (hl : s.channels.lookup identity = some channel) {publisher : Publisher}
    (hlive : publisher ≠ .live) (hsent : publisher ≠ .sent)
    (hs : channel.publisher.holdsSender = false → publisher.holdsSender = false) :
    Sound { s with
      channels := s.channels.insert identity { channel with publisher := publisher } } := by
  have hold := h.channels identity channel hl
  refine h.update hl (fun _ _ => Iff.rfl) h.once rfl hold.key (fun _ => hlive)
    (fun heq => absurd heq hsent) (fun hin => ⟨(hold.delivered hin).1, hlive⟩) ?_
  intro _ ha
  refine ⟨hlive, ha.imp_left ?_⟩
  rintro (hslot | hd | ht)
  · exact .inl hslot
  · exact .inr (.inl (hs hd))
  · exact .inr (.inr ht)

theorem Sound.dropSender (identity : Identity) : Sound (s.dropSender identity) :=
  h.publisher fun _ hl _ => h.advance hl (by simp) (by simp) (fun _ => rfl)

theorem Sound.advance_publish
    {publisher next : Publisher} (hlive : next ≠ .live) (hs : next ≠ .sent)
    (hsender : publisher.holdsSender = false → next.holdsSender = false)
    (hanswer : ∀ channel, s.channels.lookup identity = some channel →
      channel.publisher = publisher →
      { channel with publisher := next }.Answered ∨ identity ∈ s.delivered) :
    Sound (s.publisherStep identity (· = publisher)
      (fun channel => { channel with publisher := next }) (·.publish identity)) := by
  unfold publisherStep
  split
  · exact h
  next channel hl =>
  split
  · next ha =>
    have heq : channel.publisher = publisher := of_decide_eq_true ha
    have hm := h.advance hl hlive hs (by rwa [heq])
    refine hm.publish ⟨_, lookup_insert _, hlive, ?_⟩
    exact hanswer channel hl heq
  · exact h

section

variable (identity : Identity)

theorem Sound.publishSent : Sound (s.publishSent identity) := by
  refine h.advance_publish (by simp) (by simp) (by simp [Publisher.holdsSender]) ?_
  intro channel hl hs
  refine ((h.channels identity channel hl).sent hs).imp_left ?_
  rintro (hslot | hd | ht)
  · exact .inl hslot
  · rw [hs] at hd
    cases hd
  · exact .inr (.inr ht)

theorem Sound.publishDropped : Sound (s.publishDropped identity) :=
  h.advance_publish (by simp) (by simp) (fun _ => rfl) fun _ _ _ => .inl (.inr (.inl rfl))

theorem Sound.dropTicket : Sound (s.dropTicket identity) := by
  unfold Tickets.dropTicket
  split
  · exact h
  next c hl =>
  have hold := h.channels identity c hl
  refine h.update hl (fun _ _ => Iff.rfl) h.once rfl ?_ ?_ ?_ ?_ ?_
  · intro _ _ hs
    cases hs
  · intro hs
    cases hs
  · exact fun _ => .inl (.inr (.inr rfl))
  · exact fun hin => ⟨rfl, (hold.delivered hin).2⟩
  · exact fun hp _ => ⟨hp, .inl (.inr (.inr rfl))⟩

theorem Sound.poll : Sound (s.poll identity) := by
  unfold Tickets.poll
  split
  · exact h
  next channel hl =>
  have hold := h.channels identity channel hl
  split
  · exact h
  next hasks =>
  have hf : s.wake.awaitsCollection identity = false := by simpa using fun ha => hasks (.inr ha)
  cases hs : channel.slot with
  | none =>
    have hsame : { channel with slot := none } = channel := by
      cases channel
      cases hs
      rfl
    have hu : Sound { s with channels := s.channels.insert identity channel } :=
      h.update hl (fun _ _ => Iff.rfl) h.once rfl hold.key hold.slot hold.sent
        hold.delivered (fun hp hk => ⟨hp, hk⟩)
    rw [hsame]
    cases hsender : channel.publisher.holdsSender <;> simpa [pollAnswer, hf, hs, hsender] using hu
  | some pair =>
    obtain ⟨sender, value⟩ := pair
    obtain rfl := hold.key sender value hs
    have hp : channel.publisher ≠ .live := hold.slot (by simp [hs])
    have hunread : sender ∉ s.delivered := by
      intro hin
      have := (hold.delivered hin).1
      rw [hs] at this
      cases this
    have hr : s.pollAnswer sender channel = .ready value := by simp [pollAnswer, hf, hs]
    rw [hr]
    refine h.update hl ?_ (nodup_cons.mpr ⟨hunread, h.once⟩) rfl ?_ ?_ ?_ ?_ ?_
    · intro other hne
      simp [hne]
    · intro _ _ hn
      cases hn
    · intro hn
      cases hn
    · exact fun _ => .inr mem_cons_self
    · exact fun _ => ⟨rfl, hp⟩
    · exact fun _ _ => ⟨hp, .inr mem_cons_self⟩

end

end

theorem lookup_foldl_insert (channel : Channel α) (i : List Identity)
    (c : Dict Identity (Channel α)) (identity : Identity) :
    (i.foldl (fun c identity => c.insert identity channel) c).lookup identity =
      if identity ∈ i then some channel else c.lookup identity := by
  induction i generalizing c with
  | nil => simp
  | cons f rest ih =>
    rw [foldl_cons, ih]
    by_cases hr : identity ∈ rest
    · simp [hr]
    by_cases hf : identity = f
    · subst hf
      simp [hr, lookup_insert]
    · simp [hr, hf, lookup_insert_ne hf]

theorem Sound.unregistered (h : Sound s) (hp : identity.waiterId ∉ s.gone)
    (hphase : s.wake.lastPhase identity.waiterId < identity.phase) :
    s.channels.lookup identity = none := by
  refine eq_none_iff_forall_ne_some.mpr fun c hl => ?_
  rcases (h.channels identity c hl).numbered with hle | hg
  · omega
  · exact hp hg

theorem Sound.registerPhases (h : Sound s) (hb : s.batch = none)
    (w p : ℕ) : Sound (s.registerPhases w p) := by
  unfold Tickets.registerPhases
  split
  · exact h
  next hpresent =>
  split
  · exact h
  next hregister =>
  obtain ⟨hf, hroom, rfl, rfl⟩ := registerPhases_some hregister
  set fresh := phases w (s.wake.lastPhase w) p with hfresh
  have hh := held_of_none hb
  have ha : ∀ identity, (s.channels.lookup identity).isSome → identity ∉ fresh := by
    intro identity hs hm
    obtain ⟨rfl, hlow, -⟩ := mem_phases.mp hm
    rw [h.unregistered hpresent hlow] at hs
    cases hs
  have hs : ∀ identity, (s.channels.lookup identity).isSome →
      ((fresh.foldl (fun channels identity =>
        channels.insert identity ⟨s.operations, .live, none, true⟩)
        s.channels).lookup identity).isSome := by
    intro identity hin
    rwa [lookup_foldl_insert, if_neg (ha identity hin)]
  have ho : ∀ identity ∈ (s.wake.registered ∪ fresh.toFinset) ∪ s.held,
      identity ∈ s.wake.registered ∨ identity ∈ fresh := by
    intro identity hm
    rw [hh, Finset.union_empty] at hm
    simpa using hm
  have hr : ∀ identity ∈ s.wake.registered, (s.channels.lookup identity).isSome :=
    fun identity hm => h.known identity (by simp [outstanding, hm])
  refine
    { channels := ?_, known := ?_, known_delivered := ?_, ready := ?_, capacity := ?_
      together := ?_, present := ?_, apart := ?_, settled := ?_, once := h.once
      batch := ?_, pending := h.pending }
  · intro identity c hl
    rw [lookup_foldl_insert] at hl
    split at hl
    · next hm =>
      cases hl
      obtain ⟨hw, -, hhigh⟩ := mem_phases.mp hm
      refine ⟨by simp, by simp, by simp, ?_, Nat.lt_succ_self _, .inl ?_⟩
      · intro hin
        exact absurd hm (ha identity (h.known_delivered identity hin))
      show identity.phase ≤ ((s.wake.nextPhase.insert w _).lookup identity.waiterId).getD 0
      rw [hw, lookup_insert]
      exact hhigh
    · obtain ⟨hk, hslot, hsent, hd, hoperation, hnumbered⟩ := h.channels identity c hl
      refine ⟨hk, hslot, hsent, hd, Nat.lt_succ_of_lt hoperation, ?_⟩
      refine hnumbered.imp_left fun hp => ?_
      show identity.phase ≤ ((s.wake.nextPhase.insert w _).lookup identity.waiterId).getD 0
      by_cases heq : identity.waiterId = w
      · rw [heq] at hp ⊢
        rw [lookup_insert]
        exact hp.trans (Nat.le_add_right _ _)
      · rw [lookup_insert_ne heq]
        exact hp
  · intro identity hm
    rw [Finset.union_assoc, Finset.mem_union] at hm
    rcases hm with hin | hover
    · rcases ho identity hin with hreg | hn
      · exact hs identity (hr identity hreg)
      show ((fresh.foldl _ s.channels).lookup identity).isSome
      rw [lookup_foldl_insert, if_pos hn]
      rfl
    · refine hs identity (h.known identity ?_)
      rw [Finset.union_assoc]
      exact mem_union_right _ hover
  · exact fun identity hin => hs identity (h.known_delivered identity hin)
  · exact h.ready.trans subset_union_left
  · show ((s.wake.registered ∪ fresh.toFinset) ∪ s.held).card ≤ _
    rw [hh, Finset.union_empty]
    calc (s.wake.registered ∪ fresh.toFinset).card
        ≤ s.wake.registered.card + fresh.toFinset.card := card_union_le _ _
      _ ≤ s.wake.registered.card + fresh.length := Nat.add_le_add_left (toFinset_card_le _) _
      _ = s.wake.registered.card + p := by rw [hfresh, length_phases]
      _ ≤ coreOwnerCompletionCapacity := hroom
  · intro i hi j hj hw
    show ((fresh.foldl _ s.channels).lookup i).map operation =
      ((fresh.foldl _ s.channels).lookup j).map operation
    rw [lookup_foldl_insert, lookup_foldl_insert]
    rcases ho i hi with hireg | hinew <;> rcases ho j hj with hjreg | hjnew
    · rw [if_neg (ha i (hr i hireg)), if_neg (ha j (hr j hjreg))]
      exact h.together i (mem_union_left _ hireg) j (mem_union_left _ hjreg) hw
    · exact absurd (hw.trans (mem_phases.mp hjnew).1) (hf i hireg)
    · exact absurd (hw.symm.trans (mem_phases.mp hinew).1) (hf j hjreg)
    · rw [if_pos hinew, if_pos hjnew]
  · intro identity hm
    rcases ho identity hm with hreg | hn
    · exact h.present identity (mem_union_left _ hreg)
    · rw [(mem_phases.mp hn).1]
      exact hpresent
  · intro identity hm
    rcases ho identity hm with hreg | hn
    · exact h.apart identity (mem_union_left _ hreg)
    constructor
    · exact fun hin => ha identity (h.known identity (by simp [hin])) hn
    · exact fun hin => ha identity (h.known identity (by simp [hin])) hn
  · intro identity hm
    obtain ⟨c, hl, hpast⟩ := h.settled identity hm
    refine ⟨c, ?_, hpast⟩
    rw [lookup_foldl_insert, if_neg (ha identity (by rw [hl]; rfl))]
    exact hl
  · refine ⟨h.batch.1, ?_⟩
    show Disjoint _ s.held
    rw [hh]
    exact disjoint_empty_right _

theorem Sound.ownerStep (h : Sound s) (hb : s.batch = none)
    (a : Access α) : Sound (s.ownerStep a) := by
  cases a with
  | registerPhases w p => exact h.registerPhases hb w p
  | retire =>
    show Sound (if _ then _ else _)
    split
    · next hk => exact h.retire (by simp [held_of_none hb]) hk
    · exact h
  | retireWaiter w => exact h.retireWaiter hb w
  | collectReady identity =>
    by_cases hr : identity ∈ s.wake.ready
    · have hc := h.collect hb hr
      simpa [Tickets.ownerStep, CompletionWake.collectReady, hr] using hc
    · simpa [Tickets.ownerStep, CompletionWake.collectReady, hr] using h
  | takeTerminalIdentity w =>
    cases hf : first? s.wake.ready fun identity => identity.waiterId = w with
    | none => simpa [Tickets.ownerStep, CompletionWake.takeTerminalIdentity, hf] using h
    | some =>
      have hc := h.collect hb (first?_mem hf).1
      simpa [Tickets.ownerStep, CompletionWake.takeTerminalIdentity, hf] using hc
  | take => exact h.take
  | takeIdentities l => exact h.takeIdentities hb l
  | poll identity => exact h.poll identity
  | dropTicket identity => exact h.dropTicket identity
  | restoreIdentities | trySend | publishSent | dropSender | publishDropped | failBegin => exact h

theorem Sound.step (h : Sound s) (a : Access α) : Sound (s.step a) := by
  have ho : Sound (if s.batch.isSome then s else s.ownerStep a) := by
    split
    · exact h
    · next hb => exact h.ownerStep (by simpa using hb) a
  cases a with
  | trySend identity v => exact h.trySend identity v
  | publishSent identity => exact h.publishSent identity
  | dropSender identity => exact h.dropSender identity
  | publishDropped identity => exact h.publishDropped identity
  | failBegin identity => exact h.failBegin identity
  | restoreIdentities c => exact h.restoreIdentities c
  | _ => exact ho

theorem Sound.run (h : Sound s) (a : List (Access α)) : Sound (s.run a) := by
  induction a generalizing s with
  | nil => exact h
  | cons access _ ih => exact ih (h.step access)

structure Contract (s : Tickets α) : Prop where
  ready_registered : s.wake.ready ⊆ s.wake.registered
  capacity : s.wake.registered.card ≤ coreOwnerCompletionCapacity
  one_operation : ∀ i ∈ s.outstanding, ∀ j ∈ s.outstanding, i.waiterId = j.waiterId →
    s.operationOf i = s.operationOf j
  delivered_once : s.delivered.Nodup
  collected_answers : ∀ identity ∈ s.collected, identity ∉ s.delivered →
    ∀ channel, s.channels.lookup identity = some channel → channel.ticket = true →
      s.pollAnswer identity channel ≠ .pending
  pending : s.wake.ready.Nonempty → s.wake.pending ∨ s.taking
  stale : ∀ identity, identity ∈ s.retired ∨ identity ∈ s.collected ∨
      (∃ other ∈ s.wake.registered, other.waiterId = identity.waiterId ∧
        s.operationOf other ≠ s.operationOf identity) →
    s.wake.publish identity = s.wake

theorem Sound.collected_answers (h : Sound s)
    (hc : identity ∈ s.collected) (hu : identity ∉ s.delivered)
    {c : Channel α} (hl : s.channels.lookup identity = some c)
    (ht : c.ticket = true) : s.pollAnswer identity c ≠ .pending := by
  have hfree : identity ∉ s.wake.registered :=
    fun hr => (h.apart identity (mem_union_left _ hr)).1 hc
  obtain ⟨found, hf, -, ha⟩ := h.settled identity (mem_union_right _ hc)
  rw [hl] at hf
  cases hf
  have hawaits : s.wake.awaitsCollection identity = false := decide_eq_false hfree
  unfold pollAnswer
  rw [hawaits]
  rcases ha.resolve_right hu with hslot | hd | hg
  · obtain ⟨⟨sender, v⟩, hp⟩ := isSome_iff_exists.mp hslot
    have hs := (h.channels identity c hl).key sender v hp
    simp [hp, hs]
  · cases hslot : c.slot with
    | none => simp [hd]
    | some pair =>
      have hs := (h.channels identity c hl).key pair.1 pair.2 hslot
      simp [hs]
  · rw [ht] at hg
    cases hg

/-- The owner can rely on its tickets; one whose phase was collected answers until it has delivered
its result. -/
theorem run_contract (accesses : List (Access α)) : Contract ((new : Tickets α).run accesses) := by
  have h : Sound ((new : Tickets α).run accesses) := sound_new.run accesses
  refine
    { ready_registered := h.ready
      capacity := (card_le_card subset_union_left).trans h.capacity
      one_operation := h.together
      delivered_once := h.once
      collected_answers := fun _ hc hu _ => h.collected_answers hc hu
      pending := h.pending
      stale := ?_ }
  intro identity hover
  refine publish_of_notMem fun hreg => ?_
  have hout : identity ∈ ((new : Tickets α).run accesses).outstanding := mem_union_left _ hreg
  rcases hover with hretired | hcollected | ⟨other, hother, hwaiter, hdiffers⟩
  · exact (h.apart identity hout).2 hretired
  · exact (h.apart identity hout).1 hcollected
  · exact hdiffers (h.together other (mem_union_left _ hother) identity hout hwaiter)

/-- A collected ticket that is polled again before its publisher drops the sender is
pending. -/
theorem pending_after_delivery :
    ¬∀ (accesses : List (Access ℕ)) (identity : Identity) (channel : Channel ℕ),
      identity ∈ ((new : Tickets ℕ).run accesses).collected →
      ((new : Tickets ℕ).run accesses).channels.lookup identity = some channel →
      channel.ticket = true →
      ((new : Tickets ℕ).run accesses).pollAnswer identity channel ≠ .pending := by
  intro hall
  refine hall
    [.registerPhases 1 1, .trySend ⟨1, 1⟩ 7, .publishSent ⟨1, 1⟩, .take, .takeIdentities 1,
      .restoreIdentities 1, .poll ⟨1, 1⟩] ⟨1, 1⟩ ⟨0, .published, none, true⟩ ?_ ?_ rfl ?_
  · decide +kernel
  · decide +kernel
  · decide +kernel

end Tickets

end BotsterHub.Owner
