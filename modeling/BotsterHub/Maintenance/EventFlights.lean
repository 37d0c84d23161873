import BotsterHub.Maintenance.EventDelivery

/-!
The delivery slice and the accounts of the router.

A delivery that was pulled and not returned is a flight until its holder is retired. `Sound`: the
router is settled with the current batch and the flights, so none of its `expect`s fails.
-/

namespace BotsterHub.Maintenance

open Multiset List Option AList EventDeliveryFlight EventDelivery

open Router
open Router.RouterInner (Moves Settled)

def EventDeliveryFlight.key (flight : EventDeliveryFlight) : ℕ × String × ℕ :=
  (flight.envelopeId, flight.pluginKey, flight.generation)

def EventDeliveryFlight.owes (flight : EventDeliveryFlight) : Multiset (ℕ × String × ℕ) :=
  if flight.holderRetired then 0 else {flight.key}

theorem EventDeliveryFlight.owes_of_retired {flight : EventDeliveryFlight}
    (h : flight.holderRetired = true) : flight.owes = 0 := by
  rw [owes, if_pos h]

namespace EventDelivery

variable {policy : Policy} {fresh future : Multiset ℕ} {flown : Multiset QueuedCopy}
  {inner inner' inner'' : RouterInner} {st st' : EventDelivery}

structure Quiet (inner inner' : RouterInner) : Prop where
  queues_eq : inner'.queues = inner.queues
  next_eq : inner'.store.nextEnvelope = inner.store.nextEnvelope
  nextPull_eq : inner'.nextPull = inner.nextPull
  policy_eq : inner'.policy = inner.policy
  outlives : inner.store.Outlives inner'.store

theorem Quiet.refl (inner : RouterInner) : Quiet inner inner :=
  ⟨rfl, rfl, rfl, rfl, .of_envelopes_eq rfl⟩

theorem Quiet.trans (h : Quiet inner inner') (h' : Quiet inner' inner'') : Quiet inner inner'' where
  queues_eq := h'.queues_eq.trans h.queues_eq
  next_eq := h'.next_eq.trans h.next_eq
  nextPull_eq := h'.nextPull_eq.trans h.nextPull_eq
  policy_eq := h'.policy_eq.trans h.policy_eq
  outlives := h.outlives.trans h'.outlives

theorem quiet_retireHolder {id : ℕ} {key : String × ℕ} {last : Bool}
    (h : inner.retireHolder id key = some (last, inner')) : Quiet inner inner' := by
  obtain ⟨⟨last', s'⟩, hr, heq⟩ := map_eq_some_iff.mp h
  cases heq
  exact ⟨rfl, EnvelopeStore.next_retireHolderLocked hr, rfl, rfl,
    EnvelopeStore.outlives_retireHolderLocked hr⟩

/-- An attempt to retire a flight: `flown'` still fly, `keys` are the holders other flights owe. -/
structure Attempt (flown flown' batch : Multiset QueuedCopy)
    (keys : Multiset (ℕ × String × ℕ)) (inner inner' : RouterInner) (retired : Bool)
    (flight' : EventDeliveryFlight) : Prop where
  le : flown' ≤ flown
  moves : Moves (flown' + batch) 0 inner inner'
  progress : Progress (flown' + batch) inner.store inner'.store
  owes_le : flight'.owes + keys ≤ flown'.map EnvelopeStore.claimKey
  done : retired = true → flight'.owes = 0
  quiet : Quiet inner inner'

section Retire

variable {flight : EventDeliveryFlight} {batch : Multiset QueuedCopy}
  {keys : Multiset (ℕ × String × ℕ)}

section

variable (hs : inner.Settled (flown + batch))
include hs

section

variable (ho : flight.owes + keys ≤ flown.map EnvelopeStore.claimKey)
include ho

theorem Attempt.refl (hd : r = true → flight.owes = 0) :
    Attempt flown flown batch keys inner inner r flight :=
  ⟨le_rfl, hs.refl, Progress.refl _ _, ho, hd, .refl inner⟩

theorem retireEventHolder_spec (a : RetireAnswer) : ∃ retired flight' inner' flown',
      retireEventHolder inner flight a = some (retired, flight', inner') ∧
      Attempt flown flown' batch keys inner inner' retired flight' := by
  unfold retireEventHolder
  split
  · next hr =>
    exact ⟨_, flight, inner, flown, rfl, .refl hs ho fun _ => owes_of_retired hr⟩
  next hr =>
  split
  · exact ⟨_, flight, inner, flown, rfl, .refl hs ho fun hf => by cases hf⟩
  rw [owes, if_neg hr] at ho
  have hmem : flight.key ∈ flown.map EnvelopeStore.claimKey :=
    Multiset.mem_of_le ho (Multiset.mem_add.mpr (.inl (Multiset.mem_singleton_self _)))
  obtain ⟨copy, hc, hk⟩ := mem_map.mp hmem
  obtain ⟨flown', rfl⟩ := exists_cons_of_mem hc
  rw [Multiset.map_cons, hk, Multiset.singleton_add] at ho
  have hkeys := (cons_le_cons_iff _).mp ho
  -- both calls retire the holder, one of them with its pull identity
  have hretire (p : Finset ℕ) : ∃ last inner',
      RouterInner.retireHolder { inner with outstandingPulls := p } flight.envelopeId
        (flight.pluginKey, flight.generation) = some (last, inner') ∧
      Attempt (copy ::ₘ flown') flown' batch keys inner inner' (flight.scopeId.isNone || a.applied)
        { flight with holderRetired := true, pullId := none } := by
    have hp := hs.setPulls p
    have hsettled := hp.settled
    rw [cons_add] at hsettled
    obtain ⟨last, s', hstep, hm, hprogress, -⟩ := hsettled.retireHolder
    have hid : copy.envelopeId = flight.envelopeId := congrArg Prod.fst hk
    have hh : copy.holder.holderKey = (flight.pluginKey, flight.generation) := congrArg Prod.snd hk
    rw [hid, hh] at hstep
    have hq := quiet_retireHolder hstep
    refine ⟨last, _, hstep, le_cons_self _ _, hp.trans hm, hprogress, ?_,
      fun _ => owes_of_retired rfl,
      ⟨hq.queues_eq, hq.next_eq, hq.nextPull_eq, hq.policy_eq, hq.outlives⟩⟩
    rw [owes_of_retired rfl, zero_add]
    exact hkeys
  cases hpull : flight.pullId with
  | some pullId =>
    obtain ⟨last, inner', hstep, ha⟩ := hretire (inner.outstandingPulls.erase pullId)
    exact ⟨_, _, inner', flown', by simp only [RouterInner.retirePulled, hstep]; rfl, ha⟩
  | none =>
    obtain ⟨last, inner', hstep, ha⟩ := hretire inner.outstandingPulls
    exact ⟨_, _, inner', flown', by simp only; rw [hstep]; rfl, ha⟩

theorem retireTwice_spec (a again : RetireAnswer) : ∃ retired flight' inner' flown',
      retireTwice inner flight a again = some (retired, flight', inner') ∧
      Attempt flown flown' batch keys inner inner' retired flight' := by
  obtain ⟨retired, flight₁, inner₁, flown₁, hstep, h₁⟩ := retireEventHolder_spec hs ho a
  unfold retireTwice
  rw [hstep, bind_some]
  dsimp only
  split
  · obtain ⟨retired', flight', inner', flown', hstep', h'⟩ :=
      retireEventHolder_spec h₁.moves.settled h₁.owes_le again
    exact ⟨retired', flight', inner', flown', hstep', h'.le.trans h₁.le, h₁.moves.trans h'.moves,
      h₁.progress.trans h'.progress (add_le_add_left h'.le batch), h'.owes_le, h'.done,
      h₁.quiet.trans h'.quiet⟩
  · exact ⟨retired, flight₁, inner₁, flown₁, rfl, h₁⟩

end

end

end Retire

def restCopies (st : EventDelivery) : Multiset QueuedCopy :=
  (st.rest.map ReadyDelivery.copy : List QueuedCopy)

def owed (st : EventDelivery) : Multiset (ℕ × String × ℕ) :=
  st.eventInFlight.total EventDeliveryFlight.owes +
    (st.pendingRetirements.map EventDeliveryFlight.owes).sum

/-- The router is settled with `flown` and the batch; the flights and `extra` are among `flown`.
`future` are the holder generations still to come. -/
structure Sound (policy : Policy) (future : Multiset ℕ) (flown : Multiset QueuedCopy)
    (extra : Multiset (ℕ × String × ℕ)) (st : EventDelivery) : Prop where
  settled : st.inner.Settled (flown + st.restCopies)
  owed_le : extra + st.owed ≤ flown.map EnvelopeStore.claimKey
  sizes : ∀ d ∈ st.rest, d.size = st.inner.store.size d.envelopeId
  policy_eq : st.inner.policy = policy
  unique : (st.inner.registry.supply + future).Nodup

theorem sound_new (policy : Policy) (s : Json → Bool) (h : future.Nodup) :
    (new policy s).Sound policy future 0 0 where
  settled := RouterInner.settled_new policy s
  owed_le := le_rfl
  sizes d hd := by cases hd
  policy_eq := rfl
  unique := by rwa [new, RouterInner.supply_new, zero_add]

variable {flown' : Multiset QueuedCopy} {extra extra' : Multiset (ℕ × String × ℕ)}

theorem Sound.moves (h : st.Sound policy future flown extra)
    (hm : Moves (flown' + st.restCopies) 0 st.inner inner')
    (hp : Progress (flown' + st.restCopies) st.inner.store inner'.store)
    (hi : st'.inner = inner') (hr : st'.rest = st.rest)
    (howed : extra' + st'.owed ≤ flown'.map EnvelopeStore.claimKey) :
    st'.Sound policy future flown' extra' where
  settled := by
    rw [restCopies, hr, hi]
    exact hm.settled
  owed_le := howed
  sizes d hd := by
    rw [hr] at hd
    rw [hi, h.sizes d hd]
    refine (hp.size_eq d.copy (mem_add.mpr (.inr ?_))).symm
    exact mem_coe.mpr (mem_map_of_mem hd)
  policy_eq := by rw [hi, hm.policy_eq, h.policy_eq]
  unique := by
    rw [hi]
    refine nodup_of_le (add_le_add_left hm.supply_le future) ?_
    rw [add_zero]
    exact h.unique

theorem Sound.same (h : st.Sound policy future flown extra) (hi : st'.inner = st.inner)
    (hr : st'.rest = st.rest) (howed : st'.owed = st.owed) :
    st'.Sound policy future flown extra :=
  h.moves h.settled.refl (Progress.refl _ _) hi hr (howed ▸ h.owed_le)

structure Frame (st st' : EventDelivery) : Prop where
  batch_eq : st'.batch = st.batch
  admissions_eq : st'.admissions = st.admissions
  quiet : Quiet st.inner st'.inner

theorem owed_queueEventRetirement (st : EventDelivery) (flight : EventDeliveryFlight)
    (a : RetireAnswer) :
    (st.queueEventRetirement flight a).owed = flight.owes + st.owed := by
  simp only [owed, queueEventRetirement, List.map_append, List.map_cons, List.map_nil,
    List.sum_append, List.sum_cons, List.sum_nil, add_zero]
  rw [← add_assoc, add_comm]

theorem retireOrQueue_spec
    (h : st.Sound policy future flown (flight.owes + extra)) (a : RetireAnswer) :
    ∃ st' flown', st.retireOrQueue flight a = some st' ∧
      st'.Sound policy future flown' extra ∧ Frame st st' := by
  have howed := h.owed_le
  rw [add_assoc] at howed
  obtain ⟨r, flight', inner', flown', hstep, ha⟩ := retireEventHolder_spec h.settled howed a
  have howes := ha.owes_le
  unfold retireOrQueue
  rw [hstep, map_some]
  cases r with
  | true =>
    refine ⟨_, flown', rfl, h.moves ha.moves ha.progress rfl rfl ?_, rfl, rfl, ha.quiet⟩
    rw [ha.done rfl, zero_add] at howes
    exact howes
  | false =>
    refine ⟨_, flown', rfl, h.moves ha.moves ha.progress rfl rfl ?_, rfl, rfl, ha.quiet⟩
    change extra + ({ st with inner := inner' }.queueEventRetirement flight' a).owed ≤ _
    rw [owed_queueEventRetirement, add_left_comm]
    exact howes

theorem flush_spec (h : st.Sound policy future flown 0) (a again : RetireAnswer) :
    ∃ parked st' flown', st.flushPendingEventRetirements a again = some (parked, st') ∧
      st'.Sound policy future flown' 0 ∧ Frame st st' := by
  unfold flushPendingEventRetirements
  split
  · exact ⟨_, st, flown, rfl, h, rfl, rfl, .refl _⟩
  split
  · exact ⟨_, st, flown, rfl, h, rfl, rfl, .refl _⟩
  next flight rest hp =>
  have hsplit (flight : EventDeliveryFlight) : st.eventInFlight.total owes +
      ((flight :: rest).map owes).sum = flight.owes + (st.eventInFlight.total owes +
          (rest.map owes).sum) := by
    rw [List.map_cons, List.sum_cons, add_left_comm]
  have howed := h.owed_le
  rw [zero_add, owed, hp, hsplit] at howed
  obtain ⟨retired, flight', inner', flown', hstep, ha⟩ := retireTwice_spec h.settled howed a again
  have howes := ha.owes_le
  rw [hstep, map_some]
  dsimp only
  split
  · next hr =>
    refine ⟨_, _, flown', rfl, h.moves ha.moves ha.progress rfl rfl ?_, rfl, rfl, ha.quiet⟩
    rw [ha.done hr, zero_add] at howes
    rw [zero_add]
    exact howes
  rw [← hsplit] at howes
  split
  · refine ⟨_, _, flown', rfl, h.moves ha.moves ha.progress rfl rfl ?_, rfl, rfl, ha.quiet⟩
    rw [zero_add]
    exact howes
  refine ⟨_, _, flown', rfl, h.moves ha.moves ha.progress rfl rfl ?_, rfl, rfl, ha.quiet⟩
  rw [zero_add]
  exact howes

def Unexpired (start : SliceStart) (st : EventDelivery) : Prop :=
  ∀ attempt ∈ [start.attempt, start.again], ∀ reading id envelope,
    st.inner.store.liveEnvelope id = some envelope →
      attempt.clock reading - envelope.enqueuedAt ≤ st.inner.policy.queueAge

structure Alike (inner inner' : RouterInner) : Prop where
  queue_eq : ∀ plugin, inner'.queues.queueOf plugin = inner.queues.queueOf plugin
  store_eq : inner'.store = inner.store
  nextPull_eq : inner'.nextPull = inner.nextPull
  policy_eq : inner'.policy = inner.policy

theorem Alike.trans (h : Alike inner inner') (h' : Alike inner' inner'') : Alike inner inner'' where
  queue_eq plugin := (h'.queue_eq plugin).trans (h.queue_eq plugin)
  store_eq := h'.store_eq.trans h.store_eq
  nextPull_eq := h'.nextPull_eq.trans h.nextPull_eq
  policy_eq := h'.policy_eq.trans h.policy_eq

inductive Pulled (flown : Multiset QueuedCopy) (attempts : List PullAttempt)
    (inner inner' : RouterInner) : Option (List ReadyDelivery) → Prop
  | busy (hmoves : Moves flown 0 inner inner') (halike : Alike inner inner') :
      Pulled flown attempts inner inner' none
  | batch {batch : List ReadyDelivery} (attempt : PullAttempt) (hmem : attempt ∈ attempts)
      (unparked : RouterInner) (halike : Alike inner unparked)
      (hmoves : Moves (flown + (batch.map ReadyDelivery.copy : List QueuedCopy)) 0 inner inner')
      (hprogress : Progress flown inner.store inner'.store)
      (hsizes : ∀ d ∈ batch, d.size = inner'.store.size d.envelopeId)
      (hlength : batch.length ≤ eventDeliveryMaxItems) (usedBytes readings : ℕ)
      (htakes : RouterInner.Pull.Takes attempt.limits batch ⟨unparked, [], 0, 0⟩
        ⟨inner', batch, usedBytes, readings⟩) :
      Pulled flown attempts inner inner' (some batch)

theorem pull_spec (hs : inner.Settled flown) (u : Bool) (a : PullAttempt) :
    ∃ pulled inner', pull inner u a = some (pulled, inner') ∧
      Pulled flown [a] inner inner' pulled := by
  unfold pull
  split
  · exact ⟨none, inner, rfl, .busy hs.refl ⟨fun _ => rfl, rfl, rfl, rfl⟩⟩
  have hu : Moves flown 0 inner (if u then inner.unparkEngineConsumers.2 else inner) ∧
      Alike inner (if u then inner.unparkEngineConsumers.2 else inner) := by
    cases u with
    | true => exact ⟨hs.unpark, fun _ => rfl, rfl, rfl, rfl⟩
    | false => exact ⟨hs.refl, fun _ => rfl, rfl, rfl, rfl⟩
  obtain ⟨hm, ha⟩ := hu
  dsimp only
  split
  · exact ⟨none, _, rfl, .busy hm ha⟩
  obtain ⟨batch, raised, inner', hstep, hm', hp, hsizes, hl, used, r,
    ht⟩ := hm.settled.pullReadyBatch a.limits
  rw [hstep, map_some]
  rw [ha.store_eq] at hp
  exact ⟨some batch, inner', rfl, .batch a (List.mem_singleton_self _) _ ha
    (hm.trans hm') hp hsizes hl used r ht⟩

theorem pullTwice_spec (hs : inner.Settled flown) (unpark : Bool) (attempt a : PullAttempt) :
    ∃ pulled inner', pullTwice inner unpark attempt a = some (pulled, inner') ∧
      Pulled flown [attempt, a] inner inner' pulled := by
  obtain ⟨pulled, inner₁, hstep, h₁⟩ := pull_spec hs unpark attempt
  unfold pullTwice
  rw [hstep, bind_some]
  cases h₁ with
  | batch attempt' hmem u ha hm hp hsizes hl used r ht =>
    exact ⟨_, inner₁, rfl, .batch attempt' (List.mem_cons.mpr (.inl (List.mem_singleton.mp hmem)))
      u ha hm hp hsizes hl used r ht⟩
  | busy hm ha =>
    obtain ⟨pulled', inner', hstep', h'⟩ := pull_spec hm.settled unpark a
    refine ⟨pulled', inner', hstep', ?_⟩
    cases h' with
    | busy hm' ha' => exact .busy (hm.trans hm') (ha.trans ha')
    | batch attempt' hmem u ha' hm' hp hsizes hl used r
        ht =>
        rw [ha.store_eq] at hp
        exact .batch attempt' (mem_cons_of_mem _ hmem) u (ha.trans ha')
          (hm.trans hm') hp hsizes hl used r ht

def returned (st : EventDelivery) : Finset String := (st.batch.map Batch.returned).getD ∅

structure Began (start : SliceStart) (st st' : EventDelivery) : Prop where
  admissions_eq : st'.admissions = st.admissions
  next_eq : st'.inner.store.nextEnvelope = st.inner.store.nextEnvelope
  policy_eq : st'.inner.policy = st.inner.policy
  outlives : st.Unexpired start → st.inner.store.Outlives st'.inner.store
  returned_eq : st'.returned = ∅
  length_le : st'.rest.length ≤ eventDeliveryMaxItems
  queue : ∀ plugin, ∃ taken : List QueuedCopy, (st.inner.queues.queueOf plugin).copies =
      taken ++ (st'.inner.queues.queueOf plugin).copies ∧
    ((RouterInner.Pull.forPlugin plugin st'.rest).map ReadyDelivery.copy).Sublist taken ∧
    (st.Unexpired start →
      (RouterInner.Pull.forPlugin plugin st'.rest).map ReadyDelivery.copy = taken)
  numbered : st.inner.nextPull + st'.rest.length ≤ u64Max →
    (st'.rest.map ReadyDelivery.pullId).Nodup ∧
    ∀ d ∈ st'.rest, d.pullId ∈ st'.inner.outstandingPulls

theorem Began.of_idle (ha : st'.admissions = st.admissions) (hb : st'.batch = none)
    (hq : ∀ p, st'.inner.queues.queueOf p = st.inner.queues.queueOf p)
    (hn : st'.inner.store.nextEnvelope = st.inner.store.nextEnvelope)
    (hp : st'.inner.policy = st.inner.policy)
    (houtlives : st.inner.store.Outlives st'.inner.store) : Began s st st' := by
  have hr : st'.rest = [] := by rw [rest, hb]; rfl
  refine ⟨ha, hn, hp, fun _ => houtlives, by rw [returned, hb]; rfl, by simp [hr],
    fun p => ⟨[], by simp [hq], by simp [hr, RouterInner.Pull.forPlugin],
      fun _ => by simp [hr, RouterInner.Pull.forPlugin]⟩, fun _ => by simp [hr]⟩

theorem beginSlice_spec (h : st.Sound policy future flown 0) (hbatch : st.batch = none)
    (s : SliceStart) :
    ∃ st' flown', st.beginSlice s = some st' ∧ st'.Sound policy future flown' 0 ∧
      Began s st st' := by
  obtain ⟨parked, st₁, flown₁, hflush, h₁, hf⟩ := flush_spec h s.retire s.retireAgain
  have hq := hf.quiet
  have hbatch₁ : st₁.batch = none := hf.batch_eq.trans hbatch
  have hi (inner' : RouterInner) (ha : Alike st₁.inner inner') (p : String) :
      inner'.queues.queueOf p = st.inner.queues.queueOf p := by
    rw [ha.queue_eq, hq.queues_eq]
  unfold beginSlice
  simp only [hflush, bind_eq_bind, bind_some]
  split
  · exact ⟨st₁, flown₁, rfl, h₁, .of_idle hf.admissions_eq hbatch₁
      (fun p => by rw [hq.queues_eq]) hq.next_eq hq.policy_eq hq.outlives⟩
  have hsettled := h₁.settled
  have hr₁ : st₁.restCopies = 0 := by rw [restCopies, rest, hbatch₁]; rfl
  rw [hr₁, add_zero] at hsettled
  obtain ⟨pulled, inner', hpull, hp⟩ :=
    pullTwice_spec hsettled st₁.engineUnparkDue s.attempt s.again
  rw [hpull, bind_some]
  cases hp with
  | busy hm ha =>
    refine ⟨_, flown₁, rfl, h₁.moves (by rw [hr₁, add_zero]; exact hm)
      (ha.store_eq ▸ Progress.refl _ _) rfl rfl h₁.owed_le, .of_idle hf.admissions_eq
      hbatch₁ (hi inner' ha) ?_ ?_ ?_⟩
    · exact ha.store_eq ▸ hq.next_eq
    · exact ha.policy_eq.trans hq.policy_eq
    · exact ha.store_eq ▸ hq.outlives
  | @batch batch attempt hmem unparked ha hm hprogress hsizes hlength used readings
      ht =>
      -- an empty batch starts no loop, but nothing is left of it either
      have hbegan (st' : EventDelivery) (hinner : st'.inner = inner') (hr : st'.rest = batch)
          (hreturned : st'.returned = ∅) (hadmissions : st'.admissions = st₁.admissions)
          (howed : st'.owed = st₁.owed) :
          st'.Sound policy future flown₁ 0 ∧ Began s st st' := by
        subst hinner hr
        refine ⟨⟨hm.settled, howed ▸ h₁.owed_le, hsizes, hm.policy_eq.trans h₁.policy_eq, ?_⟩, ?_⟩
        · refine nodup_of_le (add_le_add_left hm.supply_le future) ?_
          rw [add_zero]
          exact h₁.unique
        have hunexpired (hu : st.Unexpired s) :
            RouterInner.Pull.Unexpired attempt.limits ⟨unparked, [], 0, 0⟩ := by
          intro r id e hl
          rw [ha.store_eq] at hl
          obtain ⟨envelope₀, hl₀, he, -⟩ := hq.outlives id e hl
          rw [he, ha.policy_eq, hq.policy_eq]
          exact hu attempt hmem r id envelope₀ hl₀
        refine ⟨hadmissions.trans hf.admissions_eq, ?_, ?_, fun hu => ?_, hreturned,
          hlength, fun p => ?_, fun hle => ?_⟩
        · rw [ht.next_eq, ha.store_eq, hq.next_eq]
        · rw [ht.policy_eq, ha.policy_eq, hq.policy_eq]
        · rw [ht.store_eq (hunexpired hu), ha.store_eq]
          exact hq.outlives
        · obtain ⟨t, hqueue, hsub, hall⟩ := ht.queue p
          exact ⟨t, by rw [← hqueue, hi unparked ha], hsub, fun hu => hall (hunexpired hu)⟩
        have hn : unparked.nextPull = st.inner.nextPull := ha.nextPull_eq.trans hq.nextPull_eq
        obtain ⟨-, hids, hpulls⟩ := ht.numbered (by rw [hn]; exact hle)
        refine ⟨by rw [hids]; exact nodup_range', fun d hd => ?_⟩
        rw [hpulls]
        exact Finset.mem_union_right _ (List.mem_toFinset.mpr (List.mem_map_of_mem hd))
      cases hb : batch with
      | nil =>
        obtain ⟨hsound, hdone⟩ := hbegan { st₁ with inner := inner', engineUnparkDue := false } rfl
          (by rw [hb, rest, hbatch₁]; rfl) (by rw [returned, hbatch₁]; rfl) rfl rfl
        exact ⟨_, flown₁, rfl, hsound, hdone⟩
      | cons d rest =>
        obtain ⟨hsound, hdone⟩ := hbegan
          { st₁ with inner := inner', engineUnparkDue := false, batch := some ⟨d :: rest, ∅⟩ }
          rfl hb.symm rfl rfl rfl
        exact ⟨_, flown₁, rfl, hsound, hdone⟩

def Answer.givesUp : Answer → Bool
  | .noHandler | .noScope | .admissionRefused | .notQueued => true
  | _ => false

def Answer.refuses : Answer → Bool
  | .causalRefused _ | .engineRefused => true
  | _ => false

/-- A turn gave its delivery up, returned it to the front of its queue, or saw it admitted. -/
inductive Turned (d : ReadyDelivery) (answer : Answer) (st st' : EventDelivery) : Prop
  | gaveUp (hbatch : st'.batch = st.batch) (hadmissions : st'.admissions = st.admissions)
      (hqueue : ∀ plugin, (st'.inner.queues.queueOf plugin).copies =
        (st.inner.queues.queueOf plugin).copies)
  | returned (hanswer : answer.givesUp = false)
      (hbatch : st'.batch = (st.noteReturned d.holder.pluginKey).batch)
      (hadmissions : st'.admissions = st.admissions)
      (hqueue : ∀ plugin, (st'.inner.queues.queueOf plugin).copies =
        if plugin = d.holder.pluginKey then d.copy :: (st.inner.queues.queueOf plugin).copies
        else (st.inner.queues.queueOf plugin).copies)
  | admitted (hanswer : answer.givesUp = false) (hbatch : st'.batch = st.batch)
      (hadmissions : st'.admissions = st.admissions ++
        [⟨d.holder.pluginKey, d.envelopeId, st.waiting d.holder.pluginKey⟩])
      (hqueue : ∀ plugin, (st'.inner.queues.queueOf plugin).copies =
        (st.inner.queues.queueOf plugin).copies)

def holderOf (d : ReadyDelivery) : Multiset (ℕ × String × ℕ) := {EnvelopeStore.claimKey d.copy}

theorem owes_eventFlight (d : ReadyDelivery) (s : Option ℕ) (r : String) :
    (eventFlight d s r).owes = holderOf d := rfl

variable {d : ReadyDelivery}

theorem giveUp_spec (h : st.Sound policy future flown (holderOf d)) (r : Reply) :
    ∃ st' flown', st.giveUp d r = some st' ∧ st'.Sound policy future flown' 0 ∧ Frame st st' :=
  retireOrQueue_spec (by rw [owes_eventFlight, add_zero]; exact h) r.retire

/-- A refused delivery goes back to its queue, or it is given up when the router refuses that. -/
theorem returnDelivery_spec (h : st.Sound policy future (d.copy ::ₘ flown) (holderOf d))
    (hsize : d.size = st.inner.store.size d.envelopeId) (e : Bool) (reply : Reply)
    (hr : reply.answer.givesUp = false) :
    ∃ st' flown', st.returnDelivery d e reply = some st' ∧ st'.Sound policy future flown' 0 ∧
      st'.inner.store.nextEnvelope = st.inner.store.nextEnvelope ∧
      Turned d reply.answer st st' := by
  have gaveUp {st₁ : EventDelivery} (h₁ : st₁.Sound policy future (d.copy ::ₘ flown) (holderOf d))
      (hbatch : st₁.batch = st.batch) (ha : st₁.admissions = st.admissions)
      (hq : ∀ p, st₁.inner.queues.queueOf p = st.inner.queues.queueOf p)
      (hn : st₁.inner.store = st.inner.store) :
      ∃ st' flown', st₁.giveUp d reply = some st' ∧ st'.Sound policy future flown' 0 ∧
        st'.inner.store.nextEnvelope = st.inner.store.nextEnvelope ∧
        Turned d reply.answer st st' := by
    obtain ⟨st', flown', hstep, h', hf⟩ := giveUp_spec h₁ reply
    refine ⟨st', flown', hstep, h', by rw [hf.quiet.next_eq, hn],
      .gaveUp (hf.batch_eq.trans hbatch) (hf.admissions_eq.trans ha)
      fun p => ?_⟩
    rw [hf.quiet.queues_eq, hq]
  unfold returnDelivery
  split
  · exact gaveUp h rfl rfl (fun _ => rfl) rfl
  have hsettled := h.settled
  rw [cons_add] at hsettled
  obtain ⟨envelope, hl, -⟩ := hsettled.balanced.holders.live d.copy (by simp)
  obtain ⟨r, inner', hstep, hstore, hm⟩ := hsettled.requeue hsize e
  rw [hstep, bind_some]
  cases r with
  | ok =>
    refine ⟨_, flown, rfl, h.moves hm (hstore ▸ Progress.refl _ _) rfl ?_ ?_, ?_,
      .returned hr rfl rfl fun p => ?_⟩
    · cases hb : st.batch <;> simp [rest, noteReturned, hb]
    · have howed := h.owed_le
      rw [holderOf, Multiset.map_cons, Multiset.singleton_add] at howed
      rw [zero_add]
      exact (cons_le_cons_iff _).mp howed
    · exact congrArg EnvelopeStore.nextEnvelope hstore
    · exact RouterInner.copies_requeue hstep (isSome_iff_exists.mpr ⟨envelope, hl⟩) p
  | error =>
    have hm' : Moves (d.copy ::ₘ flown + st.restCopies) 0 st.inner inner' := by
      rw [cons_add]
      exact hm
    exact gaveUp (h.moves hm' (hstore ▸ Progress.refl _ _) rfl rfl h.owed_le) rfl rfl
      (RouterInner.copies_requeue_error hstep) hstore

theorem admitDelivery_spec (h : st.Sound policy future flown (holderOf d)) (s : ℕ) (r : Reply) :
    (st.admitDelivery d s r).Sound policy future flown 0 ∧
      (st.admitDelivery d s r).inner.store.nextEnvelope = st.inner.store.nextEnvelope := by
  obtain ⟨hm, hp⟩ := h.settled.noteAdmitted d.envelopeId d.holder.holderKey
  have hn : Moves (flown + st.restCopies) 0 st.inner (st.admitDelivery d s r).inner ∧
      Progress (flown + st.restCopies) st.inner.store (st.admitDelivery d s r).inner.store ∧
      (st.admitDelivery d s r).inner.store.nextEnvelope = st.inner.store.nextEnvelope := by
    unfold admitDelivery
    split
    · exact ⟨h.settled.refl, Progress.refl _ _, rfl⟩
    · exact ⟨hm, hp, EnvelopeStore.next_noteAdmitted ..⟩
  refine ⟨h.moves hn.1 hn.2.1 rfl rfl ?_, hn.2.2⟩
  -- a flight with the same request id is replaced
  have hi : (st.admitDelivery d s r).owed ≤ holderOf d + st.owed := by
    have hf := owes_eventFlight d (some s) (packageEventRequestId d)
    have hothers : (st.eventInFlight.erase (packageEventRequestId d)).total
        owes ≤ st.eventInFlight.total owes := by
      refine total_le_of_lookup_le _ _ _ fun requestId => ?_
      rw [lookup_erase_eq]
      split
      · exact zero_le _
      · exact le_rfl
    simp only [owed, admitDelivery]
    rw [total_insert_eq, hf, add_assoc]
    exact add_le_add_right (add_le_add_left hothers _) _
  rw [zero_add]
  exact hi.trans h.owed_le

theorem deliver_spec (h : st.Sound policy future (d.copy ::ₘ flown) (holderOf d))
    (hsize : d.size = st.inner.store.size d.envelopeId) (r : Reply) :
    ∃ st' flown', st.deliver d r = some st' ∧ st'.Sound policy future flown' 0 ∧
      st'.inner.store.nextEnvelope = st.inner.store.nextEnvelope ∧ Turned d r.answer st st' := by
  have gaveUp : ∃ st' flown', st.giveUp d r = some st' ∧ st'.Sound policy future flown' 0 ∧
      st'.inner.store.nextEnvelope = st.inner.store.nextEnvelope ∧ Turned d r.answer st st' := by
    obtain ⟨st', flown', hstep, h', hf⟩ := giveUp_spec h r
    exact ⟨st', flown', hstep, h', hf.quiet.next_eq,
      .gaveUp hf.batch_eq hf.admissions_eq fun p => by rw [hf.quiet.queues_eq]⟩
  unfold deliver
  cases hanswer : r.answer with
  | noHandler | noScope | admissionRefused | notQueued =>
    rw [hanswer] at gaveUp
    exact gaveUp
  | causalRefused f =>
    have hblocked : Sound policy future (d.copy ::ₘ flown) (holderOf d) { st with
        eventCausalBlocked := true
        eventCausalFaulted := st.eventCausalFaulted || f } := h.same rfl rfl rfl
    obtain ⟨st', flown', hstep, h', hn, ht⟩ :=
      returnDelivery_spec hblocked hsize false r (by rw [hanswer]; rfl)
    refine ⟨st', flown', hstep, h', hn, ?_⟩
    rw [hanswer] at ht
    cases ht with
    | gaveUp hb ha hq => exact .gaveUp hb ha hq
    | returned hg hb ha hq => exact .returned hg hb ha hq
    | admitted hg hb ha hq => exact .admitted hg hb ha hq
  | engineRefused =>
    obtain ⟨st', flown', hstep, h', hn, ht⟩ :=
      returnDelivery_spec h hsize true r (by rw [hanswer]; rfl)
    rw [hanswer] at ht
    exact ⟨st', flown', hstep, h', hn, ht⟩
  | queued s =>
    obtain ⟨h', hn⟩ := admitDelivery_spec h s r
    refine ⟨_, _, rfl, h', hn, .admitted rfl rfl rfl fun p => ?_⟩
    unfold admitDelivery
    split <;> rfl

theorem endLoop_rest (st : EventDelivery) : st.endLoop.rest = st.rest := by
  cases hb : st.batch with
  | none => simp [endLoop, rest, hb]
  | some batch =>
    obtain ⟨rest, returned⟩ := batch
    cases rest <;> simp [endLoop, rest, hb, Option.filter]

theorem endLoop_of_rest_ne_nil (h : st.rest ≠ []) : st.endLoop = st := by
  have hbatch : (st.batch.filter fun batch => !batch.rest.isEmpty) = st.batch := by
    cases hb : st.batch with
    | none => rfl
    | some batch =>
      rw [rest, hb] at h
      simp [Option.filter, show batch.rest ≠ [] from h]
  rw [endLoop, hbatch]

theorem next_spec (h : st.Sound policy future flown 0)
    {rest : List ReadyDelivery} {r : Finset String}
    (hb : st.batch = some ⟨d :: rest, r⟩) (reply : Reply) :
    ∃ st' flown', { st with batch := some ⟨rest, r⟩ }.deliver d reply = some st' ∧
      st'.Sound policy future flown' 0 ∧
      st'.inner.store.nextEnvelope = st.inner.store.nextEnvelope ∧
      Turned d reply.answer { st with batch := some ⟨rest, r⟩ } st' := by
  have hr : st.rest = d :: rest := by rw [EventDelivery.rest, hb]; rfl
  have ht : Sound policy future (d.copy ::ₘ flown) (holderOf d)
      { st with batch := some ⟨rest, r⟩ } := ?_
  · exact deliver_spec ht (h.sizes d (by rw [hr]; exact mem_cons_self)) reply
  refine ⟨?_, ?_, fun e he => h.sizes e ?_, h.policy_eq, h.unique⟩
  · have hsettled := h.settled
    rw [restCopies, hr, List.map_cons, ← Multiset.cons_coe, Multiset.add_cons] at hsettled
    rw [cons_add]
    exact hsettled
  · have howed := h.owed_le
    rw [zero_add] at howed
    rw [holderOf, Multiset.map_cons, Multiset.singleton_add]
    exact (cons_le_cons_iff _).mpr howed
  · rw [hr]
    exact mem_cons_of_mem _ he

theorem complete_spec (h : st.Sound policy future flown 0) (r : String) (a : RetireAnswer) :
    ∃ st' flown', st.applyPluginCompletion r a = some st' ∧
      st'.Sound policy future flown' 0 ∧ Frame st st' := by
  unfold applyPluginCompletion
  split
  · exact ⟨st, flown, rfl, h, rfl, rfl, .refl _⟩
  next flight hl =>
  have howed := h.owed_le
  rw [zero_add, owed, total_erase _ _ hl, add_assoc] at howed
  have he : Sound policy future flown (flight.owes + 0)
      { st with eventInFlight := st.eventInFlight.erase r } :=
    h.moves h.settled.refl (Progress.refl _ _) rfl rfl (by rw [add_zero]; exact howed)
  obtain ⟨st', flown', hstep, h', hf⟩ := retireOrQueue_spec he a
  exact ⟨st', flown', hstep, h', hf.batch_eq, hf.admissions_eq, hf.quiet⟩

private def heldCopy (s : EnvelopeStore) (copy : QueuedCopy) : ReadyDelivery :=
  ⟨copy.envelopeId, "", "", [], .null, s.size copy.envelopeId, copy.holder, 0⟩

theorem otherCaller_spec (e : Json → Option (List UInt8)) (op : Op)
    (h : st.Sound policy (Registry.generationsOf op.staged + future) flown 0) :
    ∃ st', st.otherCaller e op = some st' ∧ st'.Sound policy future flown 0 ∧
      st'.batch = st.batch ∧ st'.admissions = st.admissions ∧
      RouterInner.Advances st.inner st'.inner := by
  unfold otherCaller
  split
  · refine ⟨st, rfl, ⟨h.settled, h.owed_le, h.sizes, h.policy_eq, ?_⟩, rfl, rfl,
      .of_queues_eq rfl rfl⟩
    exact nodup_of_le (add_le_add_right (le_add_left _ _) _) h.unique
  next hdelivers =>
  -- the deliveries of the slice stand in the world of the other callers as held ones
  set out := flown + st.restCopies
  set held := out.toList.map (heldCopy st.inner.store)
  have hp : ((held.map ReadyDelivery.copy : List QueuedCopy) : Multiset QueuedCopy) =
      out := by
    rw [List.map_map]
    refine Eq.trans (congrArg _ (map_id'' (fun _ => rfl) _)) ?_
    exact coe_toList out
  have hworld : World.Invariant policy (Registry.generationsOf op.staged + future)
      ⟨st.inner, held, [], st.works⟩ :=
    { settled := by
        rw [World.pulled, hp]
        exact h.settled
      policy_eq := h.policy_eq
      sizes := fun d hd => by
        obtain ⟨copy, -, rfl⟩ := mem_map.mp hd
        rfl
      done := fun d hd => by cases hd
      unique := h.unique }
  obtain ⟨w', hstep, hw'⟩ := World.step_invariant e op hworld
  have hb : World.step e ⟨st.inner, held, [], st.works⟩ op =
      (World.step e ⟨st.inner, [], [], st.works⟩ op).map fun w' =>
        { w' with held := held, spent := [] } :=
    World.step_held (by simpa using hdelivers) st.inner held [] st.works
  rw [hb] at hstep
  obtain ⟨w₀, hstep₀, rfl⟩ := map_eq_some_iff.mp hstep
  rw [hstep₀, map_some]
  have hsettled := hw'.settled
  rw [World.pulled, hp] at hsettled
  refine ⟨_, rfl, ⟨hsettled, h.owed_le, fun d hd => ?_, hw'.policy_eq, hw'.unique⟩, rfl, rfl,
    World.step_advances (by simpa using hdelivers) hstep₀⟩
  have hm : heldCopy st.inner.store d.copy ∈ held := by
    refine mem_map_of_mem (mem_toList.mpr (mem_add.mpr (.inr ?_)))
    exact mem_coe.mpr (mem_map_of_mem hd)
  exact (h.sizes d hd).trans (hw'.sizes _ hm)

end EventDelivery

end BotsterHub.Maintenance
