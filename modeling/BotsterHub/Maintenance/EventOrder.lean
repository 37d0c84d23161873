import BotsterHub.Maintenance.EventFlights

/-!
The order in which a consumer receives its events.

A refused delivery returns to the front of its queue, so several of one batch return in reverse,
and one behind a refused one may be admitted before it. `Orderly` excludes both: after returning a
delivery of a consumer the loop gives up its others in the batch.
-/

namespace BotsterHub.Maintenance.EventDelivery

open Multiset List Option Finset

open Router
open Router.RouterInner.Pull (forPlugin)

variable {policy : Policy} {future : Multiset ℕ} {flown : Multiset QueuedCopy}
  {st st' : EventDelivery} {encode : Json → Option (List UInt8)}

def admittedTo (st : EventDelivery) (plugin : String) : List ℕ :=
  (st.admissions.filter fun a => a.plugin = plugin).map Admission.envelopeId

/-- Every consumer was admitted its events in the order of acceptance, none while an earlier one was
open. -/
structure InOrder (st : EventDelivery) : Prop where
  sorted : ∀ plugin, (st.admittedTo plugin).Pairwise (· ≤ ·)
  none_earlier : ∀ a ∈ st.admissions, ∀ id ∈ a.waiting, a.envelopeId ≤ id

/-- After a delivery of a consumer was returned, the loop gives up the others. -/
def Orderly (st : EventDelivery) : Step → Prop
  | .next reply => ∀ d ∈ st.rest.head?,
      d.holder.pluginKey ∈ st.returned → reply.answer.givesUp = true
  | _ => True

instance (st : EventDelivery) : DecidablePred st.Orderly
  | .next reply => inferInstanceAs (Decidable (∀ d ∈ st.rest.head?,
      d.holder.pluginKey ∈ st.returned → reply.answer.givesUp = true))
  | .beginSlice _ | .complete _ _ | .causalProgress | .engineReleased | .other _ =>
    isTrue trivial

/-- The events that the consumer may still be admitted, in order. Once one was returned, the rest of
the batch is given up. -/
def line (st : EventDelivery) (plugin : String) : List ℕ :=
  if plugin ∈ st.returned then st.queued plugin else st.waiting plugin

theorem line_of_rest_nil (h : st.rest = []) (p : String) : st.line p = st.queued p := by
  rw [line, waiting, h]
  exact ite_self _

theorem line_congr (hb : st'.batch = st.batch)
    (hq : (st'.inner.queues.queueOf p).copies = (st.inner.queues.queueOf p).copies) :
    st'.line p = st.line p := by
  rw [line, line, waiting, waiting, returned, returned, rest, rest, hb, queued, hq]
  rfl

structure Ordered (st : EventDelivery) : Prop where
  sorted : ∀ plugin, (st.admittedTo plugin ++ st.line plugin).Pairwise (· ≤ ·)
  admitted_lt : ∀ a ∈ st.admissions, a.envelopeId < st.inner.store.nextEnvelope
  none_earlier : ∀ a ∈ st.admissions, ∀ id ∈ a.waiting, a.envelopeId ≤ id

theorem Ordered.inOrder (h : st.Ordered) : st.InOrder :=
  ⟨fun p => (pairwise_append.mp (h.sorted p)).1, h.none_earlier⟩

theorem ordered_new (policy : Policy) (s : Json → Bool) : (new policy s).Ordered where
  sorted plugin := Pairwise.nil
  admitted_lt a ha := by cases ha
  none_earlier a ha := by cases ha

theorem Ordered.sublist (h : st.Ordered) (ha : st'.admissions = st.admissions)
    (hn : st'.inner.store.nextEnvelope = st.inner.store.nextEnvelope)
    (hl : ∀ p, (st'.line p).Sublist (st.line p)) : st'.Ordered where
  sorted p := by
    rw [admittedTo, ha]
    exact (h.sorted p).sublist ((Sublist.refl _).append (hl p))
  admitted_lt := by
    rw [ha, hn]
    exact h.admitted_lt
  none_earlier := by
    rw [ha]
    exact h.none_earlier

variable {extra : Multiset (ℕ × String × ℕ)}

theorem Sound.waiting_lt (h : st.Sound policy future flown extra) (p : String) :
    ∀ id ∈ st.waiting p, id < st.inner.store.nextEnvelope := by
  have hclaims : ∀ copy ∈ st.inner.queues.copies + st.restCopies,
      copy.envelopeId < st.inner.store.nextEnvelope := by
    intro copy hc
    obtain ⟨envelope, hlive, -⟩ := h.settled.balanced.holders.live copy (by
      rcases mem_add.mp hc with hc | hc <;> simp [hc])
    have hl := (EnvelopeStore.liveEnvelope_eq_some.mp hlive).1
    exact (h.settled.balanced.exact.id_eq _ _ hl).2
  intro id hid
  rcases mem_append.mp hid with hid | hid
  · obtain ⟨d, hd, rfl⟩ := mem_map.mp hid
    refine hclaims d.copy (mem_add.mpr (.inr (mem_coe.mpr ?_)))
    exact mem_map_of_mem (mem_of_mem_filter hd)
  · obtain ⟨copy, hc, rfl⟩ := mem_map.mp hid
    exact hclaims copy (mem_add.mpr (.inl (Queues.mem_copies.mpr ⟨p, hc⟩)))

theorem Ordered.advances (h : st.Ordered)
    (hs : st.Sound policy future flown extra) (hb : st'.batch = st.batch)
    (hadmissions : st'.admissions = st.admissions)
    (hadv : RouterInner.Advances st.inner st'.inner) : st'.Ordered := by
  refine ⟨fun p => ?_, fun a ha => ?_, fun a ha => h.none_earlier a (hadmissions ▸ ha)⟩
  · obtain ⟨kept, fresh, hqueue, hk, hf, hi⟩ := hadv.queue p
    have hr : st'.rest = st.rest := (by rw [rest, rest, hb])
    have hq : st'.queued p = kept.map QueuedCopy.envelopeId ++ fresh.map QueuedCopy.envelopeId := by
      rw [queued, hqueue, map_append]
    obtain ⟨f, hl, hfront⟩ : ∃ f, st'.line p =
        f ++ fresh.map QueuedCopy.envelopeId ∧ f.Sublist (st.line p) := by
      rw [line, line, waiting, waiting, returned, returned, hb, hr, hq]
      split
      · exact ⟨_, rfl, hk.map _⟩
      · exact ⟨_, (append_assoc ..).symm, (Sublist.refl _).append (hk.map _)⟩
    have hadmitted : st'.admittedTo p = st.admittedTo p := by
      rw [admittedTo, hadmissions]
      rfl
    rw [hadmitted, hl, ← append_assoc]
    have hold := (Sublist.refl (st.admittedTo p)).append hfront
    refine pairwise_append.mpr ⟨(h.sorted p).sublist hold, ?_, fun id hid id' hid' => ?_⟩
    · exact pairwise_map.mpr hf
    obtain ⟨copy, hc, rfl⟩ := mem_map.mp hid'
    refine (Nat.le_of_lt ?_).trans (hi copy hc)
    rcases mem_append.mp (hold.subset hid) with hid | hid
    · obtain ⟨a, ha, rfl⟩ := mem_map.mp hid
      exact h.admitted_lt a (mem_of_mem_filter ha)
    refine hs.waiting_lt p id ?_
    rw [line] at hid
    split at hid
    · exact mem_append_right _ hid
    · exact hid
  · rw [hadmissions] at ha
    exact (h.admitted_lt a ha).trans_le hadv.next_le

theorem Ordered.began (h : st.Ordered) (hbatch : st.batch = none)
    (hb : Began s st st') : st'.Ordered := by
  refine h.sublist hb.admissions_eq hb.next_eq fun p => ?_
  obtain ⟨taken, hq, hs, -⟩ := hb.queue p
  have hr : st.rest = [] := by rw [rest, hbatch]; rfl
  rw [line_of_rest_nil hr, line, hb.returned_eq, if_neg (notMem_empty _), waiting, queued, queued,
    hq, map_append]
  refine List.Sublist.append ?_ (List.Sublist.refl _)
  rw [show (forPlugin p st'.rest).map ReadyDelivery.envelopeId =
    ((forPlugin p st'.rest).map ReadyDelivery.copy).map QueuedCopy.envelopeId by
      rw [List.map_map]; rfl]
  exact hs.map _

theorem endLoop_line (st : EventDelivery) (p : String) : st.endLoop.line p = st.line p := by
  by_cases hr : st.rest = []
  · rw [line_of_rest_nil hr, line_of_rest_nil (st.endLoop_rest.trans hr)]
    rfl
  · rw [endLoop_of_rest_ne_nil hr]

section

variable {d : ReadyDelivery} {rest : List ReadyDelivery} {returned : Finset String}
  (h : Ordered { st with batch := some ⟨d :: rest, returned⟩ })
  (hn : st'.inner.store.nextEnvelope = st.inner.store.nextEnvelope)

theorem waiting_cons (st : EventDelivery) (d : ReadyDelivery) (rest : List ReadyDelivery)
    (returned : Finset String) (p : String) :
    waiting { st with batch := some ⟨d :: rest, returned⟩ } p =
      (if p = d.holder.pluginKey then [d.envelopeId] else []) ++
        waiting { st with batch := some ⟨rest, returned⟩ } p := by
  by_cases hp : p = d.holder.pluginKey
  · simp [waiting, EventDelivery.rest, forPlugin, hp, queued]
  · simp [waiting, EventDelivery.rest, forPlugin, hp, Ne.symm hp, queued]

include h hn

theorem Ordered.gaveBack (hf : d.holder.pluginKey ∉ returned)
    (hb : st'.batch = some ⟨rest, insert d.holder.pluginKey returned⟩)
    (hadmissions : st'.admissions = st.admissions)
    (hq : ∀ p, (st'.inner.queues.queueOf p).copies =
      if p = d.holder.pluginKey then d.copy :: (st.inner.queues.queueOf p).copies
      else (st.inner.queues.queueOf p).copies) : st'.Ordered := by
  refine h.sublist hadmissions hn fun p => ?_
  have hreturned : st'.returned = insert d.holder.pluginKey returned := by
    rw [EventDelivery.returned, hb]
    rfl
  have hrest : st'.rest = rest := by
    rw [EventDelivery.rest, hb]
    rfl
  have hqueued : st'.queued p =
      (if p = d.holder.pluginKey then [d.envelopeId] else []) ++ st.queued p := by
    rw [queued, hq]
    split <;> rfl
  rw [line, line, waiting_cons, waiting, hreturned, hrest, hqueued]
  change (if p ∈ insert _ returned then _ else _ : List ℕ).Sublist (if p ∈ returned then _ else _)
  by_cases hp : p = d.holder.pluginKey
  · subst hp
    rw [if_pos (mem_insert_self _ _), if_neg hf, if_pos rfl]
    exact (Sublist.refl _).append (sublist_append_right _ _)
  rw [if_neg hp, nil_append, nil_append]
  by_cases hr : p ∈ returned
  · rw [if_pos (mem_insert_of_mem hr), if_pos hr]
    exact Sublist.refl _
  · rw [if_neg (by simp [hp, hr]), if_neg hr]
    exact Sublist.refl _

theorem Ordered.admitted (hf : d.holder.pluginKey ∉ returned)
    (hadmitted : d.envelopeId < st.inner.store.nextEnvelope)
    (hadmissions : st'.admissions = st.admissions ++ [⟨d.holder.pluginKey, d.envelopeId,
      waiting { st with batch := some ⟨rest, returned⟩ } d.holder.pluginKey⟩])
    (hl : ∀ p, st'.line p = line { st with batch := some ⟨rest, returned⟩ } p) :
    st'.Ordered := by
  have hfirst : line { st with batch := some ⟨d :: rest, returned⟩ } d.holder.pluginKey =
      d.envelopeId :: waiting { st with batch := some ⟨rest, returned⟩ } d.holder.pluginKey := by
    rw [line, waiting_cons, if_pos rfl]
    exact if_neg hf
  have hfront := h.sorted d.holder.pluginKey
  rw [hfirst] at hfront
  refine ⟨fun p => ?_, fun a ha => ?_, fun a ha => ?_⟩
  · suffices hm : st'.admittedTo p ++ st'.line p = admittedTo st p ++
        line { st with batch := some ⟨d :: rest, returned⟩ } p by
      rw [hm]
      exact h.sorted p
    rw [admittedTo, hadmissions, filter_append, map_append, hl]
    by_cases hp : p = d.holder.pluginKey
    · subst hp
      rw [hfirst, line]
      change _ ++ (if d.holder.pluginKey ∈ returned then _ else _) = _
      rw [if_neg hf]
      simp [admittedTo]
    · have hs : line { st with batch := some ⟨d :: rest, returned⟩ } p =
          line { st with batch := some ⟨rest, returned⟩ } p := by
        rw [line, line, waiting_cons, if_neg hp, nil_append]
        rfl
      rw [hs]
      simp [admittedTo, Ne.symm hp]
  all_goals
    rw [hadmissions] at ha
    rcases mem_append.mp ha with ha | ha
  · exact hn ▸ h.admitted_lt a ha
  · rw [List.mem_singleton.mp ha, hn]
    exact hadmitted
  · exact h.none_earlier a ha
  · rw [List.mem_singleton.mp ha]
    exact (pairwise_cons.mp (pairwise_append.mp hfront).2.1).1

/-- A turn for a consumer to which none was returned takes the first event of its line; any other
gives its delivery up. -/
theorem Ordered.turned (hanswer : d.holder.pluginKey ∈ returned → answer.givesUp = true)
    (hadmitted : d.envelopeId < st.inner.store.nextEnvelope)
    (ht : Turned d answer { st with batch := some ⟨rest, returned⟩ } st') : st'.Ordered := by
  have hf (hg : answer.givesUp = false) : d.holder.pluginKey ∉ returned := fun hr => by
    rw [hanswer hr] at hg
    cases hg
  cases ht with
  | gaveUp hb hadmissions hq =>
    refine h.sublist hadmissions hn fun p => ?_
    rw [line_congr hb (hq p), line, line, waiting_cons]
    change (if p ∈ returned then _ else _ : List ℕ).Sublist (if p ∈ returned then _ else _)
    split
    · exact Sublist.refl _
    · exact sublist_append_right _ _
  | returned hg hb hadmissions hq => exact h.gaveBack hn (hf hg) hb hadmissions hq
  | admitted hg hb hadmissions hq =>
    exact h.admitted hn (hf hg) hadmitted hadmissions fun p => line_congr hb (hq p)

end

theorem Ordered.frame (h : st.Ordered) (hb : st'.batch = st.batch)
    (ha : st'.admissions = st.admissions)
    (hq : st'.inner.queues = st.inner.queues)
    (hn : st'.inner.store.nextEnvelope = st.inner.store.nextEnvelope) : st'.Ordered := by
  refine h.sublist ha hn fun p => ?_
  rw [line_congr hb (by rw [hq])]

def Good (policy : Policy) (future : Multiset ℕ) (st : EventDelivery) : Prop :=
  (∃ flown, st.Sound policy future flown 0) ∧ st.Ordered

theorem step_good (s : Step)
    (h : st.Good policy (Registry.generationsOf s.staged + future)) (horderly : st.Orderly s) :
    ∃ st', st.step encode s = some st' ∧ st'.Good policy future := by
  obtain ⟨⟨flown, hsound⟩, ho⟩ := h
  have same (hs : s.staged = []) : st.Good policy future := by
    rw [hs] at hsound
    change Sound policy (0 + future) flown 0 st at hsound
    rw [zero_add] at hsound
    exact ⟨⟨flown, hsound⟩, ho⟩
  cases s with
  | beginSlice start =>
    obtain ⟨⟨flown, hsound⟩, ho⟩ := same rfl
    rw [step]
    split
    · exact ⟨st, rfl, ⟨flown, hsound⟩, ho⟩
    next hn =>
    have hb : st.batch = none := by simpa using hn
    obtain ⟨st', flown', hstep, h', hbegan⟩ := beginSlice_spec hsound hb start
    exact ⟨st', hstep, ⟨flown', h'⟩, ho.began hb hbegan⟩
  | next reply =>
    obtain ⟨⟨flown, hsound⟩, ho⟩ := same rfl
    rw [step]
    split
    · next d rest returned hb =>
      obtain ⟨st', flown', hstep, h', hnext, ht⟩ := next_spec hsound hb reply
      have hrest : st.rest = d :: rest := by rw [EventDelivery.rest, hb]; rfl
      have hreturned : st.returned = returned := by rw [EventDelivery.returned, hb]; rfl
      rw [hstep, map_some]
      refine ⟨_, rfl, ⟨flown', h'.same rfl (endLoop_rest st') rfl⟩, ?_⟩
      have hst : st = { st with batch := some ⟨d :: rest, returned⟩ } := by rw [← hb]
      rw [hst] at ho
      have hturn := ho.turned hnext
        (fun hr => horderly d (by rw [hrest]; rfl) (by rw [hreturned]; exact hr))
        (hsound.waiting_lt d.holder.pluginKey d.envelopeId (by simp [waiting, hrest, forPlugin])) ht
      exact hturn.sublist rfl rfl fun plugin => by rw [endLoop_line]
    · exact ⟨st, rfl, ⟨flown, hsound⟩, ho⟩
  | complete r a =>
    obtain ⟨⟨flown, hsound⟩, ho⟩ := same rfl
    rw [step]
    split
    · exact ⟨st, rfl, ⟨flown, hsound⟩, ho⟩
    obtain ⟨st', flown', hstep, h', hf⟩ := complete_spec hsound r a
    exact ⟨st', hstep, ⟨flown', h'⟩, ho.frame hf.batch_eq hf.admissions_eq
      hf.quiet.queues_eq hf.quiet.next_eq⟩
  | causalProgress =>
    obtain ⟨⟨flown, hsound⟩, ho⟩ := same rfl
    rw [step]
    split
    · exact ⟨st, rfl, ⟨flown, hsound⟩, ho⟩
    refine ⟨_, rfl, ?_⟩
    unfold noteCausalCapacityProgress
    split
    · exact ⟨⟨flown, hsound.same rfl rfl rfl⟩, ho.frame rfl rfl rfl rfl⟩
    · exact ⟨⟨flown, hsound⟩, ho⟩
  | engineReleased =>
    obtain ⟨⟨flown, hsound⟩, ho⟩ := same rfl
    rw [step]
    split
    · exact ⟨st, rfl, ⟨flown, hsound⟩, ho⟩
    refine ⟨_, rfl, ?_⟩
    unfold noteEngineReleased
    split
    · exact ⟨⟨flown, hsound.same rfl rfl rfl⟩, ho.frame rfl rfl rfl rfl⟩
    · exact ⟨⟨flown, hsound⟩, ho⟩
  | other op =>
    obtain ⟨st', hstep, h', hb, ha, hadvances⟩ := otherCaller_spec encode op hsound
    exact ⟨st', hstep, ⟨flown, h'⟩, ho.advances hsound hb ha hadvances⟩

theorem run_good (steps : List Step)
    (h : st.Good policy (Registry.generationsOf (steps.flatMap Step.staged)))
    (ho : Machine.Along (step encode) Orderly st steps) :
    ∃ st', st.run encode steps = some st' ∧ st'.Good policy 0 := by
  obtain ⟨st', hrun, h', -⟩ := Machine.run_rest (I := fun rest (s : EventDelivery) =>
      s.Good policy (Registry.generationsOf (rest.flatMap Step.staged)) ∧
        Machine.Along (step encode) Orderly s rest)
    (fun s rest st ⟨hg, hs, hr⟩ => by
      rw [flatMap_cons, Registry.generationsOf_append] at hg
      obtain ⟨st', hstep, hg'⟩ := step_good s hg hs
      exact ⟨st', hstep, hg', hr st' hstep⟩) steps st ⟨h, ho⟩
  exact ⟨st', hrun, h'⟩

def Reply.Refuses (reply : Reply) : Prop := reply.answer.refuses = true ∧ reply.requeueBusy = false

structure Restoring (before : String → List QueuedCopy) (flown : Multiset QueuedCopy)
    (st : EventDelivery) : Prop where
  sound : st.Sound st.inner.policy 0 flown 0
  untouched : ∀ plugin, plugin ∉ st.returned → (forPlugin plugin st.rest).map ReadyDelivery.copy ++
      (st.inner.queues.queueOf plugin).copies = before plugin
  restored : ∀ plugin, plugin ∈ st.returned → forPlugin plugin st.rest = [] →
    (st.inner.queues.queueOf plugin).copies = before plugin
  room : ∀ plugin, (before plugin).length ≤ st.inner.policy.consumerQueueMaxEvents ∧
    Queues.copyBytes st.inner.store.size (before plugin) ≤ st.inner.policy.consumerQueueMaxBytes
  distinct : (st.rest.map ReadyDelivery.pullId).Nodup
  outstanding : ∀ d ∈ st.rest, d.pullId ∈ st.inner.outstandingPulls

theorem Began.restoring (hb : Began s st st') (hs : st.Sound policy 0 flown 0)
    (hs' : st'.Sound policy 0 flown' 0) (hu : st.Unexpired s)
    (hp : st.inner.nextPull + eventDeliveryMaxItems ≤ u64Max) :
    Restoring (fun p => (st.inner.queues.queueOf p).copies) flown' st' := by
  obtain ⟨hdistinct, ho⟩ := hb.numbered ((Nat.add_le_add_left hb.length_le _).trans hp)
  have huntouched (p : String) : (forPlugin p st'.rest).map ReadyDelivery.copy ++
      (st'.inner.queues.queueOf p).copies = (st.inner.queues.queueOf p).copies := by
    obtain ⟨taken, hqueue, -, ha⟩ := hb.queue p
    rw [hqueue, ha hu]
  refine ⟨hs'.policy_eq ▸ hs', fun p _ => huntouched p, fun p hr => ?_, fun p => ?_, hdistinct, ho⟩
  · rw [hb.returned_eq] at hr
    exact absurd hr (notMem_empty _)
  have hbalanced := hs.settled.balanced
  have hl := hbalanced.consumer_le p
  rw [hbalanced.accounted.events_eq, hbalanced.accounted.bytes_eq, Queues.owedTo_nil,
    Queues.copyBytes_nil, Nat.add_zero, ← hb.policy_eq] at hl
  refine ⟨hl.1, le_of_eq_of_le (Queues.copyBytes_congr fun copy hc => ?_) hl.2⟩
  -- the copies before the pull are claims of the router after it
  have hclaim : copy ∈ st'.inner.queues.copies + ([] : List QueuedCopy) +
      (flown' + st'.restCopies) := by
    rw [← huntouched p] at hc
    rcases mem_append.mp hc with hc | hc
    · obtain ⟨d, hd, rfl⟩ := mem_map.mp hc
      have hrest : d.copy ∈ st'.restCopies := mem_coe.mpr (mem_map_of_mem (mem_of_mem_filter hd))
      simp [hrest]
    · have hq : copy ∈ st'.inner.queues.copies := Queues.mem_copies.mpr ⟨p, hc⟩
      simp [hq]
  obtain ⟨envelope', hlive', -⟩ := hs'.settled.balanced.holders.live copy hclaim
  obtain ⟨envelope, hlive, -, hsize⟩ := hb.outlives hu _ _ hlive'
  rw [EnvelopeStore.size_of_lookup (EnvelopeStore.liveEnvelope_eq_some.mp hlive').1,
    EnvelopeStore.size_of_lookup (EnvelopeStore.liveEnvelope_eq_some.mp hlive).1, hsize]

variable {reply : Reply}

theorem returnDelivery_ok (hb : reply.requeueBusy = false)
    (hs : st.inner.requeue d e = some (.ok (), inner')) :
    st.returnDelivery d e reply = some ({ st with
      inner := inner'
      engineParkedSeen := st.engineParkedSeen || e }.noteReturned
        d.holder.pluginKey) := by
  rw [returnDelivery, hb]
  simp only [Bool.false_eq_true, if_false, hs, bind_some]

theorem deliver_refused (st : EventDelivery) (d : ReadyDelivery)
    (ha : reply.answer.refuses = true) :
    ∃ (engineRefused : Bool) (st₀ : EventDelivery), st.deliver d reply =
        st₀.returnDelivery d engineRefused reply ∧
      st₀.inner = st.inner ∧ st₀.batch = st.batch := by
  unfold deliver
  cases h : reply.answer with
  | noHandler | noScope | admissionRefused | notQueued | queued =>
    rw [h] at ha
    cases ha
  | causalRefused => exact ⟨false, _, rfl, rfl, rfl⟩
  | engineRefused => exact ⟨true, st, rfl, rfl, rfl⟩

variable {b : String → List QueuedCopy}

theorem Restoring.endLoop (h : Restoring b flown st) : Restoring b flown st.endLoop := by
  have hrest : st.endLoop.rest = st.rest := endLoop_rest st
  by_cases hn : st.rest = []
  · have ha (p : String) : (st.inner.queues.queueOf p).copies = b p := by
      by_cases hr : p ∈ st.returned
      · exact h.restored p hr (by rw [hn]; rfl)
      have hu := h.untouched p hr
      rw [hn] at hu
      exact hu
    refine ⟨h.sound.same rfl hrest rfl, fun p _ => ?_, fun p _ _ => ha p, h.room, ?_, ?_⟩
    · rw [hrest, hn]
      exact ha p
    · simp [hrest, hn]
    · simp [hrest, hn]
  · rw [endLoop_of_rest_ne_nil hn]
    exact h

theorem Restoring.next (h : Restoring b flown st)
    (hreply : reply.Refuses) (ho : st.Orderly (.next reply)) :
    ∃ st' flown', st.step encode (.next reply) = some st' ∧ Restoring b flown' st' := by
  rw [step]
  split
  case h_2 => exact ⟨st, flown, rfl, h⟩
  case h_1 d rest returned hb =>
  obtain ⟨hrefuses, hbusy⟩ := hreply
  have hrest : st.rest = d :: rest := by rw [EventDelivery.rest, hb]; rfl
  have hreturned : st.returned = returned := by rw [EventDelivery.returned, hb]; rfl
  have hfirst : d.holder.pluginKey ∉ st.returned := fun hr => by
    have hg := ho d (by rw [hrest]; rfl) hr
    cases ha : reply.answer <;> rw [ha] at hrefuses hg <;> simp_all [Answer.refuses, Answer.givesUp]
  have hf (p : String) : forPlugin p st.rest =
      if p = d.holder.pluginKey then d :: forPlugin p rest
      else forPlugin p rest := by
    rw [hrest, forPlugin, List.filter_cons]
    by_cases hp : p = d.holder.pluginKey
    · simp [hp, forPlugin]
    · simp [hp, Ne.symm hp, forPlugin]
  have hq := h.untouched _ hfirst
  rw [hf, if_pos rfl, List.map_cons, List.cons_append] at hq
  -- the router takes the delivery back
  have hs := h.sound.settled
  rw [restCopies, hrest, List.map_cons, ← Multiset.cons_coe, Multiset.add_cons] at hs
  obtain ⟨envelope, hl, -⟩ := hs.balanced.holders.live d.copy (by simp)
  have hsome : (st.inner.store.liveEnvelope d.envelopeId).isSome :=
    isSome_iff_exists.mpr ⟨envelope, hl⟩
  have hsize := h.sound.sizes d (by rw [hrest]; exact mem_cons_self)
  have hroom := h.room d.holder.pluginKey
  rw [← hq, length_cons, length_append, Queues.copyBytes_cons, Queues.copyBytes_append] at hroom
  obtain ⟨engineRefused, st₀, hdeliver, hi, hb₀⟩ :=
    deliver_refused { st with batch := some ⟨rest, returned⟩ } d hrefuses
  obtain ⟨result, inner', hstep, hstore, -⟩ := hs.requeue hsize engineRefused
  obtain ⟨rfl, hpulls⟩ := RouterInner.requeue_ok hstep
    (h.outstanding d (by rw [hrest]; exact mem_cons_self)) hsome
    (by
      rw [hs.balanced.accounted.events_eq]
      omega)
    (by
      rw [hs.balanced.accounted.bytes_eq, hsize]
      have hcopy : st.inner.store.size d.copy.envelopeId = st.inner.store.size d.envelopeId := rfl
      simp only [Queues.owedTo_nil, Queues.copyBytes_nil]
      omega)
  obtain ⟨st₁, flown', hstep₁, hsound, -, -⟩ := next_spec h.sound hb reply
  rw [hdeliver, returnDelivery_ok hbusy (by rw [hi]; exact hstep)] at hstep₁
  cases hstep₁
  rw [hdeliver, returnDelivery_ok hbusy (by rw [hi]; exact hstep), map_some]
  refine ⟨_, flown', rfl, Restoring.endLoop ?_⟩
  have hc (p : String) := RouterInner.copies_requeue hstep hsome p
  set st₁ := ({ st₀ with
    inner := inner'
    engineParkedSeen := st₀.engineParkedSeen || engineRefused }.noteReturned d.holder.pluginKey)
  have hrest₁ : st₁.rest = rest := by
    change ((st₀.batch.map _).map Batch.rest).getD [] = rest
    rw [hb₀]
    rfl
  have hreturned₁ : st₁.returned = insert d.holder.pluginKey st.returned := by
    change ((st₀.batch.map _).map Batch.returned).getD ∅ = _
    rw [hb₀, hreturned]
    rfl
  have hpolicy : st₁.inner.policy = st.inner.policy := hsound.policy_eq
  have hstore₁ : st₁.inner.store = st.inner.store := hstore
  have hd := h.distinct
  rw [hrest, List.map_cons, List.nodup_cons] at hd
  refine ⟨hpolicy ▸ hsound, fun p hr => ?_, fun p hr hn => ?_, fun p => ?_, ?_, fun e he => ?_⟩
  · rw [hreturned₁, mem_insert, not_or] at hr
    have hu := h.untouched p hr.2
    rw [hf, if_neg hr.1] at hu
    rw [hrest₁, show (st₁.inner.queues.queueOf p).copies = _ from hc p, if_neg hr.1]
    exact hu
  · rw [hrest₁] at hn
    rw [show (st₁.inner.queues.queueOf p).copies = _ from hc p]
    by_cases hp : p = d.holder.pluginKey
    · subst hp
      rw [if_pos rfl, ← hq, hn]
      rfl
    rw [if_neg hp]
    rw [hreturned₁, mem_insert, or_iff_right hp] at hr
    exact h.restored p hr (by rw [hf, if_neg hp, hn])
  · rw [hpolicy, hstore₁]
    exact h.room p
  · rw [hrest₁]
    exact hd.2
  · rw [hrest₁] at he
    have hne : e.pullId ≠ d.pullId := fun heq => hd.1 (heq ▸ mem_map_of_mem he)
    rw [show st₁.inner.outstandingPulls = _ from hpulls]
    exact mem_erase.mpr ⟨hne, h.outstanding e (by rw [hrest]; exact mem_cons_of_mem _ he)⟩

/-- A slice whose replies all refuse gives the queues back what it took. -/
theorem run_restores (replies : List Reply)
    (h : Restoring b flown st) (hreplies : ∀ reply ∈ replies, reply.Refuses)
    (ho : Machine.Along (step encode) Orderly st (replies.map .next)) :
    ∃ st' flown', st.run encode (replies.map .next) = some st' ∧ Restoring b flown' st' := by
  induction replies generalizing st flown with
  | nil => exact ⟨st, flown, rfl, h⟩
  | cons reply _ ih =>
    obtain ⟨st₁, flown₁, hs, h₁⟩ := h.next (hreplies reply mem_cons_self) ho.1
    obtain ⟨st', flown', hrun, h'⟩ := ih h₁
      (fun r hr => hreplies r (mem_cons_of_mem _ hr)) (ho.2 st₁ hs)
    refine ⟨st', flown', ?_, h'⟩
    rw [run, List.map_cons, List.foldlM_cons, hs]
    exact hrun

/-- In every run in which the loop gives up the other deliveries of a consumer once it has returned
one, events are admitted in the order of acceptance. A slice whose deliveries are all refused leaves
every queue as it was, when no copy expires, no lock is busy and no pull identity is used twice.
`next_holder_generation` gives every staged subscription a generation of its own. -/
theorem run_admits_in_order (policy : Policy) (schema : Json → Bool) (steps : List Step)
    (hunique : ((steps.flatMap Step.staged).map EventSubscription.generation).Nodup)
    (horderly : Machine.Along (step encode) Orderly (new policy schema) steps) :
    ∃ st, (new policy schema).run encode steps = some st ∧ st.InOrder ∧
      ∀ (start : SliceStart) (replies : List Reply), st.batch = none → st.Unexpired start →
        st.inner.nextPull + eventDeliveryMaxItems ≤ u64Max → (∀ reply ∈ replies, reply.Refuses) →
        Machine.Along (step encode) Orderly st (.beginSlice start :: replies.map .next) →
        ∃ st', st.run encode (.beginSlice start :: replies.map .next) = some st' ∧
          (st'.batch = none → ∀ plugin, (st'.inner.queues.queueOf plugin).copies =
            (st.inner.queues.queueOf plugin).copies) := by
  obtain ⟨st, hrun, ⟨flown, hsound⟩, hordered⟩ := run_good steps
    ⟨⟨0, sound_new policy schema (coe_nodup.mpr hunique)⟩, ordered_new policy schema⟩
    horderly
  refine ⟨st, hrun, hordered.inOrder, ?_⟩
  intro start replies hbatch hunexpired hpulls hreplies halong
  obtain ⟨st₁, flown₁, hbegin, hsound₁, hbegan⟩ := beginSlice_spec hsound hbatch start
  have hstep : st.step encode (.beginSlice start) = some st₁ := by
    rw [step, hbatch]
    exact hbegin
  obtain ⟨st', flown', hrest, hrestoring⟩ := run_restores replies
    (hbegan.restoring hsound hsound₁ hunexpired hpulls) hreplies (halong.2 st₁ hstep)
  refine ⟨st', by rw [run, foldlM_cons, hstep]; exact hrest, fun hdone plugin => ?_⟩
  have hreturned : st'.returned = ∅ := by rw [returned, hdone]; rfl
  have hnil : st'.rest = [] := by rw [rest, hdone]; rfl
  have hsame := hrestoring.untouched plugin (by rw [hreturned]; exact notMem_empty _)
  rw [hnil] at hsame
  exact hsame

def twoEvents : List Step :=
  let subscription : EventSubscription :=
    ⟨"listener", hubEventOwner, "worktree_created", "on_worktree", 1, 0, 0⟩
  [.other (.stage "listener" [] [subscription] (fun _ => 0) 0), .other (.activate ⟨"listener", 1⟩),
    .other (.ingress hubEventOwner "worktree_created" (.obj []) 0),
    .other (.ingress hubEventOwner "worktree_created" (.obj []) 0)]

def slice (answers : List Answer) : List Step :=
  let quiet : RetireAnswer := ⟨false, true, false⟩
  let attempt : PullAttempt := ⟨false, false, 0, fun _ => 0⟩
  .beginSlice ⟨quiet, quiet, attempt, attempt⟩ ::
    answers.map fun answer => .next ⟨answer, false, false, quiet⟩

def initial : EventDelivery := new default fun _ => true

def bothRefused : List Step :=
  twoEvents ++ slice [.engineRefused, .engineRefused] ++
    .engineReleased :: slice [.queued 1, .queued 2]

def oneRefused : List Step :=
  twoEvents ++ slice [.engineRefused, .noHandler] ++ .engineReleased :: slice [.queued 1]

/-- Both deliveries of a batch are refused: the queue reverses them, and the later event is admitted
first. -/
theorem refused_batch_reverses :
    (initial.run (fun _ => some [123, 125]) twoEvents).map (fun st => st.queued "listener") =
      some [1, 2] ∧
    (initial.run (fun _ => some [123, 125])
      (twoEvents ++ slice [.engineRefused, .engineRefused])).map
      (fun st => (st.batch.isNone, st.queued "listener")) = some (true, [2, 1]) ∧
    ∃ st, initial.run (fun _ => some [123, 125]) bothRefused = some st ∧ ¬st.InOrder := by
  refine ⟨by decide +kernel, by decide +kernel, ?_⟩
  have hadmitted : (initial.run (fun _ => some [123, 125]) bothRefused).map
      (fun st => st.admittedTo "listener") = some [2, 1] := by decide +kernel
  obtain ⟨st, hrun, hlist⟩ := map_eq_some_iff.mp hadmitted
  refine ⟨st, hrun, fun hinOrder => ?_⟩
  have hsorted := hinOrder.sorted "listener"
  rw [hlist] at hsorted
  exact absurd hsorted (by decide)

theorem run_admits_in_order_one_refused :
    Machine.Along (step fun _ => some [123, 125]) Orderly initial oneRefused ∧
      ∃ st, initial.run (fun _ => some [123, 125]) oneRefused = some st ∧ st.InOrder := by
  have horderly : Machine.Along (step fun _ => some [123, 125]) Orderly initial oneRefused := by
    decide +kernel
  obtain ⟨st, hrun, hinOrder, -⟩ := run_admits_in_order default (fun _ => true) oneRefused
    (by decide) horderly
  exact ⟨horderly, st, hrun, hinOrder⟩

end BotsterHub.Maintenance.EventDelivery
