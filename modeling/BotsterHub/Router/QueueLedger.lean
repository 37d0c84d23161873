import BotsterHub.Router.Queues

/-!
The accounting of the consumer queues.

`Accounted`: the counters and the producer index agree with the queues. It carries the copies that
have left their queues in bulk but are not settled yet. `ReadyExact` is the ready set.
-/

namespace BotsterHub.Router

open Multiset List

namespace Queues

def copyBytes (size : ℕ → ℕ) (l : List QueuedCopy) : ℕ :=
  (l.map fun copy => size copy.envelopeId).sum

def copyCount (owner plugin : String) (l : List QueuedCopy) : ℕ :=
  l.countP fun copy => copy.holder.owner = owner ∧ copy.holder.pluginKey = plugin

section

variable (size : ℕ → ℕ)

@[simp] theorem copyBytes_nil : copyBytes size [] = 0 := rfl

@[simp] theorem copyBytes_cons (copy : QueuedCopy) (l : List QueuedCopy) :
    copyBytes size (copy :: l) = size copy.envelopeId + copyBytes size l := rfl

@[simp] theorem copyBytes_append (l l' : List QueuedCopy) :
    copyBytes size (l ++ l') = copyBytes size l + copyBytes size l' := by
  simp [copyBytes]

theorem copyBytes_perm (h : l.Perm l') : copyBytes size l = copyBytes size l' := (h.map _).sum_eq

end

theorem copyBytes_congr (h : ∀ copy ∈ l, size copy.envelopeId = size' copy.envelopeId) :
    copyBytes size l = copyBytes size' l := by
  rw [copyBytes, copyBytes, map_congr_left h]

section

variable (owner plugin : String)

@[simp] theorem copyCount_nil : copyCount owner plugin [] = 0 := rfl

theorem copyCount_cons (copy : QueuedCopy) (l : List QueuedCopy) :
    copyCount owner plugin (copy :: l) = copyCount owner plugin l +
      if owner = copy.holder.owner ∧ plugin = copy.holder.pluginKey then 1 else 0 := by
  simp only [copyCount, List.countP_cons, decide_eq_true_eq, eq_comm (a := copy.holder.owner),
    eq_comm (a := copy.holder.pluginKey)]

@[simp] theorem copyCount_append (l l' : List QueuedCopy) :
    copyCount owner plugin (l ++ l') = copyCount owner plugin l + copyCount owner plugin l' := by
  simp [copyCount]

theorem copyCount_perm (h : l.Perm l') : copyCount owner plugin l = copyCount owner plugin l' :=
  h.countP_eq _

end

def owedTo (plugin : String) (owed : List QueuedCopy) : List QueuedCopy :=
  owed.filter fun copy => copy.holder.pluginKey = plugin

@[simp] theorem owedTo_nil (plugin : String) : owedTo plugin [] = [] := rfl

theorem owedTo_cons (plugin : String) (copy : QueuedCopy) (owed : List QueuedCopy) :
    owedTo plugin (copy :: owed) =
      if copy.holder.pluginKey = plugin then copy :: owedTo plugin owed
      else owedTo plugin owed := by
  simp [owedTo, filter_cons]

/-- Counters and producer index agree with the queues; the `owed` copies are still to be released.
-/
structure Accounted (size : ℕ → ℕ) (owed : List QueuedCopy) (q : Queues) : Prop where
  events_eq : ∀ plugin, (q.queueOf plugin).events = (q.queueOf plugin).copies.length
  bytes_eq : ∀ plugin, (q.queueOf plugin).bytes =
    copyBytes size (q.queueOf plugin).copies + copyBytes size (owedTo plugin owed)
  keyed : ∀ plugin, ∀ copy ∈ (q.queueOf plugin).copies, copy.holder.pluginKey = plugin
  byProducer : q.queuedByProducer.Counts₂ fun owner plugin =>
    copyCount owner plugin (q.queueOf plugin).copies + copyCount owner plugin owed

def ReadyExact (q : Queues) : Prop :=
  ∀ plugin, plugin ∈ q.readyConsumers ↔ (q.queueOf plugin).copies ≠ [] ∧ plugin ∉ q.engineParked

theorem accounted_empty (size : ℕ → ℕ) : empty.Accounted size [] where
  events_eq _ := rfl
  bytes_eq _ := rfl
  keyed _ _ h := by simp [default] at h
  byProducer := AList.counts₂_empty

theorem readyExact_empty : empty.ReadyExact := by
  intro plugin
  simp [empty, queueOf, default]

variable {size : ℕ → ℕ} {owed : List QueuedCopy} {q q' : Queues}

theorem Accounted.congr (h : q.Accounted size owed)
    (hq : ∀ plugin, q'.queueOf plugin = q.queueOf plugin)
    (hi : q'.queuedByProducer = q.queuedByProducer) : q'.Accounted size owed where
  events_eq plugin := by rw [hq, h.events_eq]
  bytes_eq plugin := by rw [hq, h.bytes_eq]
  keyed plugin := by rw [hq]; exact h.keyed plugin
  byProducer := by
    rw [hi]
    exact h.byProducer.congr fun owner plugin => by rw [hq]

theorem Accounted.size_congr (h : q.Accounted size owed)
    (hq : ∀ copy ∈ q.copies, size copy.envelopeId = size' copy.envelopeId)
    (ho : ∀ copy ∈ owed, size copy.envelopeId = size' copy.envelopeId) :
    q.Accounted size' owed where
  events_eq := h.events_eq
  bytes_eq plugin := by
    have hqueue : copyBytes size (q.queueOf plugin).copies =
        copyBytes size' (q.queueOf plugin).copies :=
      copyBytes_congr fun copy hc => hq copy (mem_copies.mpr ⟨plugin, hc⟩)
    have howed : copyBytes size (owedTo plugin owed) = copyBytes size' (owedTo plugin owed) :=
      copyBytes_congr fun copy hc => ho copy (mem_of_mem_filter hc)
    rw [h.bytes_eq, hqueue, howed]
  keyed := h.keyed
  byProducer := h.byProducer

theorem copyCount_pos_of_mem (h : copy ∈ l) :
    0 < copyCount copy.holder.owner copy.holder.pluginKey l :=
  countP_pos_iff.mpr ⟨copy, h, by simp⟩

variable {p : String} {l : List QueuedCopy} {copy : QueuedCopy}

/-- The first copy can always be popped; once its event and bytes are released, the queues are
accounted. -/
theorem Accounted.pop (h : q.Accounted size owed) (hc : (q.queueOf p).copies = copy :: rest) :
    ∃ q₁, q.popQueuedCopy p = some (some copy, q₁) ∧ (∀ other, q₁.queueOf other =
        if other = p then { q.queueOf p with copies := rest } else q.queueOf other) ∧
      q₁.consumers.lookup p = some { q.queueOf p with copies := rest } ∧
      q₁.readyConsumers = (if rest = [] then q.readyConsumers.erase p else q.readyConsumers) ∧
      q₁.engineParked = q.engineParked ∧ q₁.lastReadyConsumer = q.lastReadyConsumer ∧
      (q₁.setQueue p ⟨(q.queueOf p).events - 1,
        (q.queueOf p).bytes - size copy.envelopeId, rest⟩).Accounted size owed := by
  have hlookup : q.consumers.lookup p = some (q.queueOf p) := lookup_of_copies_ne_nil (by simp [hc])
  have hk : copy.holder.pluginKey = p := h.keyed p copy (by simp [hc])
  have hp : 0 < copyCount copy.holder.owner copy.holder.pluginKey
      (q.queueOf copy.holder.pluginKey).copies +
        copyCount copy.holder.owner copy.holder.pluginKey owed :=
    Nat.add_pos_left (copyCount_pos_of_mem (by simp [hk, hc])) _
  obtain ⟨i, hindex, hcounts⟩ := h.byProducer.unbump₂ hp
  set q₀ := q.setQueue p { q.queueOf p with copies := rest } with hq₀
  set q₁ : Queues :=
    { q₀ with
      readyConsumers := if rest = [] then q.readyConsumers.erase p else q.readyConsumers
      queuedByProducer := i } with hq₁
  have hpop : q.popQueuedCopy p = some (some copy, q₁) := by
    cases rest <;> simp [popQueuedCopy, hlookup, hc, forgetQueuedCopy, hindex, hq₁, hq₀, setQueue]
  have hv (other : String) : q₁.queueOf other =
      if other = p then { q.queueOf p with copies := rest } else q.queueOf other := by
    change q₀.queueOf other = _
    rw [hq₀, queueOf_setQueue]
  refine ⟨q₁, hpop, hv, ?_, rfl, rfl, rfl, ?_⟩
  · change (q.consumers.insert _ _).lookup _ = _
    rw [AList.lookup_insert_eq, if_pos rfl]
  constructor
  · intro other
    rw [queueOf_setQueue, hv]
    by_cases ho : other = p
    · simp [ho, h.events_eq, hc]
    · simp [ho, h.events_eq]
  · intro other
    rw [queueOf_setQueue, hv]
    by_cases ho : other = p
    · subst ho
      simp only [if_true, h.bytes_eq, hc, copyBytes_cons]
      omega
    · simp [ho, h.bytes_eq]
  · intro other c hcm
    rw [queueOf_setQueue, hv] at hcm
    by_cases ho : other = p
    · subst ho
      rw [if_pos rfl] at hcm
      exact h.keyed other c (by rw [hc]; exact mem_cons_of_mem _ hcm)
    · rw [if_neg ho, if_neg ho] at hcm
      exact h.keyed other c hcm
  · refine hcounts.congr fun owner other => ?_
    rw [queueOf_setQueue, hv]
    by_cases ho : other = p
    · subst ho
      simp only [if_true, hc, copyCount_cons, hk, and_true]
      split <;> omega
    · simp [ho, hk]

theorem popQueuedCopy_of_nil (hc : (q.queueOf p).copies = []) :
    q.popQueuedCopy p = some (none, q) := by
  unfold popQueuedCopy
  cases hl : q.consumers.lookup p with
  | none => rfl
  | some =>
    rw [queueOf_of_lookup hl] at hc
    simp [hc]

theorem Accounted.settle (h : q.Accounted size (copy :: owed)) :
    ∃ i, q.forgetQueuedCopy copy.holder = some { q with queuedByProducer := i } ∧
      ({ q with queuedByProducer := i }.releaseBytes copy.holder.pluginKey
        (size copy.envelopeId)).Accounted size owed := by
  have hp : 0 < copyCount copy.holder.owner copy.holder.pluginKey
      (q.queueOf copy.holder.pluginKey).copies +
        copyCount copy.holder.owner copy.holder.pluginKey (copy :: owed) :=
    Nat.add_pos_right _ (copyCount_pos_of_mem (by simp))
  obtain ⟨i, hindex, hc⟩ := h.byProducer.unbump₂ hp
  refine ⟨i, by simp [forgetQueuedCopy, hindex], ?_⟩
  have hv (other : String) : { q with queuedByProducer := i }.queueOf other = q.queueOf other := rfl
  constructor
  · intro other
    rw [queueOf_releaseBytes, hv, hv]
    split
    · simp [h.events_eq]
    · exact h.events_eq other
  · intro other
    rw [queueOf_releaseBytes, hv, hv]
    by_cases ho : other = copy.holder.pluginKey
    · subst ho
      simp only [if_true, h.bytes_eq, owedTo_cons, copyBytes_cons]
      omega
    · simp [ho, h.bytes_eq, owedTo_cons, Ne.symm ho]
  · intro other c hcm
    rw [queueOf_releaseBytes, hv, hv] at hcm
    by_cases ho : other = copy.holder.pluginKey
    · subst ho
      rw [if_pos rfl] at hcm
      exact h.keyed _ c hcm
    · rw [if_neg ho] at hcm
      exact h.keyed other c hcm
  · rw [releaseBytes_index]
    refine hc.congr fun owner other => ?_
    rw [queueOf_releaseBytes, hv, hv, copyCount_cons]
    by_cases ho : other = copy.holder.pluginKey
    · subst ho
      simp only [and_true, if_true]
      split <;> omega
    · simp [ho]

structure Pushed (size : ℕ → ℕ) (owed : List QueuedCopy) (copy : QueuedCopy) (q q' : Queues) :
    Prop where
  accounted : q'.Accounted size owed
  ready : q'.ReadyExact
  copies_eq : q'.copies = copy ::ₘ q.copies
  queueOf_ne : ∀ other, other ≠ copy.holder.pluginKey → q'.queueOf other = q.queueOf other
  events_eq : (q'.queueOf copy.holder.pluginKey).events =
    (q.queueOf copy.holder.pluginKey).events + 1
  bytes_eq : (q'.queueOf copy.holder.pluginKey).bytes =
    (q.queueOf copy.holder.pluginKey).bytes + size copy.envelopeId

theorem mem_markReady (q : Queues) (p other : String) : other ∈ (q.markReady p).readyConsumers ↔
      (other = p ∧ p ∉ q.engineParked) ∨ other ∈ q.readyConsumers := by
  unfold markReady
  split
  · next hp => simp [hp]
  · next hp => simp [hp]

@[simp] theorem markReady_parked (q : Queues) (p : String) :
    (q.markReady p).engineParked = q.engineParked := by
  unfold markReady
  split <;> rfl

@[simp] theorem markReady_index (q : Queues) (p : String) :
    (q.markReady p).queuedByProducer = q.queuedByProducer := by
  unfold markReady
  split <;> rfl

section

variable (h : q.Accounted size owed) (hr : q.ReadyExact) (copy : QueuedCopy)
    (l : List QueuedCopy) (hl : l.Perm (copy :: (q.queueOf copy.holder.pluginKey).copies))
    (hq : ∀ other, q'.queueOf other = if other = copy.holder.pluginKey then
      ⟨(q.queueOf copy.holder.pluginKey).events + 1,
        (q.queueOf copy.holder.pluginKey).bytes + size copy.envelopeId, l⟩ else q.queueOf other)
    (hi : q'.queuedByProducer = q.queuedByProducer.bump₂ copy.holder.owner copy.holder.pluginKey)

include h hl hq hi

theorem Accounted.push : q'.Accounted size owed where
  events_eq p := by
    rw [hq]
    split
    · rw [h.events_eq]
      simp [hl.length_eq]
    · exact h.events_eq p
  bytes_eq p := by
    rw [hq]
    split
    · next hp =>
      subst hp
      simp only [h.bytes_eq, copyBytes_perm size hl, copyBytes_cons]
      omega
    · exact h.bytes_eq p
  keyed p := by
    rw [hq]
    split
    · next hp =>
      subst hp
      intro c hc
      rcases mem_cons.mp (hl.mem_iff.mp hc) with rfl | hc
      · rfl
      · exact h.keyed _ c hc
    · exact h.keyed p
  byProducer := by
    rw [hi]
    refine (h.byProducer.bump₂ _ _).congr fun owner p => ?_
    rw [hq]
    by_cases hp : p = copy.holder.pluginKey
    · subst hp
      simp only [and_true, if_true, copyCount_perm _ _ hl, copyCount_cons]
      split <;> omega
    · simp [hp]

include hr

theorem Pushed.of_update (hother : ∀ other, other ≠ copy.holder.pluginKey →
      ((other ∈ q'.readyConsumers ↔ other ∈ q.readyConsumers) ∧
        (other ∈ q'.engineParked ↔ other ∈ q.engineParked)))
    (hs : copy.holder.pluginKey ∈ q'.readyConsumers ↔ copy.holder.pluginKey ∉ q'.engineParked) :
    Pushed size owed copy q q' where
  accounted := h.push copy l hl hq hi
  ready p := by
    rw [hq]
    by_cases hp : p = copy.holder.pluginKey
    · subst hp
      have hne : l ≠ [] := fun hn => by simp [hn] at hl
      simpa [hne] using hs
    · rw [if_neg hp, (hother p hp).1, (hother p hp).2]
      exact hr p
  copies_eq := by
    have hc := copies_of_update hq
    have hperm : (l : Multiset QueuedCopy) =
        copy ::ₘ ((q.queueOf copy.holder.pluginKey).copies : Multiset QueuedCopy) :=
      coe_eq_coe.mpr hl
    rw [hperm, add_cons, ← cons_add] at hc
    exact add_right_cancel hc
  queueOf_ne other ho := by rw [hq, if_neg ho]
  events_eq := by simp [hq]
  bytes_eq := by simp [hq]

theorem Pushed.of_mark (hready : q'.readyConsumers =
      if (q.queueOf copy.holder.pluginKey).copies.isEmpty then
        (q.markReady copy.holder.pluginKey).readyConsumers
      else q.readyConsumers) (hp : q'.engineParked = q.engineParked) :
    Pushed size owed copy q q' := by
  refine Pushed.of_update h hr copy l hl hq hi (fun other ho => ⟨?_, by rw [hp]⟩) ?_
  · rw [hready]
    split
    · simp [mem_markReady, ho]
    · rfl
  · rw [hready, hp]
    split
    · next he =>
      rw [mem_markReady, hr]
      simp_all
    next he =>
    rw [hr]
    simp_all

end

section

variable (h : q.Accounted size owed)
include h

theorem enqueueConsumerCopy_spec (hr : q.ReadyExact) (copy : QueuedCopy) :
    ∃ q', q.enqueueConsumerCopy copy.envelopeId (size copy.envelopeId) copy.holder = some q' ∧
      Pushed size owed copy q q' := by
  have hlookup := lookup_ensureConsumer q copy.holder.pluginKey
  refine ⟨_, by simp only [enqueueConsumerCopy, noteQueuedCopy_consumers, hlookup]; rfl, ?_⟩
  refine Pushed.of_mark h hr copy ((q.queueOf copy.holder.pluginKey).copies ++ [copy])
    (perm_append_singleton _ _) (fun other => ?_) ?_ ?_ ?_
  · split <;> simp
  · split <;> simp
  · split
    · ext other
      simp [mem_markReady]
    · simp
  · split <;> simp

theorem requeueCopy_spec (hr : q.ReadyExact) (copy : QueuedCopy) (e : Bool) :
    ∃ q', q.requeueCopy copy (size copy.envelopeId) e = some q' ∧ Pushed size owed copy q q' := by
  simp only [requeueCopy, noteQueuedCopy_consumers, lookup_setQueue]
  refine ⟨_, rfl, ?_⟩
  cases e with
  | true =>
    refine Pushed.of_update h hr copy (copy :: (q.queueOf copy.holder.pluginKey).copies)
      (Perm.refl _) (fun other => ?_) rfl (fun other ho => ?_) (by simp)
    · change (Queues.setQueue ..).queueOf other = _
      simp only [queueOf_setQueue, queueOf_noteQueuedCopy]
      split <;> rfl
    · simp [ho]
  | false =>
    refine Pushed.of_mark h hr copy (copy :: (q.queueOf copy.holder.pluginKey).copies)
      (Perm.refl _) (fun other => ?_) ?_ ?_ ?_
    · simp only [Bool.false_eq_true, if_false]
      split
      · simp only [queueOf_markReady, queueOf_setQueue, queueOf_noteQueuedCopy]
        split <;> rfl
      · simp only [queueOf_setQueue, queueOf_noteQueuedCopy]
        split <;> rfl
    · simp only [Bool.false_eq_true, if_false]
      split <;> simp
    · simp only [Bool.false_eq_true, if_false]
      split
      · ext other
        simp [mem_markReady]
      · simp
    · simp only [Bool.false_eq_true, if_false]
      split <;> simp

theorem putBackCopy_spec (hr : q.ReadyExact) (copy : QueuedCopy)
    (hlookup : q.consumers.lookup copy.holder.pluginKey = some (q.queueOf copy.holder.pluginKey)) :
    Pushed size owed copy q (q.putBackCopy copy.holder.pluginKey copy (size copy.envelopeId)) := by
  simp only [putBackCopy, noteQueuedCopy_consumers, hlookup]
  refine Pushed.of_mark h hr copy (copy :: (q.queueOf copy.holder.pluginKey).copies)
    (Perm.refl _) (fun other => ?_) ?_ ?_ ?_
  · split <;> simp
  · split <;> simp
  · split
    · ext other
      simp [mem_markReady]
    · simp
  · split <;> simp

end

theorem owedTo_of_keyed (h : ∀ copy ∈ l, copy.holder.pluginKey = p) (other : String) :
    owedTo other l = if other = p then l else [] := by
  split
  · next ho =>
    subst ho
    exact filter_eq_self.mpr fun copy hc => by simp [h copy hc]
  · next ho =>
    exact filter_eq_nil_iff.mpr fun copy hc => by simp [h copy hc, Ne.symm ho]

theorem copyCount_of_keyed (owner : String)
    (h : ∀ copy ∈ l, copy.holder.pluginKey = p) (ho : other ≠ p) :
    copyCount owner other l = 0 :=
  countP_eq_zero.mpr fun copy hc => by simp [h copy hc, Ne.symm ho]

/-- Both branches of the source leave the same queue: nothing is released when nothing was removed.
-/
theorem dropFrom_eq (h : q.Accounted size owed) (r : QueuedCopy → Bool)
    (hlookup : q.consumers.lookup p = some (q.queueOf p)) :
    ∃ q', q.dropFrom r p = some ((q.queueOf p).copies.filter r, q') ∧
      (∀ other, q'.queueOf other = if other = p then
        ⟨((q.queueOf p).copies.filter fun copy => !r copy).length,
          (q.queueOf p).bytes, (q.queueOf p).copies.filter fun copy => !r copy⟩
        else q.queueOf other) ∧
      (∀ other, other ≠ p → (other ∈ q'.readyConsumers ↔ other ∈ q.readyConsumers)) ∧
      (p ∈ q'.readyConsumers ↔ p ∈ q.readyConsumers ∧
        (((q.queueOf p).copies.filter fun copy => !r copy) ≠ [] ∨ (q.queueOf p).copies = [])) ∧
      q'.engineParked = q.engineParked ∧ q'.queuedByProducer = q.queuedByProducer := by
  have he := h.events_eq p
  generalize hg : q.queueOf p = queue at hlookup he ⊢
  have hlen : (queue.copies.filter fun copy => !r copy).length ≤ queue.copies.length :=
    length_filter_le _ _
  simp only [dropFrom, hlookup]
  generalize (queue.copies.filter fun copy => !r copy) = kept at hlen ⊢
  by_cases hrem : 0 < queue.copies.length - kept.length
  · have hs : checkedSub queue.events (queue.copies.length - kept.length) = some kept.length := by
      rw [checkedSub, if_pos (by omega)]
      congr 1
      omega
    have hne : queue.copies ≠ [] := fun hn => by simp [hn] at hrem
    simp only [hrem, if_true, hs, Option.map_some]
    refine ⟨_, rfl, fun other => ?_, fun other ho => ?_, ?_, ?_, ?_⟩
    · split
      · simp only [queueOf_setQueue]
        rfl
      · simp
    · split <;> simp [ho]
    · split <;> simp_all
    · split <;> rfl
    · split <;> rfl
  · have heq : queue.copies.length = kept.length := by omega
    simp only [hrem, if_false]
    refine ⟨_, rfl, fun other => ?_, fun other ho => Iff.rfl, ?_, rfl, rfl⟩
    · rw [queueOf_setQueue, he, heq]
    have hk : kept ≠ [] ∨ queue.copies = [] := by
      cases kept with
      | nil => exact .inr (eq_nil_of_length_eq_zero heq)
      | cons => exact .inl (by simp)
    simp [hk]

theorem dropFrom_spec (h : q.Accounted size owed) (hr : q.ReadyExact) (r : QueuedCopy → Bool)
    (hlookup : q.consumers.lookup p = some (q.queueOf p)) :
    ∃ q', q.dropFrom r p = some ((q.queueOf p).copies.filter r, q') ∧
      q'.Accounted size (owed ++ (q.queueOf p).copies.filter r) ∧ q'.ReadyExact ∧
      q'.copies + ((q.queueOf p).copies.filter r : Multiset QueuedCopy) = q.copies ∧
      (∀ other, (q'.queueOf other).events ≤ (q.queueOf other).events ∧
        (q'.queueOf other).bytes = (q.queueOf other).bytes) := by
  obtain ⟨q', hd, hv, hother, hself, hparked, hindex⟩ := dropFrom_eq h r hlookup
  have hp := (perm_append_comm).trans (filter_append_perm r (q.queueOf p).copies)
  have hk : ∀ copy ∈ (q.queueOf p).copies.filter r, copy.holder.pluginKey = p := fun copy hc =>
    h.keyed p copy (mem_of_mem_filter hc)
  have hcopies := copies_of_update hv
  refine ⟨q', hd, ⟨fun other => ?_, fun other => ?_, fun other => ?_, ?_⟩, fun other => ?_, ?_,
    fun other => ?_⟩
  · rw [hv]
    split
    · rfl
    · exact h.events_eq other
  · have howed : copyBytes size (owedTo other (owed ++ (q.queueOf p).copies.filter r)) =
        copyBytes size (owedTo other owed) + copyBytes size
          (if other = p then (q.queueOf p).copies.filter r else []) := by
      rw [owedTo, filter_append, copyBytes_append, ← owedTo, ← owedTo, owedTo_of_keyed hk]
    rw [hv, howed]
    by_cases ho : other = p
    · subst ho
      simp only [if_true]
      rw [h.bytes_eq, ← copyBytes_perm size hp, copyBytes_append]
      omega
    · simp [ho, h.bytes_eq]
  · rw [hv]
    split
    · next ho =>
      subst ho
      exact fun copy hc => h.keyed other copy (mem_of_mem_filter hc)
    · exact h.keyed other
  · rw [hindex]
    refine h.byProducer.congr fun owner other => ?_
    rw [hv, copyCount_append]
    by_cases ho : other = p
    · subst ho
      simp only [if_true]
      rw [← copyCount_perm owner other hp, copyCount_append]
      omega
    · simp [ho, copyCount_of_keyed owner hk ho]
  · rw [hv, hparked]
    by_cases ho : other = p
    · subst ho
      rw [hself, hr other, if_pos rfl]
      by_cases hn : (q.queueOf other).copies = []
      · simp [hn]
      · simp [hn, and_comm]
    · rw [hother other ho, hr other, if_neg ho]
  · have hs : ((q.queueOf p).copies : Multiset QueuedCopy) =
        ((q.queueOf p).copies.filter fun copy => !r copy : List QueuedCopy) +
          ((q.queueOf p).copies.filter r : List QueuedCopy) := by
      rw [coe_add]
      exact (coe_eq_coe.mpr hp).symm
    rw [hs, add_comm (a := ((filter _ _ : List QueuedCopy) : Multiset QueuedCopy)),
      ← add_assoc] at hcopies
    exact add_right_cancel hcopies
  · rw [hv]
    split
    · next ho =>
      subst ho
      refine ⟨?_, rfl⟩
      rw [h.events_eq]
      exact length_filter_le _ _
    · exact ⟨le_rfl, rfl⟩

theorem unparkEngineConsumers_ready (hr : q.ReadyExact) :
    q.unparkEngineConsumers.2.ReadyExact := by
  intro p
  have hv : q.unparkEngineConsumers.2.queueOf p = q.queueOf p := rfl
  rw [hv]
  simp only [unparkEngineConsumers, Finset.mem_union, Finset.mem_filter, hr p,
    Finset.notMem_empty, not_false_eq_true, and_true]
  by_cases hp : p ∈ q.engineParked
  · simp [hp]
  · simp [hp]

end Queues

end BotsterHub.Router
