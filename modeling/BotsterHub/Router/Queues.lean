import BotsterHub.Router.Types

/-!
The consumer queues of the router: one queue of envelope copies per consumer with its counters,
the ready and the parked consumers, and the index from producers to the consumers of their events.
`none` is a failing `expect`.
-/

namespace BotsterHub.Router

open AList

structure Queues where
  consumers : Dict String ConsumerQueue
  /-- Consumers with queued copies that no engine refusal has parked. -/
  readyConsumers : Finset String
  /-- Consumers whose admission Core refused. -/
  engineParked : Finset String
  lastReadyConsumer : Option String
  queuedByProducer : Dict String (Dict String ℕ)

namespace Queues

def empty : Queues := ⟨∅, ∅, ∅, none, ∅⟩

variable (q : Queues)

variable (plugin : String)

def queueOf : ConsumerQueue := (q.consumers.lookup plugin).getD default

def setQueue (queue : ConsumerQueue) : Queues :=
  { q with consumers := q.consumers.insert plugin queue }

def ensureConsumer : Queues :=
  match q.consumers.lookup plugin with
  | some _ => q
  | none => q.setQueue plugin default

def noteQueuedCopy (holder : EventSubscription) : Queues :=
  { q with queuedByProducer := q.queuedByProducer.bump₂ holder.owner holder.pluginKey }

/-- `none` when one of the three `expect`s of the source fails. -/
def forgetQueuedCopy (holder : EventSubscription) : Option Queues :=
  (q.queuedByProducer.unbump₂ holder.owner holder.pluginKey).map fun index =>
    { q with queuedByProducer := index }

def markReady : Queues :=
  if plugin ∈ q.engineParked then q
  else { q with readyConsumers := insert plugin q.readyConsumers }

def popQueuedCopy : Option (Option QueuedCopy × Queues) :=
  match q.consumers.lookup plugin with
  | none => some (none, q)
  | some queue =>
    match queue.copies with
    | [] => some (none, q)
    | copy :: rest =>
      let q := q.setQueue plugin { queue with copies := rest }
      let q := if rest.isEmpty then { q with readyConsumers := q.readyConsumers.erase plugin }
        else q
      (q.forgetQueuedCopy copy.holder).map fun q => (some copy, q)

def enqueueConsumerCopy (envelopeId size : ℕ) (subscription : EventSubscription) : Option Queues :=
  let q := (q.ensureConsumer subscription.pluginKey).noteQueuedCopy subscription
  match q.consumers.lookup subscription.pluginKey with
  | none => none
  | some consumer =>
    let queue : ConsumerQueue :=
      ⟨consumer.events + 1, consumer.bytes + size, consumer.copies ++ [⟨envelopeId, subscription⟩]⟩
    let q := q.setQueue subscription.pluginKey queue
    some (if consumer.copies.isEmpty then q.markReady subscription.pluginKey else q)

/-- The queue part of `requeue`: the copy returns to the front, and an engine refusal parks its
consumer. -/
def requeueCopy (copy : QueuedCopy) (size : ℕ) (engineRefused : Bool) : Option Queues :=
  let plugin := copy.holder.pluginKey
  let consumer := q.queueOf plugin
  let q := q.setQueue plugin ⟨consumer.events + 1, consumer.bytes + size, consumer.copies⟩
  let q := q.noteQueuedCopy copy.holder
  match q.consumers.lookup plugin with
  | none => none
  | some consumer =>
    let q := q.setQueue plugin { consumer with copies := copy :: consumer.copies }
    some (if engineRefused then
        { q with
          readyConsumers := q.readyConsumers.erase plugin
          engineParked := insert plugin q.engineParked }
      else if consumer.copies.isEmpty then q.markReady plugin
      else q)

/-- `pull_ready_batch` returns a popped copy that does not fit the byte budget. -/
def putBackCopy (copy : QueuedCopy) (size : ℕ) : Queues :=
  let q := q.noteQueuedCopy copy.holder
  match q.consumers.lookup plugin with
  | none => q
  | some queue =>
    let q := if queue.copies.isEmpty then q.markReady plugin else q
    q.setQueue plugin ⟨queue.events + 1, queue.bytes + size, copy :: queue.copies⟩

/-- One consumer of `drop_queued_for_owner`: the matching copies leave and release their events.
`none` is a failed `expect`. -/
def dropFrom (remove : QueuedCopy → Bool) (plugin : String) : Option (List QueuedCopy × Queues) :=
  match q.consumers.lookup plugin with
  | none => none
  | some queue =>
    let kept := queue.copies.filter fun copy => !remove copy
    let dropped := queue.copies.filter remove
    let removed := queue.copies.length - kept.length
    if 0 < removed then
      let q := if kept.isEmpty then { q with readyConsumers := q.readyConsumers.erase plugin }
        else q
      (checkedSub queue.events removed).map fun events =>
        (dropped, q.setQueue plugin { queue with copies := kept, events := events })
    else some (dropped, q.setQueue plugin { queue with copies := kept })

/-- `if let Some(queue) = consumers.get_mut(plugin)` with a saturating release of
`size` bytes. -/
def releaseBytes (size : ℕ) : Queues :=
  match q.consumers.lookup plugin with
  | none => q
  | some queue => q.setQueue plugin { queue with bytes := queue.bytes - size }

/-- The flag says whether one of the consumers that return to the ready set has copies. -/
def unparkEngineConsumers : Bool × Queues :=
  let waiting := q.engineParked.filter fun plugin => (q.queueOf plugin).copies ≠ []
  (decide waiting.Nonempty,
    { q with engineParked := ∅, readyConsumers := q.readyConsumers ∪ waiting })

@[simp] theorem queueOf_empty : empty.queueOf plugin = default := rfl

variable {p : String} {queue : ConsumerQueue} {q : Queues}

theorem queueOf_of_lookup (h : q.consumers.lookup p = some queue) : q.queueOf p = queue := by
  simp [queueOf, h]

theorem lookup_of_copies_ne_nil (h : (q.queueOf p).copies ≠ []) :
    q.consumers.lookup p = some (q.queueOf p) := by
  cases hl : q.consumers.lookup p with
  | none =>
    rw [queueOf, hl] at h
    exact absurd rfl h
  | some => rw [queueOf_of_lookup hl]

section

variable (q : Queues)

@[simp] theorem queueOf_setQueue (p o : String) (queue : ConsumerQueue) :
    (q.setQueue p queue).queueOf o =
      if o = p then queue else q.queueOf o := by
  simp only [queueOf, setQueue, lookup_insert_eq]
  split <;> rfl

section

variable (holder : EventSubscription)

include holder

@[simp] theorem queueOf_noteQueuedCopy
    (p : String) : (q.noteQueuedCopy holder).queueOf p = q.queueOf p := rfl

@[simp] theorem noteQueuedCopy_consumers : (q.noteQueuedCopy holder).consumers = q.consumers := rfl

@[simp] theorem noteQueuedCopy_ready :
    (q.noteQueuedCopy holder).readyConsumers = q.readyConsumers := rfl

@[simp] theorem noteQueuedCopy_parked :
    (q.noteQueuedCopy holder).engineParked = q.engineParked := rfl

@[simp] theorem noteQueuedCopy_index : (q.noteQueuedCopy holder).queuedByProducer =
      q.queuedByProducer.bump₂ holder.owner holder.pluginKey := rfl

end

section

variable (p : String)

section

variable (queue : ConsumerQueue)

@[simp] theorem setQueue_ready : (q.setQueue p queue).readyConsumers = q.readyConsumers := rfl

@[simp] theorem setQueue_parked : (q.setQueue p queue).engineParked = q.engineParked := rfl

@[simp] theorem setQueue_index : (q.setQueue p queue).queuedByProducer = q.queuedByProducer := rfl

theorem lookup_setQueue : (q.setQueue p queue).consumers.lookup p = some queue := by
  simp [setQueue]

end

end

@[simp] theorem queueOf_markReady (p o : String) : (q.markReady p).queueOf o = q.queueOf o := by
  unfold markReady
  split <;> rfl

@[simp] theorem queueOf_ensureConsumer (p o : String) :
    (q.ensureConsumer p).queueOf o = q.queueOf o := by
  unfold ensureConsumer
  cases h : q.consumers.lookup p with
  | some => rfl
  | none =>
    rw [queueOf_setQueue]
    by_cases ho : o = p
    · rw [if_pos ho, ho, queueOf, h]
      rfl
    · rw [if_neg ho]

end

theorem queueOf_foldl_ensureConsumer (l : List String) (q : Queues) (o : String) :
    (l.foldl ensureConsumer q).queueOf o = q.queueOf o := by
  induction l generalizing q with
  | nil => rfl
  | cons _ _ ih => rw [List.foldl_cons, ih, queueOf_ensureConsumer]

section

variable (q : Queues)

section

variable (p : String)

theorem lookup_ensureConsumer : (q.ensureConsumer p).consumers.lookup p = some (q.queueOf p) := by
  unfold ensureConsumer
  cases h : q.consumers.lookup p with
  | some => rw [h, queueOf_of_lookup h]
  | none => simp [setQueue, queueOf, h]

@[simp] theorem ensureConsumer_index :
    (q.ensureConsumer p).queuedByProducer = q.queuedByProducer := by
  unfold ensureConsumer
  split <;> rfl

@[simp] theorem ensureConsumer_ready : (q.ensureConsumer p).readyConsumers = q.readyConsumers := by
  unfold ensureConsumer
  split <;> rfl

@[simp] theorem ensureConsumer_parked : (q.ensureConsumer p).engineParked = q.engineParked := by
  unfold ensureConsumer
  split <;> rfl

end

@[simp] theorem queueOf_releaseBytes (p o : String) (size : ℕ) : (q.releaseBytes p size).queueOf o =
      if o = p then { q.queueOf p with bytes := (q.queueOf p).bytes - size }
      else q.queueOf o := by
  unfold releaseBytes
  cases h : q.consumers.lookup p with
  | none =>
    have hd : q.queueOf p = default := by simp [queueOf, h]
    by_cases ho : o = p
    · subst ho
      simp [hd, default]
    · simp [ho]
  | some => rw [queueOf_of_lookup h, queueOf_setQueue]

@[simp] theorem releaseBytes_index (p : String) (size : ℕ) :
    (q.releaseBytes p size).queuedByProducer = q.queuedByProducer := by
  unfold releaseBytes
  split <;> rfl

@[simp] theorem releaseBytes_ready (p : String) (size : ℕ) :
    (q.releaseBytes p size).readyConsumers = q.readyConsumers := by
  unfold releaseBytes
  split <;> rfl

@[simp] theorem releaseBytes_parked (p : String) (size : ℕ) :
    (q.releaseBytes p size).engineParked = q.engineParked := by
  unfold releaseBytes
  split <;> rfl

end

variable {q q' : Queues}

theorem copies_requeueCopy (h : q.requeueCopy copy size e = some q') (o : String) :
    (q'.queueOf o).copies = if o = copy.holder.pluginKey then
      copy :: (q.queueOf o).copies else (q.queueOf o).copies := by
  unfold requeueCopy at h
  simp only [noteQueuedCopy_consumers, lookup_setQueue] at h
  cases h
  have hq (r : Queues) (readyConsumers engineParked : Finset String) (empty : Bool) : (if e then
        { r with readyConsumers := readyConsumers, engineParked := engineParked }
      else if empty then r.markReady copy.holder.pluginKey else r).queueOf o = r.queueOf o := by
    split
    · rfl
    split
    · exact queueOf_markReady ..
    · rfl
  rw [hq, queueOf_setQueue, queueOf_noteQueuedCopy, queueOf_setQueue]
  by_cases ho : o = copy.holder.pluginKey
  · rw [if_pos ho, if_pos ho, ho]
  · rw [if_neg ho, if_neg ho, if_neg ho]

theorem copies_putBackCopy
    (h : q.consumers.lookup p = some queue) (copy : QueuedCopy) (size : ℕ) (o : String) :
    ((q.putBackCopy p copy size).queueOf o).copies = if o = p then
      copy :: queue.copies else (q.queueOf o).copies := by
  simp only [putBackCopy, noteQueuedCopy_consumers, h]
  rw [queueOf_setQueue]
  by_cases ho : o = p
  · rw [if_pos ho, if_pos ho]
  rw [if_neg ho, if_neg ho]
  split
  · rw [queueOf_markReady, queueOf_noteQueuedCopy]
  · rw [queueOf_noteQueuedCopy]

theorem isSome_lookup_setQueue (q : Queues) (p o : String) (queue : ConsumerQueue)
    (h : (q.consumers.lookup o).isSome) :
    ((q.setQueue p queue).consumers.lookup o).isSome := by
  rw [setQueue, lookup_insert_eq]
  split
  · rfl
  · exact h

theorem isSome_lookup_dropFrom (h : q.dropFrom r p = some (d, q'))
    (ho : (q.consumers.lookup o).isSome) :
    (q'.consumers.lookup o).isSome := by
  unfold dropFrom at h
  split at h
  · cases h
  dsimp only at h
  split at h
  · obtain ⟨events, -, heq⟩ := Option.map_eq_some_iff.mp h
    cases heq
    refine isSome_lookup_setQueue _ _ _ _ ?_
    split <;> exact ho
  · cases h
    exact isSome_lookup_setQueue _ _ _ _ ho

def copies (q : Queues) : Multiset QueuedCopy :=
  q.consumers.total fun queue => (queue.copies : Multiset QueuedCopy)

@[simp] theorem copies_empty : empty.copies = 0 := rfl

theorem copies_setQueue (q : Queues) (p : String) (queue : ConsumerQueue) :
    (q.setQueue p queue).copies + ((q.queueOf p).copies : Multiset QueuedCopy) =
      q.copies + (queue.copies : Multiset QueuedCopy) :=
  total_insert_getD q.consumers _ p queue default rfl

theorem mem_copies : copy ∈ q.copies ↔ ∃ p, copy ∈ (q.queueOf p).copies := by
  rw [copies, mem_total]
  constructor
  · rintro ⟨p, queue, hl, hc⟩
    exact ⟨p, by rwa [queueOf_of_lookup hl]⟩
  · rintro ⟨p, hc⟩
    exact ⟨p, _, lookup_of_copies_ne_nil (List.ne_nil_of_mem hc), hc⟩

theorem copies_eq_of_queueOf_eq (h : ∀ p, q'.queueOf p = q.queueOf p) : q'.copies = q.copies := by
  refine total_eq_of_lookup_eq _ _ _ fun p => ?_
  have elim_eq (r : Queues) : (r.consumers.lookup p).elim 0
      (fun queue => (queue.copies : Multiset QueuedCopy)) = (r.queueOf p).copies := by
    rw [queueOf]
    cases r.consumers.lookup p <;> rfl
  rw [elim_eq, elim_eq, h]

theorem copies_of_update (h : ∀ o, q'.queueOf o = if o = p then queue else q.queueOf o) :
    q'.copies + ((q.queueOf p).copies : Multiset QueuedCopy) =
      q.copies + (queue.copies : Multiset QueuedCopy) := by
  have hs : q'.copies = (q.setQueue p queue).copies :=
    copies_eq_of_queueOf_eq fun o => by rw [h, queueOf_setQueue]
  rw [hs, copies_setQueue]

end Queues

end BotsterHub.Router
