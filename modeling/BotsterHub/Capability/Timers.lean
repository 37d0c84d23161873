import BotsterHub.Capability.Moves
import BotsterHub.Lib.Machine

/-!
Timers fire, and drains make progress.

`Timer.log` says at which calls a timer should fire. The runtime does this, and hands every queued
event over at once, as long as the queue has room for all timers that are due in a call.
-/

namespace BotsterHub.Capability

open List AList

def Timer.next (timer : Timer) (nowMs : ℕ) : Option Timer :=
  timer.intervalMs.map fun intervalMs =>
    { timer with sequence := timer.sequence + 1, nextFireMs := nowMs + intervalMs }

def Timer.log : Option Timer → List ℕ → List (ℕ × ℕ)
  | none, _ | _, [] => []
  | some timer, nowMs :: rest =>
    if timer.nextFireMs ≤ nowMs then
      (nowMs, timer.sequence + 1) :: Timer.log (timer.next nowMs) rest
    else Timer.log (some timer) rest

structure Punctual (timer : Timer) (nows : List ℕ) (log : List (ℕ × ℕ)) : Prop where
  notEarly : ∀ fire ∈ log, timer.nextFireMs ≤ fire.1
  perCall : (log.map Prod.fst).Sublist nows
  sequence : log.map Prod.snd = List.range' (timer.sequence + 1) log.length
  fires : (∃ nowMs ∈ nows, timer.nextFireMs ≤ nowMs) → log ≠ []
  once : timer.intervalMs = none → log.length ≤ 1
  apart : ∀ intervalMs ∈ timer.intervalMs, log.IsChain fun fire next => fire.1 + intervalMs ≤ next.1

@[simp] theorem Timer.log_none (nows : List ℕ) : Timer.log none nows = [] := by cases nows <;> rfl

theorem Timer.punctual_log (timer : Timer) (nows : List ℕ) :
    Punctual timer nows (Timer.log (some timer) nows) := by
  induction nows generalizing timer with
  | nil =>
    refine ⟨nofun, Sublist.refl _, rfl, ?_, fun _ => Nat.zero_le _, fun _ _ => .nil⟩
    rintro ⟨_, hm, -⟩
    exact absurd hm not_mem_nil
  | cons nowMs _ ih =>
    rw [Timer.log]
    split
    · next hd =>
      cases hi : timer.intervalMs with
      | none =>
        have hn : timer.next nowMs = none := by simp [Timer.next, hi]
        rw [hn, Timer.log_none]
        refine ⟨by simpa using hd, by simp, rfl, fun _ => cons_ne_nil _ _,
          fun _ => le_rfl, fun _ heq => ?_⟩
        exact absurd (hi ▸ heq) (Option.not_mem_none _)
      | some i =>
        have hn : timer.next nowMs = some
            { timer with sequence := timer.sequence + 1, nextFireMs := nowMs + i } := by
          simp [Timer.next, hi]
        have hl := ih
          { timer with sequence := timer.sequence + 1, nextFireMs := nowMs + i }
        rw [hn]
        refine ⟨?_, hl.perCall.cons_cons nowMs, ?_, fun _ => cons_ne_nil _ _,
          fun hnone => ?_, fun interval heq => ?_⟩
        · simp only [mem_cons, forall_eq_or_imp]
          refine ⟨hd, fun fire hf => ?_⟩
          have hlater : nowMs + i ≤ fire.1 := hl.notEarly fire hf
          omega
        · simp [map_cons, length_cons, range'_succ, hl.sequence]
        · rw [hi] at hnone
          cases hnone
        · obtain rfl := Option.some.inj (hi.symm.trans heq)
          refine isChain_cons.mpr ⟨fun next hm => ?_, hl.apart _ hi⟩
          exact hl.notEarly next (mem_of_mem_head? hm)
    · next hd =>
      have hr := ih timer
      refine ⟨hr.notEarly, hr.perCall.trans (sublist_cons_self _ _), hr.sequence,
        ?_, hr.once, hr.apart⟩
      rintro ⟨l, hm, hlater⟩
      rcases mem_cons.mp hm with rfl | hm
      · exact absurd hlater hd
      · exact hr.fires ⟨l, hm, hlater⟩

def Timer.fireEvent (timer : Timer) : Event := .timerFired timer.resource (timer.sequence + 1)

namespace State

variable {s t : State} {pluginKey : PluginKey} {resourceId : ResourceId} {nowMs : ℕ}

def IsDue (s : State) (pluginKey : PluginKey) (nowMs : ℕ) (entry : ResourceId × Timer) : Prop :=
  s.timers.lookup entry.1 = some entry.2 ∧ entry.2.pluginKey = pluginKey ∧
    entry.2.nextFireMs ≤ nowMs

structure Due (s : State) (pluginKey : PluginKey) (nowMs : ℕ) (due : List (ResourceId × Timer)) :
    Prop where
  mem : ∀ entry, entry ∈ due ↔ s.IsDue pluginKey nowMs entry
  nodup : (due.map Prod.fst).Nodup
  ordered : due.Pairwise fun entry next => entry.2.nextFireMs ≤ next.2.nextFireMs

def dueKey (entry : ResourceId × Timer) : ℕ ×ₗ ResourceId := toLex (entry.2.nextFireMs, entry.1)

theorem nodup_dueTimers (s : State) (pluginKey : PluginKey) (nowMs : ℕ) :
    ((s.dueTimers pluginKey nowMs).map fun due => (ofLex due).2).Nodup := by
  have hp : (s.dueTimers pluginKey nowMs).Perm _ := perm_insertionSort (· ≤ ·) _
  rw [(hp.map _).nodup_iff, map_map]
  exact (filter_sublist.map Sigma.fst).nodup s.timers.keys_nodup

theorem sorted_dueTimers (s : State) (pluginKey : PluginKey) (nowMs : ℕ) :
    (s.dueTimers pluginKey nowMs).Pairwise fun due next => (ofLex due).1 ≤ (ofLex next).1 := by
  refine (pairwise_insertionSort (· ≤ ·) _).imp fun {due next} hle => ?_
  rcases Prod.Lex.le_iff.mp hle with hlt | ⟨heq, -⟩
  · exact hlt.le
  · exact heq.le

theorem dueTimers_due (s : State) (pluginKey : PluginKey) (nowMs : ℕ) :
    ∃ due, Due s pluginKey nowMs due ∧ s.dueTimers pluginKey nowMs = due.map dueKey := by
  have hr : s.dueTimers pluginKey nowMs ∈ Set.range (map fun e :
      { e : ResourceId × Timer // s.IsDue pluginKey nowMs e } => dueKey e.1) := by
    rw [Set.range_list_map]
    intro due hd
    obtain ⟨timer, hl, ho, hle, hf⟩ := mem_dueTimers.mp hd
    exact ⟨⟨((ofLex due).2, timer), hl, ho, hle⟩, congrArg (fun d => toLex (d, (ofLex due).2)) hf⟩
  obtain ⟨due, hd⟩ := hr
  have hm : s.dueTimers pluginKey nowMs = (due.map Subtype.val).map dueKey := by
    rw [← hd, map_map]
    rfl
  have hn := nodup_dueTimers s pluginKey nowMs
  have hs := sorted_dueTimers s pluginKey nowMs
  refine ⟨due.map Subtype.val, ⟨fun e => ⟨fun hmem => ?_, fun he => ?_⟩, ?_, ?_⟩, hm⟩
  · obtain ⟨⟨_, he⟩, -, rfl⟩ := mem_map.mp hmem
    exact he
  · have hk : dueKey e ∈ s.dueTimers pluginKey nowMs :=
      mem_dueTimers.mpr ⟨e.2, he.1, he.2.1, he.2.2, rfl⟩
    rw [hm] at hk
    obtain ⟨_, hmem, heq⟩ := mem_map.mp hk
    obtain ⟨⟨o, hother⟩, -, rfl⟩ := mem_map.mp hmem
    -- One resource id names one timer.
    have hid : o.1 = e.1 := congrArg (fun due => (ofLex due).2) heq
    have ht : o.2 = e.2 := Option.some.inj (hother.1.symm.trans (hid ▸ he.1))
    rwa [← Prod.ext hid ht]
  · rwa [hm, map_map] at hn
  · rwa [hm, pairwise_map] at hs

variable {due : List (ResourceId × Timer)}

theorem foldl_fireTimer (nowMs : ℕ) (hl : ∀ entry ∈ due, s.timers.lookup entry.1 = some entry.2)
    (hn : (due.map Prod.fst).Nodup)
    (ho : ∀ entry ∈ due, entry.2.resource.pluginKey = pluginKey) :
    ∃ timers pendingEvents,
      (due.map dueKey).foldl (fireTimer nowMs) s = { s with timers, pendingEvents } ∧
      (∀ id, id ∉ due.map Prod.fst → timers.lookup id = s.timers.lookup id) ∧
      (∀ entry ∈ due, timers.lookup entry.1 = firedTimer nowMs entry.2) ∧
      { s with timers, pendingEvents }.events pluginKey =
        s.events pluginKey ++ due.map fun entry => entry.2.fireEvent := by
  induction due generalizing s with
  | nil => exact ⟨s.timers, s.pendingEvents, rfl, fun _ _ => rfl, nofun, by simp⟩
  | cons entry _ ih =>
    simp only [mem_cons, forall_eq_or_imp, map_cons, nodup_cons] at *
    obtain ⟨hentry, hr⟩ := hl
    obtain ⟨hnot, hn⟩ := hn
    obtain ⟨howns, ho⟩ := ho
    have hf : fireTimer nowMs s (dueKey entry) = _ := fireTimer_eq nowMs hentry
    -- The timers behind it in the list are still as they were.
    have hother : ∀ id, id ≠ entry.1 →
        (fireTimer nowMs s (dueKey entry)).timers.lookup id = s.timers.lookup id := by
      intro id hne
      rw [hf]
      exact (lookup_put ..).trans (if_neg hne)
    obtain ⟨timers, pendingEvents, hfold, hs, hfired, he⟩ :=
      ih (fun next hnext => (hother _ fun heq =>
          hnot (heq ▸ mem_map_of_mem hnext)).trans (hr next hnext)) hn ho
    refine ⟨timers, pendingEvents, ?_, fun id hid => ?_, ⟨?_, hfired⟩, ?_⟩
    · rw [foldl_cons, hfold, hf]
      rfl
    · rw [not_or] at hid
      rw [hs id hid.2, hother id hid.1]
    · rw [hs entry.1 hnot, hf]
      exact (lookup_put ..).trans (if_pos rfl)
    refine he.trans ?_
    simp only [hf, events_pushLocalEvent, Event.pluginKey, howns, if_true]
    exact append_assoc ..

def DrainRoom (s : State) (pluginKey : PluginKey) (nowMs : ℕ) : Prop :=
  s.localEventLen pluginKey + (s.dueTimers pluginKey nowMs).length ≤ s.eventCapacity ∧
    (s.enqueueDueTimers pluginKey nowMs).1.Room

instance (s : State) (pluginKey : PluginKey) (nowMs : ℕ) :
    Decidable (s.DrainRoom pluginKey nowMs) := by
  unfold DrainRoom
  infer_instance

theorem ensureEventCapacity_ok (h : s.localEventLen pluginKey + a ≤ s.eventCapacity) :
    s.ensureEventCapacity pluginKey a = .ok () := by
  unfold ensureEventCapacity
  rw [if_neg (by omega)]

theorem drainEvents_eq (h : s.Room) (pluginKey : PluginKey) : ∃ channel pendingEvents,
      s.drainEvents pluginKey =
        ({ s with completions := channel, pendingEvents }, .ok (s.undrained pluginKey)) ∧
      { s with completions := channel, pendingEvents }.events pluginKey = [] := by
  have hok : s.drainWorkerCompletions.2 = .ok () := takeCompletions_ok h rfl
  have he := completions_takeCompletions rfl hok
  have hu : (s.takeCompletions s.completions).1.undrained pluginKey =
      s.undrained pluginKey := undrained_takeCompletions h rfl trivial
  obtain ⟨channel, pendingEvents, heq⟩ := takeCompletions_eq s s.completions
  have hd : s.drainWorkerCompletions =
      ({ s with completions := channel, pendingEvents }, .ok ()) := Prod.ext heq hok
  rw [heq] at he hu
  obtain rfl : channel = [] := he
  refine ⟨[], pendingEvents.erase pluginKey, ?_, ?_⟩
  · rw [drainEvents, hd, ← hu]
    exact congrArg (fun events => (_, Except.ok events)) (append_nil _).symm
  · exact (events_erase { s with completions := [], pendingEvents } pluginKey pluginKey).trans
      (if_pos rfl)

theorem drainEventsAt_eq (ho : Owned s) (h : s.DrainRoom pluginKey nowMs)
    (hd : Due s pluginKey nowMs due)
    (hm : s.dueTimers pluginKey nowMs = due.map dueKey) :
    ∃ t, s.drainEventsAt pluginKey nowMs =
        (t, .ok (s.events pluginKey ++ (due.map fun entry => entry.2.fireEvent) ++
          (s.completionsOf pluginKey).map Completion.event)) ∧
      t.events pluginKey = [] ∧
      (∀ id, id ∉ due.map Prod.fst → t.timers.lookup id = s.timers.lookup id) ∧
      ∀ entry ∈ due, t.timers.lookup entry.1 = firedTimer nowMs entry.2 := by
  have howner : ∀ entry ∈ due, entry.2.resource.pluginKey = pluginKey := by
    intro entry he
    obtain ⟨hl, howns, -⟩ := (hd.mem entry).mp he
    exact (ho.timers _ _ hl).1.trans howns
  obtain ⟨timers, pendingEvents, hfold, hs, hf, hevents⟩ := foldl_fireTimer nowMs
    (fun entry he => ((hd.mem entry).mp he).1) hd.nodup howner
  have henqueue : s.enqueueDueTimers pluginKey nowMs =
      ({ s with timers, pendingEvents }, .ok ()) := by
    rw [enqueueDueTimers, ensureEventCapacity_ok h.1, hm, ← hfold]
    rfl
  have hr := h.2
  rw [henqueue] at hr
  obtain ⟨channel, queues, hdrain, hempty⟩ := drainEvents_eq hr pluginKey
  refine ⟨_, ?_, hempty, hs, hf⟩
  rw [drainEventsAt, henqueue, ← hevents]
  exact hdrain

end State

def Step.drainAt (pluginKey : PluginKey) : Step → Option ℕ
  | .call (.drainEventsAt key nowMs) => if key = pluginKey then some nowMs else none
  | _ => none

theorem Step.drainAt_eq_some {pluginKey : PluginKey} {step : Step} {nowMs : ℕ}
    (h : step.drainAt pluginKey = some nowMs) : step = .call (.drainEventsAt pluginKey nowMs) := by
  unfold Step.drainAt at h
  split at h
  · split at h
    · next heq => rw [heq, Option.some.inj h]
    · cases h
  · cases h

def Call.cancels : Call → Option (PluginKey × ResourceId)
  | .submit ⟨pluginKey, _, .timer (.cancel resourceId), _, _⟩ _ => some (pluginKey, resourceId)
  | .releaseResource ⟨pluginKey, .timer, resourceId⟩ => some (pluginKey, resourceId)
  | _ => none

def Event.sequenceOf (resourceId : ResourceId) : Event → Option ℕ
  | .timerFired resource sequence =>
    if resource.resourceId = resourceId then some sequence else none
  | _ => none

namespace State

def Cancellable (s : State) (target : PluginKey × ResourceId) : Prop :=
  ∀ timer ∈ s.timers.lookup target.2, timer.pluginKey = target.1 ∧
    s.localEventLen target.1 + 2 ≤ s.eventCapacity

def ClockRoom (s : State) (pluginKey : PluginKey) (nowMs : ℕ) : Prop :=
  ∀ e ∈ s.timers.entries, e.2.pluginKey = pluginKey → e.2.nextFireMs ≤ nowMs →
    ∀ intervalMs ∈ e.2.intervalMs, nowMs + intervalMs ≤ maxU64

def Timely (pluginKey : PluginKey) (s : State) : Step → Prop
  | .call call =>
    (∀ nowMs ∈ (Step.call call).drainAt pluginKey,
      s.DrainRoom pluginKey nowMs ∧ s.ClockRoom pluginKey nowMs) ∧
      ∀ target ∈ call.cancels, s.Cancellable target
  | _ => True

instance (s : State) (target : PluginKey × ResourceId) : Decidable (s.Cancellable target) := by
  unfold Cancellable
  infer_instance

instance (s : State) (pluginKey : PluginKey) (nowMs : ℕ) :
    Decidable (s.ClockRoom pluginKey nowMs) := by
  unfold ClockRoom
  infer_instance

instance (pluginKey : PluginKey) (s : State) : ∀ step, Decidable (Timely pluginKey s step)
  | .call _ => instDecidableAnd
  | .complete _ _ | .setPluginGrants _ _ | .revokePluginGrants _ => isTrue trivial

/-- A drain returns every queued event and the due timers by deadline; a failed cancel changes no
timer. -/
structure Delivers (pluginKey : PluginKey) (s : State) (step : Step) : Prop where
  drains : ∀ nowMs ∈ step.drainAt pluginKey, ∃ due, Due s pluginKey nowMs due ∧
    (s.drainEventsAt pluginKey nowMs).2 =
      .ok (s.events pluginKey ++ (due.map fun entry => entry.2.fireEvent) ++
        (s.completionsOf pluginKey).map Completion.event) ∧
    (s.step step).events pluginKey = []
  cancels : ∀ call error, step = .call call → call.cancels.isSome → (s.call call).2 = .error error →
    (s.step step).timers = s.timers

def Spares (pluginKey : PluginKey) (resourceId : ResourceId) (s : State) (step : Step) : Prop :=
  (step.drainAt pluginKey).isSome ∨
    (s.step step).timers.lookup resourceId = s.timers.lookup resourceId

def firings (s : State) (pluginKey : PluginKey) (resourceId : ResourceId) (step : Step) :
    List (ℕ × ℕ) :=
  match step.drainAt pluginKey with
  | none => []
  | some nowMs =>
    match (s.drainEventsAt pluginKey nowMs).2 with
    | .error _ => []
    | .ok events =>
      ((events.drop (s.localEventLen pluginKey)).filterMap (·.sequenceOf resourceId)).map
        fun sequence => (nowMs, sequence)

def log (pluginKey : PluginKey) (resourceId : ResourceId) : State → List Step → List (ℕ × ℕ)
  | _, [] => []
  | s, step :: rest =>
    s.firings pluginKey resourceId step ++ log pluginKey resourceId (s.step step) rest

structure Progress (pluginKey : PluginKey) (s : State) (steps : List Step) : Prop where
  delivers : Machine.Along (fun s step => some (State.step s step)) (Delivers pluginKey) s steps
  punctual : ∀ resourceId timer, s.timers.lookup resourceId = some timer →
    timer.pluginKey = pluginKey →
    Machine.Along (fun s step => some (State.step s step)) (Spares pluginKey resourceId) s steps →
    Punctual timer (steps.filterMap (·.drainAt pluginKey)) (log pluginKey resourceId s steps)

variable {s t : State} {pluginKey : PluginKey} {resourceId : ResourceId} {nowMs : ℕ} {step : Step}
  {error : RuntimeError}

theorem cancelTimerResource_error (h : s.Cancellable (r.pluginKey, resourceId))
    (he : (s.cancelTimerResource r resourceId).2 = .error error) :
    (s.cancelTimerResource r resourceId).1 = s := by
  unfold cancelTimerResource at he ⊢
  split
  · rfl
  next timer hl =>
  obtain ⟨ho, hr⟩ := h timer hl
  have hc : { s with timers := s.timers.erase resourceId }.ensureEventCapacity
      r.pluginKey 2 = .ok () := ensureEventCapacity_ok hr
  simp [hl, ho, hc, andThen] at he

theorem timers_andThen_error {α β : Type} {r : State × Except RuntimeError α}
    {next : State → α → State × Except RuntimeError β}
    (hf : ∀ error, r.2 = .error error → r.1.timers = s.timers)
    (hn : ∀ t v, r = (t, .ok v) → (next t v).2 = .error error → (next t v).1.timers = s.timers)
    (he : (andThen r next).2 = .error error) :
    (andThen r next).1.timers = s.timers := by
  obtain ⟨t, a⟩ := r
  cases a with
  | error => exact hf _ rfl
  | ok v => exact hn t v rfl he

theorem timers_of_cancel_error {call : Call}
    (h : ∀ target ∈ call.cancels, s.Cancellable target) (hcancels : call.cancels.isSome)
    (he : (s.call call).2 = .error error) : (s.call call).1.timers = s.timers := by
  unfold Call.cancels at h hcancels
  split at hcancels
  · next key operationId resourceId turn =>
    refine timers_andThen_error (fun submitError hs => ?_) nofun he
    refine timers_andThen_error (fun _ _ => rfl) (fun t _ hg hc => ?_) hs
    obtain rfl : s = t := congrArg Prod.fst hg
    simp only [submitTimer] at hc ⊢
    split at hc
    · next hh => rw [if_pos hh]
    · next hh =>
      rw [if_neg hh, cancelTimerResource_error (h _ rfl) hc]
  · next key resourceId =>
    refine timers_andThen_error (fun releaseError hr => ?_) nofun he
    refine timers_andThen_error (fun cancelError hc => ?_) nofun hr
    rw [cancelTimerResource_error (h _ rfl) hc]
  · cases hcancels

def sequences (resourceId : ResourceId) (due : List (ResourceId × Timer)) : List ℕ :=
  (due.map fun entry => entry.2.fireEvent).filterMap (·.sequenceOf resourceId)

theorem sequences_append (resourceId : ResourceId) (due due' : List (ResourceId × Timer)) :
    sequences resourceId (due ++ due') = sequences resourceId due ++ sequences resourceId due' := by
  simp [sequences]

theorem sequences_eq_nil (hk : ∀ e ∈ due, e.2.resource.resourceId = e.1)
    (h : resourceId ∉ due.map Prod.fst) : sequences resourceId due = [] := by
  simp only [sequences, filterMap_eq_nil_iff, mem_map, forall_exists_index, and_imp,
    forall_apply_eq_imp_iff₂]
  intro e he
  have hne : e.2.resource.resourceId ≠ resourceId := by
    rintro rfl
    exact h (hk e he ▸ mem_map_of_mem he)
  simp [Timer.fireEvent, Event.sequenceOf, hne]

theorem sequences_of_mem (hk : ∀ e ∈ due, e.2.resource.resourceId = e.1)
    (hn : (due.map Prod.fst).Nodup) (h : (resourceId, timer) ∈ due) :
    sequences resourceId due = [timer.sequence + 1] := by
  obtain ⟨b, a, rfl⟩ := append_of_mem h
  have hid : timer.resource.resourceId = resourceId := hk _ h
  simp only [map_append, map_cons, nodup_append, nodup_cons] at hn
  obtain ⟨-, ⟨ha, -⟩, hb⟩ := hn
  -- The id is neither before nor after its entry.
  have hnil : sequences resourceId b = [] :=
    sequences_eq_nil (fun e he => hk e (mem_append_left _ he)) fun hm => hb _ hm _ mem_cons_self rfl
  have hnil' : sequences resourceId a = [] :=
    sequences_eq_nil (fun e he => hk e (mem_append_right _ (mem_cons_of_mem _ he))) ha
  rw [sequences_append, ← singleton_append, sequences_append, hnil, hnil']
  simp [sequences, Timer.fireEvent, Event.sequenceOf, hid]

@[simp] theorem sequenceOf_event (c : Completion) : c.event.sequenceOf resourceId = none := by
  unfold Completion.event
  split <;> rfl

theorem firedTimer_eq_next (h : ∀ i ∈ timer.intervalMs, nowMs + i ≤ maxU64) :
    firedTimer nowMs timer = timer.next nowMs := by
  refine Option.map_congr fun i hi => ?_
  rw [saturatingAdd, min_eq_left (h i hi)]

theorem firings_drain (ho : Owned s) (hr : s.DrainRoom pluginKey nowMs)
    (hc : s.ClockRoom pluginKey nowMs)
    (howns : ∀ timer ∈ s.timers.lookup resourceId, timer.pluginKey = pluginKey)
    (hs : step.drainAt pluginKey = some nowMs) (nows : List ℕ) :
    (∀ timer ∈ (s.step step).timers.lookup resourceId, timer.pluginKey = pluginKey) ∧
      Timer.log (s.timers.lookup resourceId) (nowMs :: nows) =
        s.firings pluginKey resourceId step ++
          Timer.log ((s.step step).timers.lookup resourceId) nows := by
  obtain ⟨due, hd, hmap⟩ := dueTimers_due s pluginKey nowMs
  obtain ⟨t, hdrain, -, hsame, hfired⟩ := drainEventsAt_eq ho hr hd hmap
  have hk : ∀ e ∈ due, e.2.resource.resourceId = e.1 := fun e he =>
    (ho.timers _ _ ((hd.mem e).mp he).1).2
  have hf : s.firings pluginKey resourceId step =
      (sequences resourceId due).map fun sequence => (nowMs, sequence) := by
    unfold firings sequences
    simp [hs, hdrain, localEventLen]
  have ht : s.step step = t := by
    rw [Step.drainAt_eq_some hs, State.step, call, hdrain]
    rfl
  rw [hf, ht]
  by_cases hm : resourceId ∈ due.map Prod.fst
  · obtain ⟨⟨_, timer⟩, he, rfl⟩ := mem_map.mp hm
    obtain ⟨hl, howner, hle⟩ := (hd.mem _).mp he
    have hi := hc _ (mem_entries_of_lookup hl) howner hle
    rw [hfired _ he]
    refine ⟨fun next hn => (firedTimer_owner hn).1.trans howner, ?_⟩
    rw [firedTimer_eq_next hi, sequences_of_mem hk hd.nodup he, hl, Timer.log, if_pos hle]
    rfl
  · rw [hsame _ hm, sequences_eq_nil hk hm]
    refine ⟨howns, ?_⟩
    cases hl : s.timers.lookup resourceId with
    | none => simp
    | some timer =>
      have hle : ¬timer.nextFireMs ≤ nowMs := fun hle =>
        hm (mem_map_of_mem ((hd.mem (resourceId, timer)).mpr ⟨hl, howns timer hl, hle⟩))
      rw [Timer.log, if_neg hle]
      rfl

theorem log_eq (ho : Owned s) {steps : List Step}
    (howns : ∀ timer ∈ s.timers.lookup resourceId, timer.pluginKey = pluginKey)
    (ht : Machine.Along (fun s step => some (State.step s step)) (Timely pluginKey) s steps)
    (hspares : Machine.Along (fun s step => some (State.step s step))
      (Spares pluginKey resourceId) s steps) :
    log pluginKey resourceId s steps =
      Timer.log (s.timers.lookup resourceId) (steps.filterMap (·.drainAt pluginKey)) := by
  induction steps generalizing s with
  | nil => cases s.timers.lookup resourceId <;> rfl
  | cons step rest ih =>
    obtain ⟨ht, htimelyRest⟩ := ht
    obtain ⟨hspares, hs⟩ := hspares
    have hr := ih (ho.step step)
    cases hd : step.drainAt pluginKey with
    | none =>
      have hsame := hspares.resolve_left (by simp [hd])
      rw [log, hr (hsame ▸ howns) (htimelyRest _ rfl) (hs _ rfl), hsame,
        filterMap_cons_none hd, firings, hd]
      rfl
    | some nowMs =>
      obtain ⟨hroom, hc⟩ : s.DrainRoom pluginKey nowMs ∧ s.ClockRoom pluginKey nowMs := by
        rw [Step.drainAt_eq_some hd] at ht hd
        exact ht.1 nowMs hd
      obtain ⟨hn, hl⟩ := firings_drain ho hroom hc howns hd (rest.filterMap (·.drainAt pluginKey))
      rw [log, hr hn (htimelyRest _ rfl) (hs _ rfl), filterMap_cons_some hd, hl]

theorem delivers_step (ho : Owned s) (h : Timely pluginKey s step) : Delivers pluginKey s step := by
  refine ⟨fun nowMs hn => ?_, fun call error hcall hc he => ?_⟩
  · obtain rfl := Step.drainAt_eq_some hn
    obtain ⟨due, hdue, hm⟩ := dueTimers_due s pluginKey nowMs
    obtain ⟨t, hd, hempty, -⟩ := drainEventsAt_eq ho (h.1 nowMs hn).1 hdue hm
    refine ⟨due, hdue, congrArg Prod.snd hd, ?_⟩
    show (s.call (.drainEventsAt pluginKey nowMs)).1.events pluginKey = []
    rw [call, hd]
    exact hempty
  · subst hcall
    exact timers_of_cancel_error h.2 hc he

theorem delivers_run (ho : Owned s)
    (h : Machine.Along (fun s step => some (State.step s step)) (Timely pluginKey) s steps) :
    Machine.Along (fun s step => some (State.step s step)) (Delivers pluginKey) s steps := by
  induction steps generalizing s with
  | nil => trivial
  | cons step _ ih =>
    refine ⟨delivers_step ho h.1, fun t ht => ?_⟩
    cases ht
    exact ih (ho.step step) (h.2 _ rfl)

/-- In every timely run the plugin's drains return what is queued and its timers fire as they
should. -/
theorem run_timers_progress (s : State) (howned : Owned s) (pluginKey : PluginKey)
    (steps : List Step)
    (h : Machine.Along (fun s step => some (State.step s step)) (Timely pluginKey) s steps) :
    Progress pluginKey s steps := by
  refine ⟨delivers_run howned h, fun resourceId timer hlookup howner hspares => ?_⟩
  have howns : ∀ other ∈ s.timers.lookup resourceId, other.pluginKey = pluginKey := by
    intro other hother
    rw [← Option.some.inj (hlookup.symm.trans hother), howner]
  rw [log_eq howned howns h hspares, hlookup]
  exact Timer.punctual_log timer _

def ticking (queued : ℕ) : State :=
  { new with
    timers := (∅ : Dict ResourceId Timer).insert "timer-tick"
      ⟨"pipelines", ⟨"pipelines", .timer, "timer-tick"⟩, 1000, some 1000, 0⟩
    pendingEvents := (∅ : Dict PluginKey (List Event)).insert "pipelines"
      (List.replicate queued (.backpressure "pipelines" "read" 128 128)) }

theorem owned_ticking (q : ℕ) : Owned (ticking q) where
  timers resourceId timer ht := by
    rw [ticking, lookup_insert_eq] at ht
    split at ht
    · next heq =>
      rw [← Option.some.inj ht, heq]
      exact ⟨rfl, rfl⟩
    · cases ht
  events pluginKey event he := by
    simp only [events, ticking, lookup_insert_eq] at he
    split at he
    · next heq => rw [eq_of_mem_replicate he, heq]; rfl
    · exact absurd he not_mem_nil

def ticks : List Step :=
  [.call (.drainEventsAt "pipelines" 1500), .call (.drainEventsAt "pipelines" 2000),
    .call (.drainEventsAt "pipelines" 2500)]

theorem run_timers_progress_ticks : Owned (ticking 3) ∧
      Machine.Along (fun s step => some (State.step s step)) (Timely "pipelines") (ticking 3)
        ticks ∧ Progress "pipelines" (ticking 3) ticks :=
  have h : Machine.Along (fun s step => some (State.step s step)) (Timely "pipelines") (ticking 3)
      ticks := by decide +kernel
  ⟨owned_ticking 3, h, run_timers_progress _ (owned_ticking 3) _ _ h⟩

theorem drainEventsAt_of_full
    (h : s.eventCapacity < s.localEventLen pluginKey + (s.dueTimers pluginKey nowMs).length) :
    s.drainEventsAt pluginKey nowMs =
      (s, .error ⟨.backpressured, "hub capability runtime event queue is at capacity"⟩) := by
  rw [drainEventsAt, enqueueDueTimers, ensureEventCapacity, if_pos h]
  rfl

theorem full_of_ticking (hdue : 1000 ≤ nowMs) : (ticking queued).localEventLen "pipelines" +
      ((ticking queued).dueTimers "pipelines" nowMs).length = queued + 1 := by
  have hqueue : (ticking queued).localEventLen "pipelines" = queued := by
    simp only [localEventLen, events, ticking, lookup_insert, Option.getD_some, length_replicate]
  have hlength : ((ticking queued).dueTimers "pipelines" nowMs).length = 1 := by
    simp [dueTimers, ticking, hdue]
  rw [hqueue, hlength]

/-- With a full queue and a due timer every drain fails and changes nothing. -/
theorem full_queue_sticks : (∀ nowMs, 1000 ≤ nowMs →
      (ticking 256).drainEventsAt "pipelines" nowMs = (ticking 256,
        .error ⟨.backpressured, "hub capability runtime event queue is at capacity"⟩)) ∧
      ¬Progress "pipelines" (ticking 256) [.call (.drainEventsAt "pipelines" 1500)] := by
  have hfull : ∀ nowMs, 1000 ≤ nowMs → (ticking 256).eventCapacity <
      (ticking 256).localEventLen "pipelines" +
        ((ticking 256).dueTimers "pipelines" nowMs).length := by
    intro nowMs hdue
    rw [full_of_ticking hdue]
    decide
  refine ⟨fun nowMs hdue => drainEventsAt_of_full (hfull nowMs hdue), fun h => ?_⟩
  obtain ⟨due, -, hanswer, -⟩ := h.delivers.1.drains 1500 rfl
  rw [drainEventsAt_of_full (hfull 1500 (by decide))] at hanswer
  cases hanswer

end State

end BotsterHub.Capability
