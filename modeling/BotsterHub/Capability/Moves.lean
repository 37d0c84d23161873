import BotsterHub.Capability.Runtime

/-!
What a call can do.

Every call is a chain of a few moves on events, operations, completions and timers; a drain then
empties its plugin's queue and a cleanup removes what the plugin has. What the moves and these two
keep, every call keeps.
-/

namespace BotsterHub.Capability

open List Option AList

def Event.report : Event → Option (OperationId × ℕ)
  | .completed _ operationId _ serial | .failed _ operationId _ serial => some (operationId, serial)
  | _ => none

namespace State

variable {s t u : State} {pluginKey : PluginKey} {event : Event} {request : Request} {roomy : Prop}

@[simp] theorem events_pushLocalEvent (s : State) (event : Event) (pluginKey : PluginKey) :
    (s.pushLocalEvent event).events pluginKey =
      s.events pluginKey ++ if pluginKey = event.pluginKey then [event] else [] := by
  by_cases h : pluginKey = event.pluginKey
  · subst h
    simp [events, pushLocalEvent]
  · simp [events, pushLocalEvent, h]

def reportTimer (s : State) (request : Request) : State :=
  (s.pushLocalEvent
    (.completed request.pluginKey request.operationId none (s.serial request.pluginKey))).accept
      request

def assign (s : State) (request : Request) : State :=
  ({ s with
    inFlight := s.inFlight ++
      [⟨request.pluginKey, request.operationId, s.serial request.pluginKey⟩] } : State).accept
    request

inductive Move (roomy : Prop) : State → State → Prop where
  | push (s : State) (event : Event) (hreport : event.report = none) :
      Move roomy s (s.pushLocalEvent event)
  | report (s : State) (request : Request) : Move roomy s (s.reportTimer request)
  | assign (s : State) (request : Request) : Move roomy s (s.assign request)
  | take (s : State) {completion : Completion} {rest : List Completion}
      (hchannel : s.completions = completion :: rest) :
      Move roomy s ({ s with completions := rest }.pushLocalEvent completion.event)
  | lose (s : State) {completion : Completion} {rest : List Completion}
      (hchannel : s.completions = completion :: rest) (hfull : ¬roomy) :
      Move roomy s { s with completions := rest }
  | timer (s : State) (resourceId : ResourceId) (timer : Option Timer)
      (howner : ∀ t ∈ timer, t.resource.pluginKey = t.pluginKey ∧
        t.resource.resourceId = resourceId) :
      Move roomy s { s with timers := s.timers.put resourceId timer }

abbrev Moves (roomy : Prop) : State → State → Prop := Relation.ReflTransGen (Move roomy)

theorem Moves.keeps {P : State → Prop} (hm : ∀ s t, P s → Move roomy s t → P t)
    (h : Moves roomy s t) (hs : P s) : P t := by
  induction h with
  | refl => exact hs
  | tail _ hl ih => exact hm _ _ ih hl

theorem Moves.andThen {α β : Type} {r : State × Except RuntimeError α}
    {next : State → α → State × Except RuntimeError β} (h : Moves roomy s r.1)
    (hn : ∀ t v, r = (t, .ok v) → Moves roomy t (next t v).1) :
    Moves roomy s (Capability.andThen r next).1 := by
  obtain ⟨t, a⟩ := r
  cases a with
  | error => exact h
  | ok v => exact h.trans (hn t v rfl)

def completionsOf (s : State) (pluginKey : PluginKey) : List Completion :=
  s.completions.filter fun completion => decide (completion.pluginKey = pluginKey)

def RoomFor (s : State) (p : PluginKey → Prop) : Prop :=
  ∀ completion ∈ s.completions, p completion.pluginKey →
    s.localEventLen completion.pluginKey + (s.completionsOf completion.pluginKey).length ≤
      s.eventCapacity

instance (s : State) (p : PluginKey → Prop) [DecidablePred p] : Decidable (s.RoomFor p) := by
  unfold RoomFor
  infer_instance

abbrev Room (s : State) : Prop := s.RoomFor fun _ => True

@[simp] theorem pluginKey_event (completion : Completion) :
    completion.event.pluginKey = completion.pluginKey := by
  unfold Completion.event
  split <;> rfl

section

variable {p : PluginKey → Prop} {c : Completion} {rest : List Completion}

theorem RoomFor.head (h : s.RoomFor p) (hc : s.completions = c :: rest) (hp : p c.pluginKey) :
    { s with completions := rest }.ensureEventCapacity c.pluginKey 1 = .ok () := by
  have hr := h c (by rw [hc]; exact mem_cons_self) hp
  simp only [completionsOf, hc, decide_true, filter_cons_of_pos, length_cons] at hr
  unfold ensureEventCapacity
  rw [if_neg]
  show ¬s.eventCapacity < s.localEventLen c.pluginKey + 1
  omega

theorem RoomFor.tail (h : s.RoomFor p) (hc : s.completions = c :: rest) :
    ({ s with completions := rest }.pushLocalEvent c.event).RoomFor p := by
  intro next hm hp
  have hr := h next (by rw [hc]; exact mem_cons_of_mem _ hm) hp
  rw [completionsOf, hc, filter_cons] at hr
  show (({ s with completions := rest }.pushLocalEvent c.event).events
    next.pluginKey).length + (rest.filter _).length ≤ s.eventCapacity
  rw [events_pushLocalEvent, pluginKey_event, length_append]
  show (s.events next.pluginKey).length + _ + _ ≤ _
  by_cases heq : c.pluginKey = next.pluginKey
  · rw [if_pos heq.symm]
    simp only [heq, decide_true, if_true, length_cons, localEventLen] at hr
    simp only [length_singleton]
    omega
  · rw [if_neg (Ne.symm heq)]
    simp only [heq, decide_false, Bool.false_eq_true, if_false, localEventLen] at hr
    simpa using hr

def undrained (s : State) (pluginKey : PluginKey) : List Event :=
  s.events pluginKey ++ (s.completionsOf pluginKey).map Completion.event

theorem undrained_takeCompletions {completions : List Completion} (h : s.RoomFor p)
    (hc : s.completions = completions) (hp : p pluginKey) :
    (s.takeCompletions completions).1.undrained pluginKey = s.undrained pluginKey := by
  induction completions generalizing s with
  | nil => rfl
  | cons c rest ih =>
    have ht := ih (h.tail hc) rfl
    rw [takeCompletions]
    by_cases heq : c.pluginKey = pluginKey
    · subst heq
      rw [h.head hc hp]
      refine ht.trans ?_
      rw [undrained, events_pushLocalEvent, pluginKey_event, if_pos rfl]
      simp [undrained, completionsOf, hc, pushLocalEvent, events]
    · have hs : ({ s with completions := rest }.pushLocalEvent
          c.event).undrained pluginKey = s.undrained pluginKey := by
        rw [undrained, events_pushLocalEvent, pluginKey_event, if_neg (Ne.symm heq)]
        simp [undrained, completionsOf, hc, pushLocalEvent, events, heq]
      cases { s with completions := rest }.ensureEventCapacity c.pluginKey 1
        with
      | error error =>
        show { s with completions := rest }.undrained pluginKey = _
        simp [undrained, completionsOf, hc, heq, events]
      | ok _ => exact ht.trans hs

end

variable {completions : List Completion}

theorem moves_takeCompletions (hroom : roomy → s.Room) (hc : s.completions = completions) :
    Moves roomy s (s.takeCompletions completions).1 := by
  induction completions generalizing s with
  | nil => exact .refl
  | cons c rest ih =>
    unfold takeCompletions
    dsimp only
    cases hcheck : { s with completions := rest }.ensureEventCapacity c.pluginKey 1 with
    | error error =>
      refine .single (.lose s hc fun hr => ?_)
      rw [(hroom hr).head hc trivial] at hcheck
      cases hcheck
    | ok _ =>
      exact .head (.take s hc) (ih (fun hr => (hroom hr).tail hc) rfl)

theorem takeCompletions_ok (h : s.Room)
    (hc : s.completions = completions) : (s.takeCompletions completions).2 = .ok () := by
  induction completions generalizing s with
  | nil => rfl
  | cons _ _ ih =>
    rw [takeCompletions, h.head hc trivial]
    exact ih (h.tail hc) rfl

theorem moves_drainWorkerCompletions (hr : roomy → s.Room) :
    Moves roomy s s.drainWorkerCompletions.1 :=
  moves_takeCompletions hr rfl

theorem moves_ensureRuntimeCapacity (hr : roomy → s.Room) (request : Request) :
    Moves roomy s (s.ensureRuntimeCapacity request).1 := by
  refine (moves_drainWorkerCompletions hr).andThen fun t _ _ => ?_
  dsimp only
  split
  · exact .refl
  split
  · exact .single (.push t _ rfl)
  · exact .refl

theorem moves_startWorker (s : State) (request : Request) (turn : Turn) (f : String) :
    Moves roomy s (s.startWorker request turn f).1 := by
  unfold startWorker
  split
  · exact .refl
  · exact .single (.assign s request)

theorem moves_check {α β : Type} (s : State) (check : Except RuntimeError α)
    {next : State → α → State × Except RuntimeError β}
    (hn : ∀ v, check = .ok v → Moves roomy s (next s v).1) :
    Moves roomy s (andThen (s, check) next).1 := by
  cases check with
  | error => exact .refl
  | ok v => exact hn v rfl

theorem moves_submitFilesystem (hr : roomy → s.Room) (request : Request) (scopeId : String)
    (o : FilesystemOperation) (scopedRelative : Bool) (turn : Turn) :
    Moves roomy s (s.submitFilesystem request scopeId o scopedRelative turn).1 :=
  (moves_ensureRuntimeCapacity hr request).andThen fun t _ _ =>
    moves_check t _ fun _ _ => moves_startWorker t request turn _

theorem moves_submitPluginStore (hr : roomy → s.Room) (request : Request)
    (n : String) (v : Bool) (turn : Turn) :
    Moves roomy s (s.submitPluginStore request n v turn).1 :=
  (moves_ensureRuntimeCapacity hr request).andThen fun t _ _ =>
    moves_check t _ fun _ _ => moves_startWorker t request turn _

theorem moves_completeTimer (s : State) (request : Request) (hr : event.report = none) :
    Moves roomy s (s.completeTimer request event) :=
  .head (.push s event hr) (.single (.report _ request))

theorem moves_openTimer (s : State) (request : Request) (d : ℕ) (i : Option ℕ)
    (turn : Turn) : Moves roomy s (s.openTimer request d i turn).1 := by
  unfold openTimer
  split
  · exact .refl
  refine moves_check s _ fun _ _ => ?_
  refine .head (.timer s (timerId request.operationId) (some _) fun t ht => ?_)
    (moves_completeTimer _ request rfl)
  rw [← some.inj ht]
  exact ⟨rfl, rfl⟩

theorem moves_cancelTimerResource (s : State) (request : Request) (r : ResourceId) :
    Moves roomy s (s.cancelTimerResource request r).1 := by
  have he : Move roomy s { s with timers := s.timers.erase r } :=
    .timer s r none fun _ hn => absurd hn (not_mem_none _)
  unfold cancelTimerResource
  split
  · exact .refl
  split
  · exact .single he
  · exact .head he (moves_check _ _ fun _ _ => moves_completeTimer _ request rfl)

theorem moves_submitTimer (s : State) (request : Request) (timer : TimerRequest) (turn : Turn) :
    Moves roomy s (s.submitTimer request timer turn).1 := by
  unfold submitTimer
  split
  · exact .refl
  cases timer with
  | once d => exact moves_openTimer s request d none turn
  | interval i => exact moves_openTimer s request i (some i) turn
  | cancel r => exact moves_cancelTimerResource s request r

/-- A queue holds events of its plugin, a timer is kept under its own resource id. -/
structure Owned (s : State) : Prop where
  timers : ∀ resourceId, ∀ timer ∈ s.timers.lookup resourceId,
    timer.resource.pluginKey = timer.pluginKey ∧ timer.resource.resourceId = resourceId
  events : ∀ pluginKey, ∀ event ∈ s.events pluginKey, event.pluginKey = pluginKey

theorem Owned.pushLocalEvent (h : Owned s) (event : Event) : Owned (s.pushLocalEvent event) where
  timers := h.timers
  events key e he := by
    rw [events_pushLocalEvent] at he
    rcases mem_append.mp he with he | he
    · exact h.events key e he
    split at he
    · next heq => rw [mem_singleton.mp he, heq]
    · exact absurd he not_mem_nil

theorem events_erase (s : State) (pluginKey key : PluginKey) :
    { s with pendingEvents := s.pendingEvents.erase pluginKey }.events key =
      if key = pluginKey then [] else s.events key := by
  unfold events
  rw [lookup_erase_eq]
  split <;> rfl

theorem Owned.empty (h : Owned s) (pluginKey : PluginKey) :
    Owned { s with pendingEvents := s.pendingEvents.erase pluginKey } := by
  refine ⟨h.timers, fun key event he => ?_⟩
  rw [events_erase] at he
  split at he
  · exact absurd he not_mem_nil
  · exact h.events key event he

theorem Owned.move (h : Owned s) (hm : Move roomy s t) : Owned t := by
  cases hm with
  | push event => exact h.pushLocalEvent event
  | report request =>
    have hp := h.pushLocalEvent
      (.completed request.pluginKey request.operationId none (s.serial request.pluginKey))
    exact ⟨hp.timers, hp.events⟩
  | assign | lose => exact ⟨h.timers, h.events⟩
  | @take _ rest =>
    exact Owned.pushLocalEvent (s := { s with completions := rest }) ⟨h.timers, h.events⟩ _
  | timer _ _ ho =>
    refine ⟨fun id t ht => ?_, h.events⟩
    rw [lookup_put] at ht
    split at ht
    · next heq => exact heq ▸ ho t ht
    · exact h.timers id t ht

theorem Moves.owned (h : Moves roomy s t) (ho : Owned s) : Owned t :=
  h.keeps (fun _ _ => Owned.move) ho

variable {due : ℕ ×ₗ ResourceId}

theorem mem_dueTimers :
    due ∈ s.dueTimers pluginKey n ↔ ∃ timer, s.timers.lookup (ofLex due).2 = some timer ∧
      timer.pluginKey = pluginKey ∧ timer.nextFireMs ≤ n ∧ timer.nextFireMs = (ofLex due).1 := by
  unfold dueTimers
  rw [List.mem_insertionSort, List.mem_map]
  constructor
  · rintro ⟨e, he, rfl⟩
    obtain ⟨hm, hd⟩ := mem_filter.mp he
    obtain ⟨ho, hle⟩ := of_decide_eq_true hd
    exact ⟨e.2, lookup_of_mem_entries hm, ho, hle, rfl⟩
  · rintro ⟨timer, hl, ho, hle, hf⟩
    refine ⟨⟨(ofLex due).2, timer⟩, mem_filter.mpr ⟨mem_entries_of_lookup hl, ?_⟩, ?_⟩
    · simp [ho, hle]
    · rw [hf]
      rfl

def firedTimer (nowMs : ℕ) (timer : Timer) : Option Timer :=
  timer.intervalMs.map fun intervalMs =>
    { timer with sequence := timer.sequence + 1, nextFireMs := saturatingAdd nowMs intervalMs }

theorem firedTimer_owner {next : Timer} (h : next ∈ firedTimer n timer) :
    next.pluginKey = timer.pluginKey ∧ next.resource = timer.resource := by
  obtain ⟨intervalMs, -, rfl⟩ := map_eq_some_iff.mp h
  exact ⟨rfl, rfl⟩

theorem fireTimer_eq (n : ℕ) (hl : s.timers.lookup (ofLex due).2 = some timer) :
    fireTimer n s due = { s with
        timers := s.timers.put (ofLex due).2 (firedTimer n timer) }.pushLocalEvent
      (.timerFired timer.resource (timer.sequence + 1)) := by
  unfold fireTimer firedTimer
  rw [hl]
  cases hi : timer.intervalMs <;> simp [hi, put]

theorem fireTimer_of_none (n : ℕ)
    (hl : s.timers.lookup (ofLex due).2 = none) : fireTimer n s due = s := by
  unfold fireTimer
  rw [hl]

theorem moves_fireTimer (ho : Owned s) (n : ℕ) (due : ℕ ×ₗ ResourceId) :
    Moves roomy s (fireTimer n s due) := by
  cases hl : s.timers.lookup (ofLex due).2 with
  | none =>
    rw [fireTimer_of_none n hl]
  | some timer =>
    rw [fireTimer_eq n hl]
    refine .head (.timer s _ _ fun next hn => ?_) (.single (.push _ _ rfl))
    obtain ⟨hk, hr⟩ := firedTimer_owner hn
    rw [hk, hr]
    exact ho.timers _ timer hl

theorem moves_foldl_fireTimer (ho : Owned s) (n : ℕ) (due : List (ℕ ×ₗ ResourceId)) :
    Moves roomy s (due.foldl (fireTimer n) s) := by
  induction due generalizing s with
  | nil => exact .refl
  | cons d _ ih =>
    have hf : Moves roomy s (fireTimer n s d) := moves_fireTimer ho n d
    exact hf.trans (ih (hf.owned ho))

theorem moves_enqueueDueTimers (ho : Owned s) (pluginKey : PluginKey) (n : ℕ) :
    Moves roomy s (s.enqueueDueTimers pluginKey n).1 :=
  moves_check s _ fun _ _ => moves_foldl_fireTimer ho n _

def CallRoom (s : State) : Call → Prop
  | .submit request _ =>
    match request.operation with
    | .timer _ => True
    | _ => s.Room
  | .drainEvents _ => s.Room
  | .drainEventsAt pluginKey nowMs => (s.enqueueDueTimers pluginKey nowMs).1.Room
  | .releaseResource _ | .cleanupPlugin _ => True

instance (s : State) (call : Call) : Decidable (s.CallRoom call) := by
  unfold CallRoom
  split
  · split <;> infer_instance
  all_goals infer_instance

theorem completions_takeCompletions
    (hc : s.completions = completions) (h : (s.takeCompletions completions).2 = .ok ()) :
    (s.takeCompletions completions).1.completions = [] := by
  induction completions generalizing s with
  | nil => exact hc
  | cons _ rest ih =>
    unfold takeCompletions at h ⊢
    obtain ⟨t, _, hcheck, hr, hok⟩ := andThen_eq_ok h
    obtain rfl : ({ s with completions := rest } : State) = t := congrArg Prod.fst hcheck
    rw [hr]
    exact ih rfl hok

theorem takeCompletions_eq (s : State) (completions : List Completion) :
    ∃ channel pendingEvents, (s.takeCompletions completions).1 =
      { s with completions := channel, pendingEvents } := by
  induction completions generalizing s with
  | nil => exact ⟨s.completions, s.pendingEvents, rfl⟩
  | cons c rest ih =>
    rw [takeCompletions]
    cases { s with completions := rest }.ensureEventCapacity c.pluginKey 1 with
    | error => exact ⟨rest, s.pendingEvents, rfl⟩
    | ok =>
      exact ih ({ s with completions := rest }.pushLocalEvent c.event)

structure Drains (roomy : Prop) (s : State) (pluginKey : PluginKey)
    (result : State × Except RuntimeError (List Event)) : Prop where
  failed : ∀ error, result.2 = .error error → Moves roomy s result.1
  drained : ∀ events, result.2 = .ok events → ∃ t, Moves roomy s t ∧ t.completions = [] ∧
    t.inFlight = s.inFlight ∧ events = t.events pluginKey ∧
    result.1 = { t with pendingEvents := t.pendingEvents.erase pluginKey }

theorem drains_drainEvents (hr : roomy → s.Room) (pluginKey : PluginKey) :
    Drains roomy s pluginKey (s.drainEvents pluginKey) := by
  have hm := moves_drainWorkerCompletions hr
  refine ⟨fun error he => ?_, fun events hevents => ?_⟩
  · unfold drainEvents at he ⊢
    cases hd : s.drainWorkerCompletions with
    | mk t a =>
      rw [hd] at he hm
      cases a with
      | error => exact hm
      | ok => cases he
  · obtain ⟨t, _, hd, heq, hok⟩ := andThen_eq_ok hevents
    have ht : t = s.drainWorkerCompletions.1 := (congrArg Prod.fst hd).symm
    refine ⟨t, ht ▸ hm, ?_, ?_, (Except.ok.inj hok).symm, congrArg Prod.fst heq⟩
    · rw [ht]
      exact completions_takeCompletions rfl (congrArg Prod.snd hd)
    · obtain ⟨channel, pendingEvents, heq⟩ := takeCompletions_eq s s.completions
      rw [ht, drainWorkerCompletions, heq]

theorem inFlight_foldl_fireTimer (n : ℕ) (due : List (ℕ ×ₗ ResourceId)) (s : State) :
    (due.foldl (fireTimer n) s).inFlight = s.inFlight := by
  induction due generalizing s with
  | nil => rfl
  | cons d _ ih =>
    rw [foldl_cons, ih]
    cases hl : s.timers.lookup (ofLex d).2 with
    | none => rw [fireTimer_of_none n hl]
    | some =>
      rw [fireTimer_eq n hl]
      rfl

theorem inFlight_enqueueDueTimers (s : State) (pluginKey : PluginKey) (n : ℕ) :
    (s.enqueueDueTimers pluginKey n).1.inFlight = s.inFlight := by
  unfold enqueueDueTimers
  dsimp only
  cases s.ensureEventCapacity pluginKey (s.dueTimers pluginKey n).length with
  | error => rfl
  | ok => exact inFlight_foldl_fireTimer n _ s

theorem drains_drainEventsAt (ho : Owned s) (pluginKey : PluginKey) (n : ℕ)
    (hr : roomy → (s.enqueueDueTimers pluginKey n).1.Room) :
    Drains roomy s pluginKey (s.drainEventsAt pluginKey n) := by
  have he : Moves roomy s (s.enqueueDueTimers pluginKey n).1 :=
    moves_enqueueDueTimers ho pluginKey n
  have hi := inFlight_enqueueDueTimers s pluginKey n
  unfold drainEventsAt
  cases hresult : s.enqueueDueTimers pluginKey n with
  | mk t a =>
    rw [hresult] at he hr hi
    cases a with
    | error => exact ⟨fun _ _ => he, nofun⟩
    | ok =>
      obtain ⟨hf, hd⟩ := drains_drainEvents hr pluginKey
      refine ⟨fun error herror => he.trans (hf error herror), fun e hevents => ?_⟩
      obtain ⟨u, hm, hc, hs, hrest⟩ := hd e hevents
      exact ⟨u, he.trans hm, hc, hs.trans hi, hrest⟩

inductive Outcome (s : State) (call : Call) : Prop where
  | moved (hmoves : Moves (s.CallRoom call) s (s.call call).1)
      (hanswer : ∀ events, (s.call call).2 ≠ .ok (.events events))
  | drained (t : State) (hmoves : Moves (s.CallRoom call) s t) (hchannel : t.completions = [])
      (hinFlight : t.inFlight = s.inFlight)
      (hcall : s.call call = ({ t with pendingEvents := t.pendingEvents.erase call.pluginKey },
        .ok (.events (t.events call.pluginKey))))
  | cleaned (pluginKey : PluginKey) (hcall : call = .cleanupPlugin pluginKey)

theorem Drains.outcome (call : Call) (h : Drains (s.CallRoom call) s call.pluginKey r)
    (hc : s.call call = andThen r fun s e => (s, .ok (.events e))) :
    Outcome s call := by
  obtain ⟨t, a⟩ := r
  cases a with
  | error error =>
    refine .moved ?_ fun e heq => ?_
    · rw [hc]
      exact h.failed error rfl
    · rw [hc] at heq
      cases heq
  | ok e =>
    obtain ⟨u, hm, hchannel, hi, rfl, rfl⟩ := h.drained e rfl
    exact .drained u hm hchannel hi hc

theorem outcome_moved {α : Type} {call : Call} {r : State × Except RuntimeError α}
    {a : α → Answer} (h : Moves (s.CallRoom call) s r.1)
    (hc : s.call call = andThen r fun s v => (s, .ok (a v)))
    (ha : ∀ v e, a v ≠ .events e) : Outcome s call := by
  refine .moved ?_ fun e heq => ?_
  · rw [hc]
    exact h.andThen fun _ _ _ => .refl
  rw [hc] at heq
  obtain ⟨_, v, -, -, hv⟩ := andThen_eq_ok heq
  exact ha v e (Except.ok.inj hv)

theorem call_outcome (ho : Owned s) (call : Call) : Outcome s call := by
  cases call with
  | submit request turn =>
    refine outcome_moved (moves_check s _ fun _ _ => ?_) rfl nofun
    obtain ⟨pluginKey, operationId, o⟩ := request
    cases o with
    | filesystem scopeId o scopedRelative =>
      exact moves_submitFilesystem id _ scopeId o scopedRelative turn
    | pluginStore n v =>
      exact moves_submitPluginStore id _ n v turn
    | timer timer => exact moves_submitTimer s _ timer turn
  | releaseResource r =>
    refine outcome_moved ?_ (show s.call (.releaseResource r) =
      andThen (s.releaseResource r) fun s _ => (s, .ok .released) from rfl) nofun
    unfold releaseResource
    split
    · exact (moves_cancelTimerResource s _ _).andThen fun t _ _ => .refl
    · exact .refl
  | drainEvents pluginKey =>
    have h : Drains (s.CallRoom (.drainEvents pluginKey)) s pluginKey (s.drainEvents pluginKey) :=
      drains_drainEvents id pluginKey
    exact Drains.outcome (.drainEvents pluginKey) h rfl
  | drainEventsAt pluginKey nowMs =>
    have h : Drains (s.CallRoom (.drainEventsAt pluginKey nowMs)) s pluginKey
        (s.drainEventsAt pluginKey nowMs) :=
      drains_drainEventsAt ho pluginKey nowMs id
    exact Drains.outcome (.drainEventsAt pluginKey nowMs) h rfl
  | cleanupPlugin pluginKey => exact .cleaned pluginKey rfl

theorem Owned.call (h : Owned s) (call : Call) : Owned (s.call call).1 := by
  cases call_outcome h call with
  | moved hm => exact hm.owned h
  | drained t hm _ _ hc =>
    rw [hc]
    exact (hm.owned h).empty call.pluginKey
  | cleaned pluginKey hc =>
    subst hc
    have he := h.empty pluginKey
    exact ⟨fun id timer ht => h.timers id timer (lookup_of_retain ht), he.events⟩

theorem Owned.step (h : Owned s) (step : Step) : Owned (s.step step) := by
  cases step with
  | call call => exact h.call call
  | complete =>
    simp only [State.step, complete]
    split
    · exact h
    · exact ⟨h.timers, h.events⟩
  | setPluginGrants | revokePluginGrants => exact ⟨h.timers, h.events⟩

theorem owned_new : Owned new where
  timers _ _ h := absurd h (not_mem_none _)
  events _ _ h := absurd h not_mem_nil

theorem Owned.run (h : Owned s) (steps : List Step) : Owned (s.run steps) := by
  induction steps generalizing s with
  | nil => exact h
  | cons step _ ih => exact ih (h.step step)

end State

end BotsterHub.Capability
