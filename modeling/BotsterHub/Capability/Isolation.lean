import BotsterHub.Capability.Moves

/-!
Isolation of plugins from each other.

A call is isolated when it answers as if its plugin were alone (`only`) and leaves the timers and
undrained events of the others. It is, unless it names a timer of another plugin or takes in a
completion for which another queue has no room.
-/

namespace BotsterHub.Capability

open List Option AList State

namespace State

variable {s t : State} {pluginKey other : PluginKey} {event : Event} {request : Request}
  {resourceId : ResourceId}

def timersOf (s : State) (pluginKey : PluginKey) : Dict ResourceId Timer :=
  s.timers.retain fun _ timer => decide (timer.pluginKey = pluginKey)

def only (s : State) (pluginKey : PluginKey) : State :=
  { s with
    timers := s.timersOf pluginKey
    pendingEvents := s.pendingEvents.retain fun key _ => decide (key = pluginKey)
    completions := s.completionsOf pluginKey
    inFlight := s.inFlight.filter fun work => decide (work.pluginKey = pluginKey)
    accepted := fun key => if key = pluginKey then s.accepted pluginKey else [] }

structure Untouched (pluginKey : PluginKey) (s t : State) : Prop where
  timers : t.timersOf pluginKey = s.timersOf pluginKey
  undrained : t.undrained pluginKey = s.undrained pluginKey

theorem Untouched.refl (pluginKey : PluginKey) (s : State) : Untouched pluginKey s s := ⟨rfl, rfl⟩

theorem Untouched.trans (h : Untouched pluginKey s t) (h' : Untouched pluginKey t u) :
    Untouched pluginKey s u :=
  ⟨h'.timers.trans h.timers, h'.undrained.trans h.undrained⟩

structure Parted {α : Type} (pluginKey : PluginKey) (s : State) (result alone : State × α) :
    Prop where
  alone : alone = (result.1.only pluginKey, result.2)
  others : ∀ other, other ≠ pluginKey → Untouched other s result.1

section

variable {α β : Type}

theorem parted_same (s : State) (v : α) : Parted pluginKey s (s, v) (s.only pluginKey, v) :=
  ⟨rfl, fun other _ => .refl other s⟩

theorem Parted.andThen {r alone : State × Except RuntimeError α}
    {next : State → α → State × Except RuntimeError β} (h : Parted pluginKey s r alone)
    (hn : ∀ t v, r = (t, .ok v) → Parted pluginKey t (next t v) (next (t.only pluginKey) v)) :
    Parted pluginKey s (andThen r next) (Capability.andThen alone next) := by
  obtain ⟨t, a⟩ := r
  rw [h.alone]
  cases a with
  | error => exact ⟨rfl, h.others⟩
  | ok v =>
    have hr := hn t v rfl
    exact ⟨hr.alone, fun other hne => (h.others other hne).trans (hr.others other hne)⟩

theorem parted_change (honly : t.only pluginKey = u)
    (ho : ∀ other, other ≠ pluginKey → Untouched other s t) :
    Parted pluginKey s (t, v) (u, v) :=
  ⟨congrArg (·, v) honly.symm, ho⟩

theorem Parted.after {r a : State × α} (h : Parted pluginKey t r a)
    (ho : ∀ other, other ≠ pluginKey → Untouched other s t) :
    Parted pluginKey s r a :=
  ⟨h.alone, fun other hne => (ho other hne).trans (h.others other hne)⟩

end

@[simp] theorem events_only (s : State) (pluginKey : PluginKey) :
    (s.only pluginKey).events pluginKey = s.events pluginKey := by
  simp only [events, only, lookup_retain, decide_true]
  cases s.pendingEvents.lookup pluginKey <;> rfl

theorem only_pushLocalEvent (s : State) (event : Event) :
    (s.pushLocalEvent event).only event.pluginKey =
      (s.only event.pluginKey).pushLocalEvent event := by
  unfold pushLocalEvent
  rw [events_only]
  simp only [only, timersOf, completionsOf, mk.injEq, true_and, and_true]
  rw [retain_insert _ _ (by simp)]

theorem only_pushLocalEvent_of_ne (h : event.pluginKey ≠ pluginKey) :
    (s.pushLocalEvent event).only pluginKey = s.only pluginKey := by
  simp only [pushLocalEvent, only, timersOf, completionsOf, mk.injEq, true_and, and_true]
  exact retain_insert_of_not _ _ (by simp [h]) fun _ _ => by simp [h]

theorem untouched_pushLocalEvent (h : event.pluginKey ≠ other) :
    Untouched other s (s.pushLocalEvent event) := by
  refine ⟨rfl, ?_⟩
  rw [undrained, events_pushLocalEvent, if_neg h.symm, append_nil]
  rfl

theorem ensureEventCapacity_only (s : State) (pluginKey : PluginKey) (a : ℕ) :
    (s.only pluginKey).ensureEventCapacity pluginKey a = s.ensureEventCapacity pluginKey a := by
  unfold ensureEventCapacity localEventLen
  rw [events_only]
  rfl

abbrev OthersRoom (s : State) (pluginKey : PluginKey) : Prop := s.RoomFor (· ≠ pluginKey)

theorem takeCompletions_only {completions : List Completion} (h : s.OthersRoom pluginKey)
    (hc : s.completions = completions) :
    (s.only pluginKey).takeCompletions
        (completions.filter fun c => decide (c.pluginKey = pluginKey)) =
      ((s.takeCompletions completions).1.only pluginKey, (s.takeCompletions completions).2) := by
  induction completions generalizing s with
  | nil => rfl
  | cons completion rest ih =>
    have ht := ih (h.tail hc) rfl
    by_cases heq : completion.pluginKey = pluginKey
    · subst heq
      rw [filter_cons_of_pos (by simp), takeCompletions, takeCompletions]
      have hcheck := ensureEventCapacity_only ({ s with completions := rest } : State)
        completion.pluginKey 1
      have hp := only_pushLocalEvent ({ s with completions := rest } : State) completion.event
      rw [pluginKey_event] at hp
      rw [show ({ s.only completion.pluginKey with completions := rest.filter _ } : State) =
        { s with completions := rest }.only completion.pluginKey from rfl, hcheck]
      cases { s with completions := rest }.ensureEventCapacity completion.pluginKey 1
        with
      | error error => rfl
      | ok _ =>
        rw [hp] at ht
        exact ht
    · have hp : ({ s with completions := rest }.pushLocalEvent
          completion.event).only pluginKey = s.only pluginKey := by
        rw [only_pushLocalEvent_of_ne (by rw [pluginKey_event]; exact heq)]
        simp [only, timersOf, completionsOf, hc, heq]
      rw [hp] at ht
      rw [filter_cons_of_neg (by simp [heq]), takeCompletions]
      rw [h.head hc heq]
      exact ht

theorem parted_drainWorkerCompletions (h : s.OthersRoom pluginKey) :
    Parted pluginKey s s.drainWorkerCompletions (s.only pluginKey).drainWorkerCompletions := by
  refine ⟨takeCompletions_only h rfl, fun other hne => ⟨?_, undrained_takeCompletions h rfl hne⟩⟩
  obtain ⟨rest, pendingEvents, hf⟩ := s.takeCompletions_eq s.completions
  rw [drainWorkerCompletions, hf]
  rfl

theorem parted_ensureRuntimeCapacity (h : s.OthersRoom request.pluginKey) :
    Parted request.pluginKey s (s.ensureRuntimeCapacity request)
      ((s.only request.pluginKey).ensureRuntimeCapacity request) := by
  refine (parted_drainWorkerCompletions h).andThen fun t _ _ => ?_
  have hl : (t.only request.pluginKey).localEventLen request.pluginKey =
      t.localEventLen request.pluginKey := congrArg length (events_only _ _)
  dsimp only
  rw [hl]
  show Parted _ _ _ (if _ < t.operationCapacity then _ else _)
  split
  · exact parted_same t _
  show Parted _ _ _ (if _ < t.eventCapacity then _ else _, _)
  split
  · exact parted_change (only_pushLocalEvent t _) fun other hne => untouched_pushLocalEvent hne.symm
  · exact parted_same t _

theorem only_accept (s : State) (request : Request) :
    (s.accept request).only request.pluginKey = (s.only request.pluginKey).accept request := by
  simp only [accept, only, timersOf, completionsOf, mk.injEq, true_and, if_true]
  funext key
  by_cases h : key = request.pluginKey
  · subst h
    simp
  · simp [h]

theorem parted_startWorker (s : State) (request : Request) (turn : Turn) (f : String) :
    Parted request.pluginKey s (s.startWorker request turn f)
      ((s.only request.pluginKey).startWorker request turn f) := by
  unfold startWorker
  split
  · exact parted_same s _
  refine parted_change ?_ fun other _ => ⟨rfl, rfl⟩
  rw [only_accept]
  simp [accept, only, timersOf, completionsOf, serial]

theorem parted_submitFilesystem (h : s.OthersRoom request.pluginKey)
    (scopeId : String) (o : FilesystemOperation) (scopedRelative : Bool) (turn : Turn) :
    Parted request.pluginKey s (s.submitFilesystem request scopeId o scopedRelative turn)
      ((s.only request.pluginKey).submitFilesystem request scopeId o scopedRelative turn) :=
  (parted_ensureRuntimeCapacity h).andThen fun t _ _ =>
    (parted_same t _).andThen fun t _ _ => parted_startWorker t request turn _

theorem parted_submitPluginStore (h : s.OthersRoom request.pluginKey)
    (n : String) (v : Bool) (turn : Turn) :
    Parted request.pluginKey s (s.submitPluginStore request n v turn)
      ((s.only request.pluginKey).submitPluginStore request n v turn) :=
  (parted_ensureRuntimeCapacity h).andThen fun t _ _ =>
    (parted_same t _).andThen fun t _ _ => parted_startWorker t request turn _

def NoForeign (s : State) (pluginKey : PluginKey) (resourceId : ResourceId) : Prop :=
  ∀ timer ∈ s.timers.lookup resourceId, timer.pluginKey = pluginKey

instance (s : State) (pluginKey : PluginKey) (resourceId : ResourceId) :
    Decidable (s.NoForeign pluginKey resourceId) := by
  unfold NoForeign
  infer_instance

theorem lookup_timersOf (h : s.NoForeign pluginKey resourceId) :
    (s.timersOf pluginKey).lookup resourceId = s.timers.lookup resourceId := by
  rw [timersOf, lookup_retain]
  cases hl : s.timers.lookup resourceId with
  | none => rfl
  | some timer => simp [h timer hl]

theorem only_putTimer (s : State) (resourceId : ResourceId) (timer : Option Timer)
    (ho : ∀ t ∈ timer, t.pluginKey = pluginKey) :
    { s with timers := s.timers.put resourceId timer }.only pluginKey =
      { s.only pluginKey with timers := (s.only pluginKey).timers.put resourceId timer } := by
  simp only [only, timersOf, completionsOf, mk.injEq, true_and, and_true]
  cases timer with
  | none => exact retain_erase _ _ _
  | some timer => exact retain_insert _ _ (by simp [ho timer rfl])

theorem untouched_putTimer (h : s.NoForeign pluginKey resourceId) (timer : Option Timer)
    (ho : ∀ t ∈ timer, t.pluginKey = pluginKey) (hne : other ≠ pluginKey) :
    Untouched other s { s with timers := s.timers.put resourceId timer } := by
  have hf : ∀ t ∈ s.timers.lookup resourceId, decide (t.pluginKey = other) = false :=
    fun t ht => by
      rw [h t ht]
      simp [hne.symm]
  refine ⟨?_, rfl⟩
  cases timer with
  | none => exact retain_erase_of_not _ _ hf
  | some timer =>
    exact retain_insert_of_not _ _ (by simp [ho timer rfl, hne.symm]) hf

theorem only_completeTimer (he : event.pluginKey = request.pluginKey) :
    (s.completeTimer request event).only request.pluginKey =
      (s.only request.pluginKey).completeTimer request event := by
  have hp : (s.pushLocalEvent event).only request.pluginKey =
      (s.only request.pluginKey).pushLocalEvent event := by
    rw [← he]
    exact only_pushLocalEvent s event
  have hc := only_pushLocalEvent (s.pushLocalEvent event)
    (.completed request.pluginKey request.operationId none (s.serial request.pluginKey))
  have hs : (s.only request.pluginKey).serial request.pluginKey = s.serial request.pluginKey := by
    simp [serial, only]
  unfold completeTimer
  rw [only_accept, hs, ← hp]
  exact congrArg (·.accept request) hc

theorem untouched_completeTimer (he : event.pluginKey = request.pluginKey)
    (hne : other ≠ request.pluginKey) : Untouched other s (s.completeTimer request event) := by
  have hp : Untouched other s (s.pushLocalEvent event) :=
    untouched_pushLocalEvent (by rw [he]; exact hne.symm)
  have hc : Untouched other (s.pushLocalEvent event) ((s.pushLocalEvent event).pushLocalEvent
        (.completed request.pluginKey request.operationId none (s.serial request.pluginKey))) :=
    untouched_pushLocalEvent hne.symm
  have hb := hp.trans hc
  exact ⟨hb.timers, hb.undrained⟩

theorem parted_ensureEventCapacity (s : State) (pluginKey : PluginKey) (a : ℕ) :
    Parted pluginKey s (s, s.ensureEventCapacity pluginKey a)
      (s.only pluginKey, (s.only pluginKey).ensureEventCapacity pluginKey a) := by
  rw [ensureEventCapacity_only]
  exact parted_same s _

theorem parted_openTimer (h : s.NoForeign request.pluginKey (timerId request.operationId))
    (delayMs : ℕ) (intervalMs : Option ℕ) (turn : Turn) :
    Parted request.pluginKey s (s.openTimer request delayMs intervalMs turn)
      ((s.only request.pluginKey).openTimer request delayMs intervalMs turn) := by
  unfold openTimer
  split
  · exact parted_same s _
  refine (parted_ensureEventCapacity s request.pluginKey 2).andThen fun t _ ht => ?_
  obtain rfl : s = t := congrArg Prod.fst ht
  have ho : ∀ timer ∈ some (α := Timer)
      { pluginKey := request.pluginKey
        resource := request.resourceRef (timerId request.operationId)
        nextFireMs := saturatingAdd turn.monotonicMs delayMs
        intervalMs
        sequence := 0 }, timer.pluginKey = request.pluginKey := fun timer htimer => by
    rw [← some.inj htimer]
  refine parted_change ?_ fun other hne => ?_
  · rw [only_completeTimer rfl]
    exact congrArg (completeTimer · request _) (only_putTimer s (timerId request.operationId) _ ho)
  · exact (untouched_putTimer h _ ho hne).trans (untouched_completeTimer rfl hne)

theorem parted_cancelTimerResource (h : s.NoForeign request.pluginKey resourceId) :
    Parted request.pluginKey s (s.cancelTimerResource request resourceId)
      ((s.only request.pluginKey).cancelTimerResource request resourceId) := by
  have hl : (s.only request.pluginKey).timers.lookup resourceId =
      s.timers.lookup resourceId := lookup_timersOf h
  have honly : { s with timers := s.timers.erase resourceId }.only request.pluginKey =
      { s.only request.pluginKey with
        timers := (s.only request.pluginKey).timers.erase resourceId } :=
    only_putTimer s resourceId none fun _ hn => absurd hn (not_mem_none _)
  have ho : ∀ other, other ≠ request.pluginKey →
      Untouched other s { s with timers := s.timers.erase resourceId } := fun other hne =>
    untouched_putTimer h none (fun _ hn => absurd hn (not_mem_none _)) hne
  unfold cancelTimerResource
  rw [hl]
  split
  · exact parted_same s _
  rw [← honly]
  refine Parted.after ?_ ho
  split
  · exact parted_same _ _
  refine (parted_ensureEventCapacity _ request.pluginKey 2).andThen fun t _ _ => ?_
  exact parted_change (only_completeTimer rfl) fun other => untouched_completeTimer rfl

theorem parted_submitTimer (h : match timer with
      | .once _ | .interval _ => s.NoForeign request.pluginKey (timerId request.operationId)
      | .cancel resourceId => s.NoForeign request.pluginKey resourceId) (turn : Turn) :
    Parted request.pluginKey s (s.submitTimer request timer turn)
      ((s.only request.pluginKey).submitTimer request timer turn) := by
  unfold submitTimer
  show Parted _ _ _ (if request.requiredCapability ∉ s.hostGrants then _ else _)
  split
  · exact parted_same s _
  cases timer with
  | once d => exact parted_openTimer h d none turn
  | interval i => exact parted_openTimer h i (some i) turn
  | cancel => exact parted_cancelTimerResource h

theorem dueTimers_only (s : State) (pluginKey : PluginKey) (n : ℕ) :
    (s.only pluginKey).dueTimers pluginKey n = s.dueTimers pluginKey n := by
  unfold dueTimers
  rw [show (s.only pluginKey).timers.entries = _ from entries_retain _ _, List.filter_filter]
  congr 2
  refine filter_congr fun e _ => ?_
  by_cases h : e.2.pluginKey = pluginKey <;> simp [h]

variable {due : ℕ ×ₗ ResourceId}

theorem fireTimer_parted (h : Owned s) (n : ℕ) (hd : s.NoForeign pluginKey (ofLex due).2) :
    (fireTimer n s due).only pluginKey = fireTimer n (s.only pluginKey) due ∧
      (∀ other, other ≠ pluginKey → Untouched other s (fireTimer n s due)) ∧
      ∀ id, s.NoForeign pluginKey id → (fireTimer n s due).NoForeign pluginKey id := by
  have hl' : (s.only pluginKey).timers.lookup (ofLex due).2 =
      s.timers.lookup (ofLex due).2 := lookup_timersOf hd
  cases hl : s.timers.lookup (ofLex due).2 with
  | none =>
    rw [hl] at hl'
    rw [fireTimer_of_none n hl, fireTimer_of_none n hl']
    exact ⟨rfl, fun other _ => .refl other s, fun _ hid => hid⟩
  | some timer =>
    rw [hl] at hl'
    rw [fireTimer_eq n hl, fireTimer_eq n hl']
    have ho : ∀ t ∈ firedTimer n timer, t.pluginKey = pluginKey := fun t ht =>
      (firedTimer_owner ht).1.trans (hd timer hl)
    have he : (Event.timerFired timer.resource (timer.sequence + 1)).pluginKey = pluginKey :=
      (h.timers _ timer hl).1.trans (hd timer hl)
    refine ⟨?_, fun other hne => ?_, fun id hid t ht => ?_⟩
    · rw [← only_putTimer s (ofLex due).2 _ ho, ← he]
      exact only_pushLocalEvent _ _
    · exact (untouched_putTimer hd _ ho hne).trans
        (untouched_pushLocalEvent (by rw [he]; exact hne.symm))
    have ht : t ∈ (s.timers.put (ofLex due).2 (firedTimer n timer)).lookup id := ht
    rw [lookup_put] at ht
    split at ht
    · exact ho t ht
    · exact hid t ht

theorem owned_fireTimer (h : Owned s) (n : ℕ) (due : ℕ ×ₗ ResourceId) : Owned (fireTimer n s due) :=
  have hm : Moves True s (fireTimer n s due) := moves_fireTimer h n due
  hm.owned h

theorem foldl_fireTimer_parted (h : Owned s) (n : ℕ) (due : List (ℕ ×ₗ ResourceId))
    (hd : ∀ d ∈ due, s.NoForeign pluginKey (ofLex d).2) :
    (due.foldl (fireTimer n) s).only pluginKey = due.foldl (fireTimer n) (s.only pluginKey) ∧
      ∀ other, other ≠ pluginKey → Untouched other s (due.foldl (fireTimer n) s) := by
  induction due generalizing s with
  | nil => exact ⟨rfl, fun other _ => .refl other s⟩
  | cons d _ ih =>
    obtain ⟨honly, ho, hk⟩ := fireTimer_parted h n (hd d mem_cons_self)
    obtain ⟨honly', ho'⟩ := ih (owned_fireTimer h n d) fun d' hm =>
      hk _ (hd d' (mem_cons_of_mem _ hm))
    refine ⟨?_, fun other hne => (ho other hne).trans (ho' other hne)⟩
    rw [foldl_cons, foldl_cons, honly', honly]

theorem noForeign_dueTimers
    (h : due ∈ s.dueTimers pluginKey n) : s.NoForeign pluginKey (ofLex due).2 := by
  intro timer ht
  obtain ⟨timer', hl, ho, -⟩ := mem_dueTimers.mp h
  rw [show s.timers.lookup (ofLex due).2 = some timer from ht] at hl
  rw [some.inj hl]
  exact ho

theorem parted_enqueueDueTimers (h : Owned s) (pluginKey : PluginKey) (n : ℕ) :
    Parted pluginKey s (s.enqueueDueTimers pluginKey n)
      ((s.only pluginKey).enqueueDueTimers pluginKey n) := by
  obtain ⟨honly, ho⟩ := foldl_fireTimer_parted h n (s.dueTimers pluginKey n)
    fun d => noForeign_dueTimers
  unfold enqueueDueTimers
  rw [dueTimers_only]
  refine (parted_ensureEventCapacity s pluginKey _).andThen fun t _ ht => ?_
  obtain rfl : s = t := congrArg Prod.fst ht
  exact parted_change honly ho

theorem parted_drainEvents (h : s.OthersRoom pluginKey) :
    Parted pluginKey s (s.drainEvents pluginKey) ((s.only pluginKey).drainEvents pluginKey) := by
  refine (parted_drainWorkerCompletions h).andThen fun t _ _ => ?_
  rw [events_only]
  refine parted_change ?_ fun other hne => ⟨rfl, ?_⟩
  · simp only [only, timersOf, completionsOf, mk.injEq, true_and, and_true]
    exact retain_erase ..
  · simp [undrained, events, completionsOf, hne]

theorem foldl_fireTimer_frame (nowMs : ℕ) (due : List (ℕ ×ₗ ResourceId)) (s : State) :
    ∃ timers pendingEvents, due.foldl (fireTimer nowMs) s = { s with timers, pendingEvents } := by
  induction due generalizing s with
  | nil => exact ⟨s.timers, s.pendingEvents, rfl⟩
  | cons d _ ih =>
    obtain ⟨timers, pendingEvents, h⟩ := ih (fireTimer nowMs s d)
    rw [foldl_cons, h]
    cases hl : s.timers.lookup (ofLex d).2 with
    | none =>
      rw [fireTimer_of_none nowMs hl]
      exact ⟨timers, pendingEvents, rfl⟩
    | some =>
      rw [fireTimer_eq nowMs hl]
      exact ⟨timers, pendingEvents, rfl⟩

theorem enqueueDueTimers_frame (s : State) (pluginKey : PluginKey) (nowMs : ℕ) :
    ∃ timers pendingEvents,
      (s.enqueueDueTimers pluginKey nowMs).1 = { s with timers, pendingEvents } := by
  unfold enqueueDueTimers
  dsimp only
  cases s.ensureEventCapacity pluginKey (s.dueTimers pluginKey nowMs).length with
  | error => exact ⟨s.timers, s.pendingEvents, rfl⟩
  | ok => exact foldl_fireTimer_frame nowMs _ s

theorem othersRoom_enqueueDueTimers (howned : Owned s) (h : s.OthersRoom pluginKey) (nowMs : ℕ) :
    (s.enqueueDueTimers pluginKey nowMs).1.OthersRoom pluginKey := by
  have ho := (parted_enqueueDueTimers howned pluginKey nowMs).others
  obtain ⟨timers, pendingEvents, hf⟩ := s.enqueueDueTimers_frame pluginKey nowMs
  rw [hf] at ho ⊢
  intro completion hm hne
  have he : { s with timers, pendingEvents }.events completion.pluginKey =
      s.events completion.pluginKey :=
    append_cancel_right (ho completion.pluginKey hne).undrained
  rw [localEventLen, he]
  exact h completion hm hne

theorem parted_drainEventsAt (ho : Owned s) (h : s.OthersRoom pluginKey) (n : ℕ) :
    Parted pluginKey s (s.drainEventsAt pluginKey n)
      ((s.only pluginKey).drainEventsAt pluginKey n) := by
  refine (parted_enqueueDueTimers ho pluginKey n).andThen fun t _ ht => ?_
  refine parted_drainEvents ?_
  rw [show t = (s.enqueueDueTimers pluginKey n).1 from (congrArg Prod.fst ht).symm]
  exact othersRoom_enqueueDueTimers ho h n

theorem retain_comm (p q : ResourceId → Timer → Bool) (timers : Dict ResourceId Timer) :
    (timers.retain p).retain q = (timers.retain q).retain p := by
  apply AList.ext
  simp only [entries_retain, List.filter_filter]
  exact List.filter_congr fun e _ => Bool.and_comm _ _

theorem parted_cleanupPlugin (s : State) (pluginKey : PluginKey) :
    Parted pluginKey s (s.cleanupPlugin pluginKey)
      ((s.only pluginKey).cleanupPlugin pluginKey) := by
  refine ⟨Prod.ext ?_ ?_, fun other hne => ⟨?_, ?_⟩⟩
  · simp only [cleanupPlugin, only, timersOf, completionsOf, mk.injEq, true_and, and_true]
    exact ⟨retain_comm .., (retain_erase ..).symm⟩
  · -- the removed resources are read off the plugin's own timers
    simp only [cleanupPlugin]
    rw [show (s.only pluginKey).timers.entries = _ from entries_retain _ _, List.filter_filter]
    simp only [Bool.and_self]
    refine filterMap_congr fun id hid => ?_
    rw [List.mem_insertionSort, List.mem_map] at hid
    obtain ⟨e, he, rfl⟩ := hid
    obtain ⟨hm, ho⟩ := mem_filter.mp he
    refine congrArg (Option.map Timer.resource) (lookup_timersOf fun timer ht => ?_)
    rw [lookup_of_mem_entries hm] at ht
    rw [← some.inj ht]
    exact of_decide_eq_true ho
  · apply AList.ext
    simp only [cleanupPlugin, timersOf, entries_retain, List.filter_filter]
    refine List.filter_congr fun e _ => ?_
    by_cases h : e.2.pluginKey = other
    · simp [h, hne]
    · simp [h]
  · show { s with pendingEvents := s.pendingEvents.erase pluginKey }.events other ++ _ = _
    rw [events_erase, if_neg hne]
    rfl

/-- The call names no timer of another plugin and takes in no completion without room in its queue.
-/
def Separate (s : State) : Call → Prop
  | .submit request _ =>
    match request.operation with
    | .timer (.once _) | .timer (.interval _) =>
      s.NoForeign request.pluginKey (timerId request.operationId)
    | .timer (.cancel resourceId) => s.NoForeign request.pluginKey resourceId
    | .filesystem _ _ _ | .pluginStore _ _ => s.OthersRoom request.pluginKey
  | .releaseResource resource => s.NoForeign resource.pluginKey resource.resourceId
  | .drainEvents pluginKey | .drainEventsAt pluginKey _ => s.OthersRoom pluginKey
  | .cleanupPlugin _ => True

instance (s : State) : ∀ call, Decidable (s.Separate call)
  | .submit ⟨_, _, .timer (.once _), _, _⟩ _ | .submit ⟨_, _, .timer (.interval _), _, _⟩ _
  | .submit ⟨_, _, .timer (.cancel _), _, _⟩ _ | .releaseResource _ => instDecidableNoForeign ..
  | .submit ⟨_, _, .filesystem _ _ _, _, _⟩ _ | .submit ⟨_, _, .pluginStore _ _, _, _⟩ _
  | .drainEvents _ | .drainEventsAt _ _ => inferInstanceAs (Decidable (s.OthersRoom _))
  | .cleanupPlugin _ => isTrue trivial

theorem parted_call (ho : Owned s) {call : Call} (h : s.Separate call) :
    Parted call.pluginKey s (s.call call) ((s.only call.pluginKey).call call) := by
  cases call with
  | submit request turn =>
    refine Parted.andThen ((parted_same s _).andThen fun t _ ht => ?_) fun t _ _ => parted_same t _
    obtain rfl : s = t := congrArg Prod.fst ht
    obtain ⟨pluginKey, operationId, o⟩ := request
    cases o with
    | filesystem scopeId o scopedRelative =>
      exact parted_submitFilesystem h scopeId o scopedRelative turn
    | pluginStore n v =>
      exact parted_submitPluginStore h n v turn
    | timer timer => cases timer <;> exact parted_submitTimer h turn
  | releaseResource resource =>
    refine Parted.andThen ?_ fun t _ _ => parted_same t _
    unfold releaseResource
    split
    · have hf : s.NoForeign (releaseRequest resource).pluginKey resource.resourceId := h
      exact (parted_cancelTimerResource hf).andThen fun t _ _ => parted_same t _
    · exact parted_same s _
  | drainEvents =>
    exact (parted_drainEvents h).andThen fun t _ _ => parted_same t _
  | drainEventsAt _ nowMs =>
    exact (parted_drainEventsAt ho h nowMs).andThen fun t _ _ => parted_same t _
  | cleanupPlugin pluginKey =>
    have hc := parted_cleanupPlugin s pluginKey
    exact ⟨congrArg (fun r : State × List Resource =>
      (r.1, (.ok (.removedResources r.2) : Except RuntimeError Answer))) hc.alone,
      hc.others⟩

/-- The call leaves the other plugins alone and does not depend on them. -/
structure Isolated (s : State) (call : Call) : Prop where
  others : ∀ other, other ≠ call.pluginKey → Untouched other s (s.call call).1
  independent : ∀ t : State, t.Owned → t.Separate call →
    t.only call.pluginKey = s.only call.pluginKey → (t.call call).2 = (s.call call).2
  drained : ∀ events, (s.call call).2 = .ok (.events events) →
    ∀ event ∈ events, event.pluginKey = call.pluginKey

variable {events : List Event}

theorem drainEvents_owned (h : Owned s) (ha : (s.drainEvents pluginKey).2 = .ok events) :
    ∀ event ∈ events, event.pluginKey = pluginKey := by
  have hm : Moves False s s.drainWorkerCompletions.1 :=
    moves_drainWorkerCompletions fun hr => hr.elim
  obtain ⟨t, _, hd, -, he⟩ := andThen_eq_ok ha
  rw [hd] at hm
  cases he
  exact (hm.owned h).events pluginKey

theorem drainEventsAt_owned (h : Owned s) (ha : (s.drainEventsAt pluginKey n).2 = .ok events) :
    ∀ event ∈ events, event.pluginKey = pluginKey := by
  have hm : Moves False s (s.enqueueDueTimers pluginKey n).1 := moves_enqueueDueTimers h pluginKey n
  obtain ⟨t, _, he, -, hd⟩ := andThen_eq_ok ha
  rw [he] at hm
  exact drainEvents_owned (hm.owned h) hd

theorem answer_events {call : Call} (ho : Owned s) (ha : (s.call call).2 = .ok (.events events)) :
    ∀ event ∈ events, event.pluginKey = call.pluginKey := by
  cases call with
  | submit | releaseResource =>
    obtain ⟨_, _, -, -, he⟩ := andThen_eq_ok ha
    cases he
  | drainEvents =>
    obtain ⟨t, d, hd, -, he⟩ := andThen_eq_ok ha
    obtain rfl := Answer.events.inj (Except.ok.inj he)
    exact drainEvents_owned ho (congrArg Prod.snd hd)
  | drainEventsAt =>
    obtain ⟨t, d, hd, -, he⟩ := andThen_eq_ok ha
    obtain rfl := Answer.events.inj (Except.ok.inj he)
    exact drainEventsAt_owned ho (congrArg Prod.snd hd)
  | cleanupPlugin => cases ha

/-- In every run, a call that meets the condition is isolated. -/
theorem run_call_isolated (steps : List Step) (call : Call)
    (h : (new.run steps).Separate call) : Isolated (new.run steps) call := by
  have howned := owned_new.run steps
  have hparted := parted_call howned h
  refine ⟨hparted.others, fun t ht hseparate hsame => ?_, fun events => answer_events howned⟩
  have hother := (parted_call ht hseparate).alone
  rw [hsame, hparted.alone] at hother
  exact (congrArg Prod.snd hother).symm

def twoPlugins : List Step :=
  [.setPluginGrants "pipelines" [⟨.timers, "callbacks"⟩],
    .setPluginGrants "workspaces" [⟨.timers, "callbacks"⟩]]

def armOnce (pluginKey : PluginKey) (delayMs : ℕ) : Call :=
  .submit ⟨pluginKey, "lua-timer-" ++ toString delayMs, .timer (.once delayMs),
    ⟨.timers, "callbacks"⟩, .timer⟩ ⟨0, none⟩

theorem run_call_isolated_delays :
    (new.run (twoPlugins ++ [.call (armOnce "pipelines" 200)])).Separate
        (armOnce "workspaces" 1000) ∧
      Isolated (new.run (twoPlugins ++ [.call (armOnce "pipelines" 200)]))
        (armOnce "workspaces" 1000) :=
  have hseparate : (new.run (twoPlugins ++ [.call (armOnce "pipelines" 200)])).Separate
      (armOnce "workspaces" 1000) := by decide +kernel
  ⟨hseparate, run_call_isolated _ _ hseparate⟩

/-- Equal delays make equal ids, and the second plugin's timer takes the place of the first's. -/
theorem equal_delays_collide :
    ¬Isolated (new.run (twoPlugins ++ [.call (armOnce "pipelines" 1000)]))
      (armOnce "workspaces" 1000) := by
  intro h
  have htimers := (h.others "pipelines" (by decide)).timers
  have hlookup := congrArg (fun timers => (timers.lookup "timer-lua-timer-1000").isSome) htimers
  exact absurd hlookup (by decide +kernel)

end State

end BotsterHub.Capability
