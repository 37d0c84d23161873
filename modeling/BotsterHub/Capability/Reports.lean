import BotsterHub.Capability.Moves
import BotsterHub.Lib.Machine
import Mathlib.Tactic.Abel

/-!
Every accepted operation reports once.

The ledger keeps what each plugin's drains returned since its last cleanup. As long as queues have
room and a plugin is cleaned up only with nothing in flight, these and the reports to come are
exactly the operations accepted since.
-/

namespace BotsterHub.Capability

open Multiset List Completion State

def reports (events : List Event) : Multiset (OperationId × ℕ) := events.filterMap Event.report

@[simp] theorem reports_nil : reports [] = 0 := rfl

@[simp] theorem reports_append (events events' : List Event) :
    reports (events ++ events') = reports events + reports events' := by
  simp [reports]

def Work.entry (work : Work) : OperationId × ℕ := (work.operationId, work.serial)

def entriesOf (works : List Work) (pluginKey : PluginKey) : Multiset (OperationId × ℕ) :=
  (works.filter fun work => decide (work.pluginKey = pluginKey)).map Work.entry

@[simp] theorem entriesOf_nil (pluginKey : PluginKey) : entriesOf [] pluginKey = 0 := rfl

@[simp] theorem entriesOf_append (works works' : List Work) (pluginKey : PluginKey) :
    entriesOf (works ++ works') pluginKey =
      entriesOf works pluginKey + entriesOf works' pluginKey := by
  simp [entriesOf]

theorem entriesOf_cons (work : Work) (w : List Work) (pluginKey : PluginKey) :
    entriesOf (work :: w) pluginKey =
      (if work.pluginKey = pluginKey then {work.entry} else 0) + entriesOf w pluginKey := by
  by_cases h : work.pluginKey = pluginKey <;> simp [entriesOf, h]

theorem entriesOf_eq_zero {w : List Work} {pluginKey : PluginKey}
    (h : ∀ work ∈ w, work.pluginKey ≠ pluginKey) : entriesOf w pluginKey = 0 := by
  have hn : w.filter (fun work => decide (work.pluginKey = pluginKey)) = [] := by
    simpa [filter_eq_nil_iff] using h
  simp [entriesOf, hn]

@[simp] theorem report_event (c : Completion) : c.event.report = some c.work.entry := by
  unfold event
  split <;> rfl

namespace State

variable {s t : State} {pluginKey : PluginKey} {event : Event} {request : Request} {retired : ℕ}

def unreported (s : State) (pluginKey : PluginKey) : Multiset (OperationId × ℕ) :=
  reports (s.events pluginKey) + entriesOf (s.completions.map Completion.work) pluginKey +
    entriesOf s.inFlight pluginKey

def acceptedSince (s : State) (retired : ℕ) (pluginKey : PluginKey) : List (OperationId × ℕ) :=
  ((s.accepted pluginKey).drop retired).zipIdx retired

theorem mem_acceptedSince {o : OperationId} {serial : ℕ} :
    (o, serial) ∈ s.acceptedSince retired pluginKey ↔
      retired ≤ serial ∧ (s.accepted pluginKey)[serial]? = some o := by
  rw [acceptedSince, mk_mem_zipIdx_iff_le_and_getElem?_sub, getElem?_drop]
  refine and_congr_right fun hle => ?_
  rw [Nat.add_sub_cancel' hle]

theorem nodup_acceptedSince (s : State) (retired : ℕ) (pluginKey : PluginKey) :
    (s.acceptedSince retired pluginKey).Nodup := by
  refine Nodup.of_map Prod.snd ?_
  rw [acceptedSince, zipIdx_map_snd]
  exact nodup_range'

theorem acceptedSince_accept (h : retired ≤ s.serial pluginKey) (request : Request) :
    (s.accept request).acceptedSince retired pluginKey = s.acceptedSince retired pluginKey ++
      if pluginKey = request.pluginKey then [(request.operationId, s.serial pluginKey)]
      else [] := by
  unfold acceptedSince accept
  by_cases heq : pluginKey = request.pluginKey
  · subst heq
    have hl : retired + ((s.accepted request.pluginKey).drop retired).length =
        s.serial request.pluginKey := by
      rw [length_drop]
      exact Nat.add_sub_cancel' h
    simp only [Function.update_self, if_true]
    rw [drop_append_of_le_length h, zipIdx_append, hl]
    rfl
  · simp [heq]

@[simp] theorem unreported_pushLocalEvent (s : State) (event : Event) (pluginKey : PluginKey) :
    (s.pushLocalEvent event).unreported pluginKey = s.unreported pluginKey +
      if pluginKey = event.pluginKey then reports [event] else 0 := by
  unfold unreported
  rw [events_pushLocalEvent, reports_append, apply_ite reports, reports_nil]
  abel

structure Booked (s t : State) : Prop where
  grows : ∀ pluginKey, s.serial pluginKey ≤ t.serial pluginKey
  entries : ∀ pluginKey retired, retired ≤ s.serial pluginKey → ∃ new : List (OperationId × ℕ),
      t.acceptedSince retired pluginKey = s.acceptedSince retired pluginKey ++ new ∧
      t.unreported pluginKey = s.unreported pluginKey + new

theorem Booked.refl (s : State) : Booked s s :=
  ⟨fun _ => le_rfl, fun _ _ _ => ⟨[], by simp, by simp⟩⟩

theorem Booked.trans (h : Booked s t) (h' : Booked t u) : Booked s u where
  grows pluginKey := (h.grows pluginKey).trans (h'.grows pluginKey)
  entries pluginKey retired hle := by
    obtain ⟨new, ha, hu⟩ := h.entries pluginKey retired hle
    obtain ⟨new', ha', hu'⟩ := h'.entries pluginKey retired (hle.trans (h.grows pluginKey))
    refine ⟨new ++ new', ?_, ?_⟩
    · rw [ha', ha, append_assoc]
    · rw [hu', hu, add_assoc, coe_add]

theorem booked_of_eq (ha : t.accepted = s.accepted)
    (hu : ∀ pluginKey, t.unreported pluginKey = s.unreported pluginKey) : Booked s t := by
  refine ⟨fun pluginKey => by simp [serial, ha], fun pluginKey retired _ => ⟨[], ?_, ?_⟩⟩
  · simp [acceptedSince, ha]
  · simp [hu]

theorem serial_le_accept (s : State) (request : Request) (pluginKey : PluginKey) :
    s.serial pluginKey ≤ (s.accept request).serial pluginKey := by
  by_cases heq : pluginKey = request.pluginKey
  · subst heq
    simp [serial, accept]
  · simp [serial, accept, heq]

theorem booked_accept (request : Request) (ha : t.accepted = s.accepted)
    (hu : ∀ pluginKey, t.unreported pluginKey = s.unreported pluginKey +
      if pluginKey = request.pluginKey then {(request.operationId, s.serial pluginKey)} else 0) :
    Booked s (t.accept request) := by
  have hs : ∀ pluginKey, t.serial pluginKey = s.serial pluginKey := fun pluginKey => by
    simp [serial, ha]
  refine ⟨fun pluginKey => hs pluginKey ▸ serial_le_accept t request pluginKey,
    fun pluginKey retired hle => ⟨if pluginKey = request.pluginKey then
      [(request.operationId, s.serial pluginKey)] else [], ?_, ?_⟩⟩
  · rw [acceptedSince_accept (hs pluginKey ▸ hle), hs]
    simp [acceptedSince, ha]
  · refine (hu pluginKey).trans ?_
    split <;> rfl

theorem booked_move (hm : Move True s t) : Booked s t := by
  cases hm with
  | push _ hr =>
    refine booked_of_eq rfl fun pluginKey => ?_
    simp [reports, hr]
  | report request =>
    refine booked_accept request rfl fun pluginKey => ?_
    rw [unreported_pushLocalEvent]
    by_cases heq : pluginKey = request.pluginKey
    · subst heq
      simp [reports, Event.report, Event.pluginKey]
    · simp [Event.pluginKey, heq]
  | assign request =>
    refine booked_accept request rfl fun pluginKey => ?_
    by_cases heq : pluginKey = request.pluginKey
    · subst heq
      simp [unreported, events, entriesOf_cons, Work.entry, add_assoc]
    · simp [unreported, events, entriesOf_cons, heq, Ne.symm heq]
  | @take completion rest hc =>
    refine booked_of_eq rfl fun pluginKey => ?_
    rw [unreported_pushLocalEvent, pluginKey_event, unreported, unreported, hc,
      List.map_cons, entriesOf_cons]
    show reports (s.events pluginKey) + entriesOf (rest.map work) pluginKey +
      entriesOf s.inFlight pluginKey + _ = _ + ((if completion.pluginKey = pluginKey then _ else _)
        + _) + _
    by_cases heq : completion.pluginKey = pluginKey
    · rw [if_pos heq.symm, if_pos heq]
      simp only [reports, List.filterMap_cons, report_event, List.filterMap_nil,
        Multiset.coe_singleton]
      abel
    · rw [if_neg (Ne.symm heq), if_neg heq]
      abel
  | lose _ hf => exact absurd trivial hf
  | timer => exact booked_of_eq rfl fun _ => rfl

theorem Moves.booked (h : Moves True s t) : Booked s t := by
  induction h with
  | refl => exact .refl s
  | tail _ hl ih => exact ih.trans (booked_move hl)

end State

/-- The run with what each plugin's drains returned since its last cleanup, and how many operations
it had before. -/
structure Ledger where
  state : State
  drained : PluginKey → List Event
  retired : PluginKey → ℕ

namespace Ledger

variable {l : Ledger} {pluginKey : PluginKey}

def new : Ledger := ⟨.new, fun _ => [], fun _ => 0⟩

def callStep (l : Ledger) (call : Call) : Ledger :=
  match call with
  | .cleanupPlugin pluginKey =>
    { state := (l.state.cleanupPlugin pluginKey).1
      drained := Function.update l.drained pluginKey []
      retired := Function.update l.retired pluginKey (l.state.serial pluginKey) }
  | call =>
    match l.state.call call with
    | (state, .ok (.events events)) =>
      { l with
        state
        drained :=
          Function.update l.drained call.pluginKey (l.drained call.pluginKey ++ events) }
    | (state, _) => { l with state }

def step (l : Ledger) : Step → Ledger
  | .call call => l.callStep call
  | step => { l with state := l.state.step step }

def run (l : Ledger) (steps : List Step) : Ledger := steps.foldl step l

/-- Completions taken in have room, and a plugin is cleaned up with nothing in flight or on the
channel. -/
def Orderly (l : Ledger) : Step → Prop
  | .call call => l.state.CallRoom call ∧
      match call with
      | .cleanupPlugin pluginKey =>
        (∀ work ∈ l.state.inFlight, work.pluginKey ≠ pluginKey) ∧
          ∀ completion ∈ l.state.completions, completion.pluginKey ≠ pluginKey
      | _ => True
  | _ => True

instance (l : Ledger) : ∀ step, Decidable (l.Orderly step)
  | .call (.cleanupPlugin _) => @instDecidableAnd _ _ _ instDecidableAnd
  | .call (.submit _ _) | .call (.releaseResource _) | .call (.drainEvents _)
  | .call (.drainEventsAt _ _) => @instDecidableAnd _ _ _ (isTrue trivial)
  | .complete _ _ | .setPluginGrants _ _ | .revokePluginGrants _ => isTrue trivial

structure Balanced (l : Ledger) : Prop where
  owned : l.state.Owned
  retired : ∀ pluginKey, l.retired pluginKey ≤ l.state.serial pluginKey
  entries : ∀ pluginKey, reports (l.drained pluginKey) + l.state.unreported pluginKey =
    l.state.acceptedSince (l.retired pluginKey) pluginKey

section

variable (h : Balanced l)
include h

theorem Balanced.booked (hb : l.state.Booked t)
    (ho : t.Owned) : Balanced { l with state := t } where
  owned := ho
  retired pluginKey := (h.retired pluginKey).trans (hb.grows pluginKey)
  entries pluginKey := by
    obtain ⟨new, ha, hu⟩ := hb.entries pluginKey (l.retired pluginKey) (h.retired pluginKey)
    rw [hu, ha, ← add_assoc, h.entries pluginKey, coe_add]

theorem Balanced.drain (key : PluginKey) : Balanced
      { l with
        state := { l.state with pendingEvents := l.state.pendingEvents.erase key }
        drained := Function.update l.drained key (l.drained key ++ l.state.events key) } where
  owned := h.owned.empty key
  retired := h.retired
  entries pluginKey := by
    refine Eq.trans ?_ (h.entries pluginKey)
    simp only [unreported, events_erase]
    by_cases heq : pluginKey = key
    · subst heq
      simp only [Function.update_self, if_true, reports_append, reports_nil, zero_add]
      rw [add_assoc, ← add_assoc (reports (l.state.events _))]
    · rw [Function.update_of_ne heq, if_neg heq]

theorem Balanced.clean (key : PluginKey) (hw : ∀ work ∈ l.state.inFlight, work.pluginKey ≠ key)
    (hc : ∀ c ∈ l.state.completions, c.pluginKey ≠ key) :
    Balanced
      { state := (l.state.cleanupPlugin key).1
        drained := Function.update l.drained key []
        retired := Function.update l.retired key (l.state.serial key) } where
  owned := h.owned.call (.cleanupPlugin key)
  retired pluginKey := by
    show Function.update l.retired key (l.state.serial key) pluginKey ≤ l.state.serial pluginKey
    by_cases heq : pluginKey = key
    · subst heq
      rw [Function.update_self]
    · rw [Function.update_of_ne heq]
      exact h.retired pluginKey
  entries pluginKey := by
    have he : (l.state.cleanupPlugin key).1.events pluginKey =
        if pluginKey = key then [] else l.state.events pluginKey :=
      l.state.events_erase key pluginKey
    simp only [unreported, he]
    by_cases heq : pluginKey = key
    · subst heq
      have hnoWork : entriesOf (l.state.cleanupPlugin pluginKey).1.inFlight pluginKey = 0 :=
        entriesOf_eq_zero hw
      have hn : entriesOf ((l.state.cleanupPlugin pluginKey).1.completions.map
          work) pluginKey = 0 :=
        entriesOf_eq_zero (forall_mem_map.mpr hc)
      rw [hnoWork, hn]
      simp [acceptedSince, serial, cleanupPlugin]
    · rw [Function.update_of_ne heq, Function.update_of_ne heq, if_neg heq]
      exact h.entries pluginKey

theorem Balanced.call {call : Call} (ho : l.Orderly (.call call)) : Balanced (l.callStep call) := by
  obtain ⟨hr, hc⟩ := ho
  cases call_outcome h.owned call with
  | moved hm ha =>
    rw [eq_true hr] at hm
    have hmoved := h.booked hm.booked (hm.owned h.owned)
    unfold callStep
    split
    · exact h.clean _ hc.1 hc.2
    split
    · next e hcall => exact absurd (congrArg Prod.snd hcall) (ha e)
    next hcall =>
    rw [hcall] at hmoved
    exact hmoved
  | drained t hm _ _ hcall =>
    rw [eq_true hr] at hm
    unfold callStep
    split
    · exact h.clean _ hc.1 hc.2
    rw [hcall]
    exact (h.booked hm.booked (hm.owned h.owned)).drain call.pluginKey
  | cleaned key hcall =>
    subst hcall
    exact h.clean key hc.1 hc.2

theorem Balanced.complete (i : ℕ) (r : Except RuntimeError String) :
    Balanced { l with state := l.state.complete i r } := by
  unfold State.complete
  cases hw : l.state.inFlight[i]? with
  | none => exact h
  | some work =>
    refine h.booked (booked_of_eq rfl fun pluginKey => ?_) ⟨h.owned.timers, h.owned.events⟩
    have hp : l.state.inFlight.Perm (work :: l.state.inFlight.eraseIdx i) := by
      obtain ⟨hlt, rfl⟩ := List.getElem?_eq_some_iff.mp hw
      exact (getElem_cons_eraseIdx_perm hlt).symm
    have he : entriesOf l.state.inFlight pluginKey =
        entriesOf (work :: l.state.inFlight.eraseIdx i) pluginKey :=
      coe_eq_coe.mpr ((hp.filter _).map Work.entry)
    simp only [unreported, he, List.map_append, List.map_cons, List.map_nil,
      entriesOf_append, entriesOf_cons, entriesOf_nil]
    show reports (l.state.events pluginKey) + _ + _ = _
    abel

theorem Balanced.step {step : Step} (ho : l.Orderly step) : Balanced (l.step step) := by
  cases step with
  | call => exact h.call ho
  | complete i r => exact h.complete i r
  | setPluginGrants =>
    exact h.booked (booked_of_eq rfl fun _ => rfl) (h.owned.step (.setPluginGrants _ _))
  | revokePluginGrants =>
    exact h.booked (booked_of_eq rfl fun _ => rfl) (h.owned.step (.revokePluginGrants _))

end

theorem balanced_new : Balanced new where
  owned := owned_new
  retired _ := Nat.zero_le _
  entries _ := rfl

theorem Balanced.run (h : Balanced l) {steps : List Step}
    (ha : Machine.Along (fun l step => some (Ledger.step l step)) Orderly l steps) :
    Balanced (l.run steps) := by
  induction steps generalizing l with
  | nil => exact h
  | cons _ _ ih =>
    obtain ⟨ho, hr⟩ := ha
    exact ih (h.step ho) (hr _ rfl)

/-- What was drained since the last cleanup reports operations accepted since, each once; a drain
that succeeds reports every one whose worker is done. The other events of an operation are queued or
come from its timer, and a cleanup leaves neither. -/
structure ReportsOnce (l : Ledger) (pluginKey : PluginKey) : Prop where
  genuine : ∀ operationId serial, (operationId, serial) ∈ reports (l.drained pluginKey) →
    l.retired pluginKey ≤ serial ∧ (l.state.accepted pluginKey)[serial]? = some operationId
  once : (reports (l.drained pluginKey)).Nodup
  cleaned : (l.state.cleanupPlugin pluginKey).1.events pluginKey = [] ∧
    ∀ id, ∀ timer ∈ (l.state.cleanupPlugin pluginKey).1.timers.lookup id,
      timer.pluginKey ≠ pluginKey
  answers : l.state.Room →
    ∃ events, (l.state.call (.drainEvents pluginKey)).2 = .ok (.events events)
  complete : ∀ call events, call.pluginKey = pluginKey → l.state.CallRoom call →
    (l.state.call call).2 = .ok (.events events) → ∀ operationId serial,
    l.retired pluginKey ≤ serial → (l.state.accepted pluginKey)[serial]? = some operationId →
    (∀ work ∈ l.state.inFlight, ¬(work.pluginKey = pluginKey ∧ work.serial = serial)) →
    (reports (l.drained pluginKey ++ events)).count (operationId, serial) = 1

theorem drainEvents_answers {s : State} (h : s.Room) (pluginKey : PluginKey) :
    ∃ events, (s.call (.drainEvents pluginKey)).2 = .ok (.events events) := by
  have hok : s.drainWorkerCompletions.2 = .ok () := takeCompletions_ok h rfl
  have hd : s.drainWorkerCompletions = (s.drainWorkerCompletions.1, .ok ()) := by rw [← hok]
  refine ⟨s.drainWorkerCompletions.1.events pluginKey, ?_⟩
  unfold call drainEvents
  rw [hd]
  rfl

theorem Balanced.count_drain (h : Balanced l) {call : Call} {e : List Event}
    (hroom : l.state.CallRoom call) (ha : (l.state.call call).2 = .ok (.events e))
    {o : OperationId} {serial : ℕ} (hr : l.retired call.pluginKey ≤ serial)
    (haccepted : (l.state.accepted call.pluginKey)[serial]? = some o)
    (hd : ∀ work ∈ l.state.inFlight, ¬(work.pluginKey = call.pluginKey ∧ work.serial = serial)) :
    (reports (l.drained call.pluginKey ++ e)).count (o, serial) = 1 := by
  cases call_outcome h.owned call with
  | moved _ hn => exact absurd ha (hn e)
  | cleaned _ hc =>
    subst hc
    cases ha
  | drained t hm hchannel hi hc =>
    rw [eq_true hroom] at hm
    rw [hc] at ha
    obtain rfl := Answer.events.inj (Except.ok.inj ha)
    have he : reports (l.drained call.pluginKey) + t.unreported call.pluginKey =
        t.acceptedSince (l.retired call.pluginKey) call.pluginKey :=
      (h.booked hm.booked (hm.owned h.owned)).entries call.pluginKey
    obtain ⟨new, hg, -⟩ := hm.booked.entries call.pluginKey _ (h.retired call.pluginKey)
    -- the operation is among the accepted ones, and no worker has it any more
    have hmem : (o, serial) ∈ t.acceptedSince (l.retired call.pluginKey) call.pluginKey := by
      rw [hg]
      exact mem_append_left _ (mem_acceptedSince.mpr ⟨hr, haccepted⟩)
    have hw : (entriesOf t.inFlight call.pluginKey).count (o, serial) = 0 := by
      rw [hi, Multiset.count_eq_zero, entriesOf, Multiset.mem_coe, List.mem_map]
      rintro ⟨work, hwork, hentry⟩
      obtain ⟨hmember, hk⟩ := mem_filter.mp hwork
      exact hd work hmember ⟨of_decide_eq_true hk, congrArg Prod.snd hentry⟩
    have ho := congrArg (Multiset.count (o, serial)) he
    rw [Multiset.count_eq_one_of_mem (coe_nodup.mpr (nodup_acceptedSince ..)) (mem_coe.mpr hmem)]
      at ho
    simp only [unreported, hchannel, map_nil, entriesOf_nil, add_zero, count_add, hw] at ho
    rw [reports_append, count_add]
    exact ho

theorem Balanced.reportsOnce (h : Balanced l) (pluginKey : PluginKey) :
    ReportsOnce l pluginKey where
  genuine operationId serial hm := by
    refine mem_acceptedSince.mp (mem_coe.mp ?_)
    rw [← h.entries pluginKey]
    exact mem_add.mpr (.inl hm)
  once := by
    have hn : (↑(l.state.acceptedSince (l.retired pluginKey) pluginKey) :
        Multiset (OperationId × ℕ)).Nodup := nodup_acceptedSince ..
    rw [← h.entries pluginKey] at hn
    exact (nodup_add.mp hn).1
  cleaned := by
    refine ⟨by simp [cleanupPlugin, events], fun id timer ht => ?_⟩
    rw [cleanupPlugin, Option.mem_def, AList.lookup_retain, Option.filter_eq_some_iff] at ht
    exact of_decide_eq_true ht.2
  answers hr := drainEvents_answers hr pluginKey
  complete call events hk hr hanswer operationId serial hretired ha hd := by
    subst hk
    exact h.count_drain hr hanswer hretired ha hd

/-- In every run whose steps are all orderly, every plugin's operations are reported once. -/
theorem run_reports_once (steps : List Step)
    (halong : Machine.Along (fun l step => some (Ledger.step l step)) Orderly new steps)
    (pluginKey : PluginKey) : ReportsOnce (new.run steps) pluginKey :=
  (balanced_new.run halong).reportsOnce pluginKey

def readRequest (pluginKey : PluginKey) (operationId : OperationId) : Request :=
  ⟨pluginKey, operationId, .filesystem "workspace" .read true, ⟨.filesystem, "workspace"⟩, .other⟩

def reading : List Step :=
  [.setPluginGrants "pipelines" [⟨.filesystem, "workspace"⟩],
    .call (.submit (readRequest "pipelines" "read") ⟨0, none⟩)]

def readThenReload : List Step :=
  reading ++ [.complete 0 (.ok "text"), .call (.drainEvents "pipelines"),
    .call (.cleanupPlugin "pipelines"),
    .call (.submit (readRequest "pipelines" "read") ⟨0, none⟩), .complete 0 (.ok "text")]

theorem run_reports_once_reload :
    Machine.Along (fun l step => some (Ledger.step l step)) Orderly new readThenReload ∧
      ReportsOnce (new.run readThenReload) "pipelines" :=
  have halong : Machine.Along (fun l step => some (Ledger.step l step)) Orderly new
      readThenReload := by decide +kernel
  ⟨halong, run_reports_once readThenReload halong "pipelines"⟩

/-- The worker is done after the cleanup, and the next load of the plugin drains its completion. -/
theorem completion_outlives_cleanup :
    ¬ReportsOnce (new.run (reading ++ [.call (.cleanupPlugin "pipelines"), .complete 0 (.ok "text"),
      .call (.drainEvents "pipelines")])) "pipelines" := by
  intro h
  have hgenuine := h.genuine "read" 0 (by decide +kernel)
  exact absurd hgenuine.1 (by decide +kernel)

end Ledger

end BotsterHub.Capability
