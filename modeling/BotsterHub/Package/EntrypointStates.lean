import BotsterHub.Package.Entrypoints

/-!
What is reported of entrypoint processes.

Each launch carries the snapshots that were returned for it. A process is sound when these agree
with what it is now, and every answer of the operating system keeps it sound.
-/

namespace BotsterHub.Entrypoint

/-- A process is running, then exited or failed, then stopped. -/
def Follows (before after : ProcessState) : Prop :=
  before = after ∨ before = .running ∨ after = .stopped

namespace Process

/-- What was reported of a launch. The order of its states is kept unless a stop gave up. -/
structure Reported (p : Process) : Prop where
  first : p.launch.declaresResult = false → ∃ r, p.reports.getLast? = some r ∧ r.state = .running
  running : ∀ r ∈ p.reports, ∀ l ∈ r.launch,
    r.exitedAt = none → l.gaveUp = false → r.state = .running
  ordered : p.reports.Pairwise fun r earlier =>
    ∀ l ∈ r.launch, l.gaveUp = false → Follows earlier.state r.state
  supervised : ∀ r ∈ p.reports, ∀ l ∈ r.launch, ∀ result ∈ r.launchResult,
    l.gaveUp = false → l.waitFailed = false → result.processState = l.supervised

structure Sound (p : Process) : Prop extends Reported p where
  unexited : p.exitedAt = none →
    p.pendingTerminalState = none ∧ (p.launch.gaveUp = false → p.state = .running)
  pending : ∀ state, p.pendingTerminalState = some state →
    state ≠ .stopped ∧ (p.launch.gaveUp = false → p.state = .running)
  reaped : p.exitedAt ≠ none → p.launch.waitFailed = false →
    p.reaped.isSome ∧ p.launchResultPath = false
  follows : p.launch.gaveUp = false → ∀ r ∈ p.reports, Follows r.state p.state
  current : ∀ state, p.state.runnable? = some state → p.launch.supervised = state
  synced : p.launch.gaveUp = false → p.launch.waitFailed = false →
    ∀ result ∈ p.launchResult, result.processState = p.launch.supervised

variable {p : Process}

theorem Sound.diagnose (h : p.Sound) (kind message : String) : (p.diagnose kind message).Sound :=
  { h with }

theorem Sound.drain (h : p.Sound) (a : RefreshAnswers) : (p.drain a).Sound := { h with }

theorem Sound.reap (h : p.Sound) (status : ExitStatus) : Sound { p with reaped := some status } :=
  { h with reaped := fun he hw => ⟨rfl, (h.reaped he hw).2⟩ }

theorem Sound.tryWait (h : p.Sound) (answer : Except String (Option ExitStatus)) :
    (p.tryWait answer).2.Sound ∧ (p.tryWait answer).2.exitedAt = p.exitedAt ∧
      ∀ status, (p.tryWait answer).1 = .ok (some status) → (p.tryWait answer).2.reaped.isSome := by
  unfold Process.tryWait
  split
  · next hr => exact ⟨h, rfl, fun _ _ => by simp [hr]⟩
  · exact ⟨h.reap _, rfl, fun _ _ => rfl⟩
  · next hn =>
    refine ⟨h, rfl, fun status ha => ?_⟩
    exact absurd ha (by simpa using hn status)

theorem Sound.refreshLaunchResult (h : p.Sound) (file : Option LaunchResult) :
    (p.refreshLaunchResult file).Sound := by
  unfold Process.refreshLaunchResult
  split
  · exact h
  split
  · next read =>
    refine { h with synced := fun hg hw result hr => ?_ }
    -- The path is there, so the exit has not been observed and the process is not stopped.
    have hexit : p.exitedAt = none := by
      by_contra hexit
      simp [(h.reaped hexit hw).2] at read
    have hstate := (h.unexited hexit).2 hg
    simp only [syncLaunchResultProcessState, hstate] at hr
    cases hr
    exact (h.current .running (by rw [hstate]; rfl)).symm
  · exact h

theorem Sound.publish (h : p.Sound) {terminal : ProcessState}
    (hp : p.pendingTerminalState = some terminal) : (p.publish terminal).Sound := by
  obtain ⟨hstate, hrun⟩ := h.pending terminal hp
  obtain ⟨state, hr⟩ : ∃ state, terminal.runnable? = some state := by
    cases terminal <;> simp_all [ProcessState.runnable?]
  refine
    { h with
      unexited := fun he => ?_
      pending := nofun
      follows := fun hg r hm => ?_
      current := fun _ hs => ?_
      synced := fun hg hw result hs => ?_ }
  · rw [(h.unexited he).1] at hp
    cases hp
  · have hf := h.follows hg r hm
    rw [hrun hg] at hf
    unfold Follows at *
    grind
  · simp_all [Process.publish, syncLaunchResultProcessState]
  · simp only [Process.publish, syncLaunchResultProcessState, hr, Option.getD_some,
      Option.mem_def, Option.map_eq_some_iff] at hs ⊢
    obtain ⟨_, -, rfl⟩ := hs
    rfl

theorem Sound.publishTerminalStateIfReady (h : p.Sound) (now : ℕ) :
    (p.publishTerminalStateIfReady now).Sound := by
  unfold Process.publishTerminalStateIfReady
  split
  · exact h
  · next hp =>
    split
    · exact h.publish hp
    · exact h

theorem Sound.markStopped (h : p.Sound) : p.markStopped.Sound := by
  have hpublished : ∃ q : Process, q.Sound ∧ q.pendingTerminalState = none ∧
      p.markStopped = { q with
        outputFinalizationDeadline := none
        state := .stopped
        launch.gaveUp := q.launch.gaveUp || q.exitedAt.isNone } := by
    unfold Process.markStopped
    split
    · next hp => exact ⟨_, h.publish hp, rfl, rfl⟩
    · next hp => exact ⟨_, h, hp, rfl⟩
  obtain ⟨q, hq, hp, heq⟩ := hpublished
  rw [heq]
  exact
    { hq with
      unexited := fun he => ⟨hp, fun hg => by simp_all⟩
      pending := fun _ hs => by simp_all
      follows := fun _ _ _ => .inr (.inr rfl)
      current := nofun
      synced := fun hg => hq.synced (by simp_all) }

theorem Sound.observeExit (h : p.Sound) (he : p.exitedAt = none) (a : RefreshAnswers) :
    (p.observeExit a).Sound := by
  obtain ⟨hq, hexit, hreaped⟩ := h.tryWait a.wait
  unfold Process.observeExit
  rw [he] at hexit
  generalize p.tryWait a.wait = result at *
  have hrun := (hq.unexited hexit).2
  obtain ⟨_ | _ | status, q⟩ := result
  · exact
      { hq with
        unexited := nofun
        pending := fun _ hs => by cases hs; exact ⟨nofun, hrun⟩
        reaped := fun _ => nofun
        synced := fun _ => nofun }
  · exact hq
  · exact
      { hq with
        unexited := nofun
        pending := fun _ hs => by cases hs; exact ⟨by split <;> nofun, hrun⟩
        reaped := fun _ _ => ⟨hreaped status rfl, rfl⟩ }

theorem Sound.refreshProcessState (h : p.Sound) (a : RefreshAnswers) :
    (p.refreshProcessState a).Sound := by
  refine Sound.publishTerminalStateIfReady ?_ a.now
  split
  · next he => exact (h.drain a).observeExit (by simpa using he) a
  · exact h.drain a

theorem Sound.refresh (h : p.Sound) (a : RefreshAnswers) : (p.refresh a).Sound :=
  (h.refreshLaunchResult a.launchResult).refreshProcessState a

theorem refreshLaunchResult_keeps (p : Process) (file : Option LaunchResult) :
    ∃ launchResult, p.refreshLaunchResult file = { p with launchResult } := by
  unfold Process.refreshLaunchResult
  split
  · exact ⟨_, rfl⟩
  · split <;> exact ⟨_, rfl⟩

theorem observeExit_keeps (p : Process) (a : RefreshAnswers) :
    (p.observeExit a).reports = p.reports ∧ (p.observeExit a).state = p.state := by
  obtain ⟨reaped, hwait⟩ : ∃ reaped, (p.tryWait a.wait).2 = { p with reaped } := by
    unfold Process.tryWait
    split <;> exact ⟨_, rfl⟩
  unfold Process.observeExit
  split <;> next h => rw [h] at hwait; subst hwait; exact ⟨rfl, rfl⟩

theorem Sound.publishTerminalStateIfReady_keeps (h : p.Sound) (now : ℕ) :
    (p.publishTerminalStateIfReady now).reports = p.reports ∧
      ((p.publishTerminalStateIfReady now).state ≠ p.state →
        (p.publishTerminalStateIfReady now).exitedAt ≠ none ∧ p.pendingTerminalState ≠ none) := by
  unfold Process.publishTerminalStateIfReady
  split
  · exact ⟨rfl, fun hne => absurd rfl hne⟩
  next hp =>
  split
  · refine ⟨rfl, fun _ => ⟨fun he => ?_, by simp [hp]⟩⟩
    rw [(h.unexited he).1] at hp
    cases hp
  · exact ⟨rfl, fun hne => absurd rfl hne⟩

/-- A refresh changes the state only by an exit that it observes or that was not yet published. -/
theorem Sound.refresh_keeps (h : p.Sound) (a : RefreshAnswers) :
    (p.refresh a).reports = p.reports ∧ ((p.refresh a).state ≠ p.state →
      (p.refresh a).exitedAt ≠ none ∧ (p.exitedAt = none ∨ p.pendingTerminalState ≠ none)) := by
  have hq := (h.refreshLaunchResult a.launchResult).drain a
  obtain ⟨launchResult, hread⟩ := p.refreshLaunchResult_keeps a.launchResult
  rw [hread] at hq
  unfold Process.refresh Process.refreshProcessState
  rw [hread]
  dsimp only
  split
  · next he =>
    have he := Option.isNone_iff_eq_none.mp he
    obtain ⟨hreports, hstate⟩ := observeExit_keeps ({ p with launchResult }.drain a) a
    obtain ⟨hr, hs⟩ := (hq.observeExit he a).publishTerminalStateIfReady_keeps a.now
    exact ⟨hr.trans hreports, fun hne => ⟨(hs (hstate.symm ▸ hne)).1, .inl he⟩⟩
  · obtain ⟨hr, hs⟩ := hq.publishTerminalStateIfReady_keeps a.now
    exact ⟨hr, fun hne => ⟨(hs hne).1, .inr (hs hne).2⟩⟩

theorem Sound.waitForChildGroupExit (h : p.Sound) (a : WaitAnswers) :
    (p.waitForChildGroupExit a).2.Sound := by
  have hq := (h.tryWait a.tryWait).1
  unfold Process.waitForChildGroupExit
  generalize p.tryWait a.tryWait = result at *
  obtain ⟨_ | _ | status, q⟩ := result
  · exact hq
  · dsimp only
    split
    · exact hq
    · exact hq
    · exact hq
    · exact hq.reap _
  · exact hq

theorem Sound.waitForGroupExit (h : p.Sound) (a : WaitAnswers) :
    (p.waitForGroupExit a).2.Sound := by
  have hq := h.waitForChildGroupExit a
  unfold Process.waitForGroupExit
  generalize p.waitForChildGroupExit a = result at *
  obtain ⟨error | status, q⟩ := result
  · exact (hq.diagnose _ _).refresh _
  · exact hq.refresh _

theorem Sound.signalled (h : p.Sound) (error : Option String) (a : WaitAnswers)
    {surviving : Process → Process}
    (hs : ∀ q, Sound q → (surviving q).Sound) : (p.signalled error a surviving).Sound := by
  unfold Process.signalled
  split
  · exact h.diagnose _ _
  · dsimp only
    split
    · exact (h.waitForGroupExit a).markStopped
    · exact hs _ (h.waitForGroupExit a)

theorem Sound.groupRunning (h : p.Sound) (answer : Except String Bool) :
    (p.groupRunning answer).2.Sound := by
  cases answer with
  | ok running => exact h
  | error error => exact h.diagnose _ _

theorem Sound.stop (h : p.Sound) (a : StopAnswers) : (p.stop a).Sound := by
  have hq := h.refresh a.refresh
  unfold Process.stop
  generalize p.refresh a.refresh = q at *
  have hasked :
      (if q.exitedAt.isSome then q.groupRunning a.groupRunning else (true, q)).2.Sound := by
    split
    · exact hq.groupRunning _
    · exact hq
  dsimp only
  generalize (if q.exitedAt.isSome then q.groupRunning a.groupRunning else (true, q)) = asked at *
  split
  · exact hasked.signalled _ _ fun _ h => h.signalled _ _ fun _ h => (h.diagnose _ _).markStopped
  · exact hasked.markStopped

theorem Sound.note (h : p.Sound) {r : Snapshot} {key : Key}
    (hr : r.launch = none ∨ r = p.snapshot key) : (p.note (some r)).Sound := by
  obtain hr | rfl := hr
  · simpa [Process.note, hr] using h
  refine
    { h with
      first := fun hd => ?_
      running := List.forall_mem_cons.mpr ⟨fun l hl he hg => ?_, h.running⟩
      ordered := List.pairwise_cons.mpr ⟨fun r hm l hl hg => ?_, h.ordered⟩
      supervised := List.forall_mem_cons.mpr ⟨fun l hl result hm hg hw => ?_, h.supervised⟩
      follows := fun hg => List.forall_mem_cons.mpr ⟨.inl rfl, h.follows hg⟩ }
  · obtain ⟨r, hr, hs⟩ := h.first hd
    exact ⟨r, by simp [Process.note, snapshot, List.getLast?_cons, hr], hs⟩
  · cases hl
    exact (h.unexited he).2 hg
  · cases hl
    exact h.follows hg r hm
  · cases hl
    exact h.synced hg hw result hm

end Process

theorem waitForLaunchResult_spec (key : Key) (a : ReadinessAnswers)
    (rounds : List (Bool × RefreshAnswers)) {p : Process} (h : p.Sound) :
    (waitForLaunchResult key a rounds p).2.2.Sound ∧
      ∀ r, (waitForLaunchResult key a rounds p).1 = .ok r →
        r = (waitForLaunchResult key a rounds p).2.2.snapshot key := by
  induction rounds generalizing p with
  | nil => exact ⟨h.stop a.stop, by simp [waitForLaunchResult]⟩
  | cons round rounds ih =>
    obtain ⟨changed, answers⟩ := round
    have hq : (if changed then p.refresh answers else p.refreshProcessState answers).Sound := by
      split
      · exact h.refresh answers
      · exact h.refreshProcessState answers
    unfold waitForLaunchResult
    dsimp only
    generalize (if changed then p.refresh answers else p.refreshProcessState answers) = q at *
    split
    · exact ⟨hq, fun r hr => (Except.ok.inj hr).symm⟩
    split
    · exact ⟨hq, by simp⟩
    · exact ih hq

namespace Supervisor

open Function Process

variable {s s' : Supervisor} {key j : Key} {p : Process} {returned : Option Snapshot}

structure Kept (s : Supervisor) : Prop where
  processes : ∀ key p, s.processes key = some p → p.Sound
  replaced : ∀ p ∈ s.replaced, p.Reported ∧ (p.launch.waitFailed = false → p.reaped.isSome)

theorem Kept.modify (h : Kept s) {f : Key → Process → Process}
    (hf : ∀ key p, s.processes key = some p → (f key p).Sound) : Kept (s.modify f) := by
  refine ⟨fun key q hq => ?_, h.replaced⟩
  obtain ⟨p, hp, rfl⟩ := Option.map_eq_some_iff.mp hq
  exact hf key p hp

theorem Kept.refresh (h : Kept s) (a : Key → RefreshAnswers) : Kept (s.refresh a) :=
  h.modify fun key p hp => (h.processes key p hp).refresh (a key)

theorem Kept.update (h : Kept s) {o : Option Process} (ho : ∀ p, o = some p → p.Sound) :
    ∀ j p, update s.processes key o j = some p → p.Sound := by
  intro j p hp
  rw [update_apply] at hp
  split at hp
  · exact ho p hp
  · exact h.processes j p hp

theorem Kept.note (h : Kept s) (hr : ∀ p r, s.processes key = some p → returned = some r →
    r.launch = none ∨ r = p.snapshot key) : Kept (s.note key returned) := by
  refine ⟨h.update fun q hq => ?_, h.replaced⟩
  obtain ⟨p, hp, rfl⟩ := Option.map_eq_some_iff.mp hq
  have hsound := h.processes key p hp
  cases returned with
  | none => exact hsound
  | some r => exact hsound.note (hr p r hp rfl)

theorem sound_spawned_true (key : Key) (pid now : ℕ) : (spawned key true pid now).Sound := by
  refine ⟨⟨?_, ?_, ?_, ?_⟩, ?_, ?_, ?_, ?_, ?_, ?_⟩ <;> simp [spawned, ProcessState.runnable?]

/-- A launch without a launch result is reported at once. -/
theorem sound_spawned_false (key : Key) (pid now : ℕ) :
    ((spawned key false pid now).note (some ((spawned key false pid now).snapshot key))).Sound := by
  refine ⟨⟨?_, ?_, ?_, ?_⟩, ?_, ?_, ?_, ?_, ?_, ?_⟩ <;>
    simp [spawned, Process.note, snapshot, ProcessState.runnable?, Follows]

theorem Kept.replace (h : Kept s) (he : ∀ p, s.processes key = some p → p.exitedAt ≠ none)
    (hp : (p.note returned).Sound) (snapshot : Snapshot) :
    Kept ((s.replace key p snapshot).note key returned) := by
  refine ⟨fun j q hq => ?_, fun q hq => ?_⟩
  · simp only [Supervisor.note, Supervisor.replace, keep, update_self, update_idem] at hq
    exact h.update (fun q hq => by cases hq; exact hp) j q hq
  obtain hq | hq := List.mem_append.mp hq
  · have hq := Option.mem_toList.mp hq
    have hsound := h.processes key q hq
    exact ⟨hsound.toReported, fun hw => (hsound.reaped (he q hq) hw).1⟩
  · exact h.replaced q hq

theorem Kept.launch (h : Kept s) (he : ∀ p, s.processes key = some p → p.exitedAt ≠ none)
    (declaresResult : Bool) (pid now : ℕ) (a : ReadinessAnswers) :
    Kept ((s.launch key declaresResult pid now a).2.note key
      (s.launch key declaresResult pid now a).1.toOption) := by
  cases declaresResult with
  | false => exact h.replace he (sound_spawned_false key pid now) _
  | true =>
    have hwaited := waitForLaunchResult_spec key a ((true, a.first) :: a.rounds)
      (sound_spawned_true key pid now)
    simp only [Supervisor.launch, if_true]
    generalize waitForLaunchResult key a ((true, a.first) :: a.rounds) (spawned key true pid now) =
      waited at *
    obtain ⟨result, snapshot, p⟩ := waited
    refine h.replace he ?_ snapshot
    cases result with
    | ok r => exact hwaited.1.note (.inr (hwaited.2 r rfl))
    | error => exact hwaited.1

theorem Kept.start (h : Kept s) (key : Key) (a : StartAnswers) :
    Kept ((s.start key a).2.note key (s.start key a).1.toOption) := by
  have hs := h.refresh a.refresh
  unfold Supervisor.start
  generalize s.refresh a.refresh = s at *
  dsimp only
  split
  · exact hs.note fun _ _ _ hr => by cases hr
  · next p hfound =>
    refine hs.note fun q r hq hr => .inr ?_
    cases hr
    rw [(Option.filter_eq_some_iff.mp hfound).1] at hq
    cases hq
    rfl
  next hfound =>
  split
  · exact hs.note fun _ _ _ hr => by cases hr
  · refine Kept.note ⟨hs.processes, hs.replaced⟩ fun q r hq hr => .inl ?_
    cases hr
    rfl
  · refine hs.launch (fun p hp => ?_) _ _ _ _
    simpa using Option.filter_eq_none_iff.mp hfound p hp

theorem Kept.stop (h : Kept s) (key : Key) (a : StopAnswers) :
    Kept (s.stop key a).2 ∧ Kept ((s.stop key a).2.note key (s.stop key a).1) := by
  unfold Supervisor.stop
  split
  · next p hp =>
    have hs : Kept (s.keep key (p.stop a) ((p.stop a).snapshot key)) :=
      ⟨h.update fun q hq => by cases hq; exact (h.processes key p hp).stop a, h.replaced⟩
    refine ⟨hs, hs.note fun q r hq hr => .inr ?_⟩
    simp only [keep, update_self] at hq
    cases hq
    cases hr
    rfl
  · have hs : Kept (s.retain key (stoppedSnapshot key)) := ⟨h.processes, h.replaced⟩
    refine ⟨hs, hs.note fun q r hq hr => .inl ?_⟩
    cases hr
    rfl

theorem Kept.step (h : Kept s) (call : Call) : Kept (s.step call) := by
  have hknown {s : Supervisor} {key : Key} {p : Process} (hp : s.processes key = some p) :
      s.known key = some (p.snapshot key) := by simp [known, hp]
  cases call with
  | start key a => exact h.start key a
  | stop key a => exact (h.stop key a).2
  | restart key stop start => exact (h.stop key stop).1.start key start
  | status key a =>
    refine (h.refresh a).note fun p r hp hr => .inr ?_
    cases hr
    rw [status, hknown hp]
    rfl
  | snapshots a =>
    have hs := h.refresh a
    refine hs.modify fun key p hp => ?_
    simp only [snapshots, hknown hp]
    exact (hs.processes key p hp).note (.inr rfl)
  | stopPackage packageName a =>
    refine h.modify fun key p hp => ?_
    split
    · exact (h.processes key p hp).stop _
    · exact h.processes key p hp

theorem Kept.run (calls : List Call) : Kept (run calls) :=
  List.foldlRecOn calls Supervisor.step ⟨by simp, by simp⟩ fun _ h call _ => h.step call

/-- The process at a key is refreshed at most. It is not reported, and its state changes only by an
exit that is observed now or was not yet published. -/
structure Spares (j : Key) (s s' : Supervisor) : Prop where
  retained : s'.retained j = s.retained j
  processes : s'.processes j = s.processes j ∨ ∃ a, s'.processes j = (s.refresh a).processes j
  exit : ∀ p ∈ s.processes j, ∀ p' ∈ s'.processes j, p'.reports = p.reports ∧
    (p'.state ≠ p.state → p'.exitedAt ≠ none ∧
      (p.exitedAt = none ∨ p.pendingTerminalState ≠ none))

theorem stop_of_ne (hj : j ≠ key) (a : StopAnswers) :
    (s.stop key a).2.retained j = s.retained j ∧ (s.stop key a).2.processes j = s.processes j := by
  unfold Supervisor.stop
  split <;> simp [keep, retain, hj]

theorem start_of_ne (hj : j ≠ key) (a : StartAnswers) :
    (s.start key a).2.retained j = s.retained j ∧
      (s.start key a).2.processes j = (s.refresh a.refresh).processes j := by
  have hr : (s.refresh a.refresh).retained j = s.retained j := rfl
  unfold Supervisor.start launch
  generalize s.refresh a.refresh = s at *
  dsimp only
  split
  · exact ⟨hr, rfl⟩
  · exact ⟨hr, rfl⟩
  split
  · exact ⟨hr, rfl⟩
  · simp [retain, hj, hr]
  split <;> simp [replace, keep, retain, hj, hr]

theorem step_of_not_names {call : Call} (hj : call.names j = false) :
    (s.step call).retained j = s.retained j ∧ ((s.step call).processes j = s.processes j ∨
      ∃ a, (s.step call).processes j = (s.refresh a).processes j) := by
  cases call with
  | start key a =>
    have hj := of_decide_eq_false hj
    obtain ⟨hr, hp⟩ := start_of_ne (s := s) hj a
    exact ⟨hr, .inr ⟨a.refresh, (update_of_ne hj _ _).trans hp⟩⟩
  | stop key a =>
    have hj := of_decide_eq_false hj
    obtain ⟨hr, hp⟩ := stop_of_ne (s := s) hj a
    exact ⟨hr, .inl ((update_of_ne hj _ _).trans hp)⟩
  | restart key stop start =>
    have hj := of_decide_eq_false hj
    obtain ⟨hr, hp⟩ := stop_of_ne (s := s) hj stop
    obtain ⟨hr', hp'⟩ := start_of_ne (s := (s.stop key stop).2) hj start
    refine ⟨hr'.trans hr, .inr ⟨start.refresh, (update_of_ne hj _ _).trans (hp'.trans ?_)⟩⟩
    simp only [Supervisor.refresh, modify, hp]
  | status key a => exact ⟨rfl, .inr ⟨a, update_of_ne (of_decide_eq_false hj) _ _⟩⟩
  | snapshots a => cases hj
  | stopPackage packageName a =>
    refine ⟨rfl, .inl ?_⟩
    simp [Supervisor.step, stopPackage, modify, of_decide_eq_false hj]

theorem Kept.spares (h : Kept s) {call : Call} (hj : call.names j = false) :
    Spares j s (s.step call) := by
  obtain ⟨hretained, hprocesses⟩ := step_of_not_names (s := s) hj
  refine ⟨hretained, hprocesses, fun p hp p' hp' => ?_⟩
  rw [Option.mem_def] at hp hp'
  rcases hprocesses with heq | ⟨a, heq⟩
  · rw [heq, hp] at hp'
    cases hp'
    exact ⟨rfl, fun hne => absurd rfl hne⟩
  · rw [heq] at hp'
    obtain ⟨_, hfound, rfl⟩ := Option.map_eq_some_iff.mp hp'
    cases hfound.symm.trans hp
    exact (h.processes j p hp).refresh_keeps (a j)

/-- What is reported of every launch. A process is replaced only after its exit was observed, unless
a wait failed; other processes are at most refreshed. -/
theorem run_supervises (calls : List Call) : let s := run calls
    (∀ p, p ∈ s.replaced ∨ (∃ key, s.processes key = some p) → p.Reported) ∧
      (∀ p ∈ s.replaced, p.launch.waitFailed = false → p.reaped.isSome) ∧
      ∀ call key, call.names key = false → Spares key s (s.step call) := by
  have h := Kept.run calls
  refine ⟨?_, fun p hp => (h.replaced p hp).2, fun call key => h.spares⟩
  rintro p (hp | ⟨key, hp⟩)
  · exact (h.replaced p hp).1
  · exact (h.processes key p hp).toReported

def web : Key := ⟨"package", "web"⟩

def reportsOf (calls : List Call) : List Snapshot := ((run calls).processes web).elim [] (·.reports)

def exits : RefreshAnswers := { wait := .ok (some (.code 0)) }

def cleanStop : List Call :=
  [.start web {}, .status web fun _ => exits, .stop web { groupRunning := .ok false }]

/-- The exit is observed before the stop. -/
theorem run_supervises_clean :
    (reportsOf cleanStop).map (fun r => (r.state, r.launch.map (·.gaveUp))) =
      [(.stopped, some false), (.exited, some false), (.running, some false)] ∧
    ∀ p, (run cleanStop).processes web = some p → p.Reported :=
  ⟨by decide, fun p hp => (run_supervises cleanStop).1 p (.inr ⟨web, hp⟩)⟩

/-- The launch result that a child has written, with a state of its own. -/
def written : LaunchResult := ⟨"web", .notStarted, some "http://localhost"⟩

/-- A stop that gives up is followed by the exit. A ready process has exited and is never reported
as running. After a failed wait a stopped process reports what its child wrote, and a second one is
started. -/
theorem supervision_breaks :
    (reportsOf [.start web {}, .stop web {}, .status web fun _ => exits]).map (·.state) =
      [.exited, .stopped, .running] ∧
    (reportsOf [.start web
      { entrypoint := .ok true
        readiness.first := { exits with launchResult := some written } }]).map (·.state) =
      [.exited] ∧
    (reportsOf [.start web
        { entrypoint := .ok true, readiness.first := { launchResult := some written } },
      .stop web { refresh := { wait := .error "" }, groupRunning := .ok false },
      .status web fun _ => { launchResult := some written }]).head?.map
        (fun r => (r.state, r.launchResult.map (·.processState))) =
      some (.stopped, some .notStarted) ∧
    (run [.start web {}, .start web { refresh := fun _ => { wait := .error "" } }]).replaced.map
      (·.reaped) = [none] := by
  decide

end Supervisor

end BotsterHub.Entrypoint
