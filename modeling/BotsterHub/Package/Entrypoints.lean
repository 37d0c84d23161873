import BotsterHub.Lib.Text

/-!
Supervision of package entrypoints (`entrypoint_supervisor.rs`).

What the operating system and the file system answer comes with each call. Texts stand as
`bounded_message` leaves them, a state for its label, and of a map only its lookups matter.
-/

namespace BotsterHub.Entrypoint

structure Key where
  packageName : String
  entrypointId : String
  deriving DecidableEq

inductive ProcessState where
  | running
  | exited
  | failed
  | stopped
  deriving DecidableEq

/-- `RunnableEntrypointProcessState`. -/
inductive RunnableState where
  | notStarted
  | running
  | exited
  | failed
  deriving DecidableEq

def ProcessState.runnable? : ProcessState → Option RunnableState
  | .running => some .running
  | .exited => some .exited
  | .failed => some .failed
  | .stopped => none

inductive ExitStatus where
  | code (code : Int)
  | signal (signal : Int)
  | unknown
  deriving DecidableEq

def exitStatusLabel : ExitStatus → String
  | .code code => s!"exit:{code}"
  | .signal signal => s!"signal:{signal}"
  | .unknown => "unknown"

structure Diagnostic where
  kind : String
  message : String

/-- `RunnableEntrypointLaunchResult`. -/
structure LaunchResult where
  entrypointId : String
  processState : RunnableState
  localUrl : Option String

/-- History: the last state other than stopped, whether an exit was recorded because a wait failed,
and whether it was marked stopped with no exit recorded. -/
structure Launch where
  declaresResult : Bool
  supervised : RunnableState := .running
  waitFailed : Bool := false
  gaveUp : Bool := false

structure Snapshot where
  key : Key
  state : ProcessState
  pid : Option ℕ := none
  startedAt : Option ℕ := none
  exitedAt : Option ℕ := none
  exitStatus : Option String := none
  diagnostics : List Diagnostic := []
  launchResult : Option LaunchResult := none
  launch : Option Launch := none

def stoppedSnapshot (key : Key) : Snapshot := { key, state := .stopped }

def failedSnapshot (key : Key) (error : String) (now : ℕ) : Snapshot where
  key
  state := .failed
  startedAt := some now
  exitedAt := some now
  diagnostics := [⟨"spawn_error", error⟩]
  launchResult := some ⟨key.entrypointId, .failed, none⟩

/-- What `try_recv` on the channel of a reader gives. -/
inductive Received where
  | empty
  | text (text : String)
  | disconnected

/-- `launchResult` is the child's file, if readable. `deadlineFrom` and `now` are in milliseconds.
-/
structure RefreshAnswers where
  launchResult : Option LaunchResult := none
  stdout : Received := .disconnected
  stderr : Received := .disconnected
  wait : Except String (Option ExitStatus) := .ok none
  removeError : Option String := none
  exitedAt : ℕ := 0
  deadlineFrom : ℕ := 0
  now : ℕ := 0

/-- The answers in `wait_for_child_group_exit`, and in the refresh behind it. -/
structure WaitAnswers where
  tryWait : Except String (Option ExitStatus) := .ok none
  pidExit : Except String Bool := .ok false
  wait : Except String ExitStatus := .ok .unknown
  groupExit : Except String Bool := .ok false
  refresh : RefreshAnswers := {}

structure StopAnswers where
  refresh : RefreshAnswers := {}
  groupRunning : Except String Bool := .ok true
  termError : Option String := none
  afterTerm : WaitAnswers := {}
  killError : Option String := none
  afterKill : WaitAnswers := {}

def drainOutput (kind : String) (receiver : Bool) (received : Received)
    (diagnostics : List Diagnostic) : Bool × List Diagnostic :=
  match receiver, received with
  | true, .text text =>
    (false, if text = "" then diagnostics else diagnostics ++ [⟨kind, text⟩])
  | true, .disconnected => (false, diagnostics)
  | receiver, _ => (receiver, diagnostics)

/-- `SupervisedProcess`. `reaped` is the status that `Child` keeps. Of receivers and path only the
presence is kept. `reports` are the snapshots returned, last first. -/
structure Process where
  pid : ℕ
  reaped : Option ExitStatus := none
  startedAt : ℕ
  exitedAt : Option ℕ := none
  exitStatus : Option String := none
  stdout : Bool := true
  stderr : Bool := true
  diagnostics : List Diagnostic := []
  launchResult : Option LaunchResult
  launchResultPath : Bool
  state : ProcessState := .running
  pendingTerminalState : Option ProcessState := none
  outputFinalizationDeadline : Option ℕ := none
  launch : Launch
  reports : List Snapshot := []

namespace Process

variable (p : Process)

def diagnose (kind message : String) : Process :=
  { p with diagnostics := p.diagnostics ++ [⟨kind, message⟩] }

/-- `Child::try_wait`. -/
def tryWait (answer : Except String (Option ExitStatus)) :
    Except String (Option ExitStatus) × Process :=
  match p.reaped, answer with
  | some status, _ => (.ok (some status), p)
  | none, .ok (some status) => (.ok (some status), { p with reaped := some status })
  | none, answer => (answer, p)

def syncLaunchResultProcessState : Process :=
  { p with launchResult := p.launchResult.map fun result =>
      { result with processState := p.state.runnable?.getD result.processState } }

def refreshLaunchResult : Option LaunchResult → Process
  | none => p
  | some result =>
    if p.launchResultPath ∧ p.launchResult.all (·.entrypointId = result.entrypointId) then
      { p with launchResult := some result }.syncLaunchResultProcessState
    else p

def beginTerminalFinalization (state : ProcessState) (now : ℕ) : Process :=
  { p with pendingTerminalState := some state, outputFinalizationDeadline := some (now + 500) }

def markExit (status : ExitStatus) (a : RefreshAnswers) : Process :=
  let removeError := if p.launchResultPath then a.removeError else none
  let p : Process :=
    { p with
      exitedAt := some a.exitedAt
      exitStatus := some (exitStatusLabel status)
      launchResultPath := false
      diagnostics := p.diagnostics ++ removeError.toList.map (⟨"launch_result_cleanup", ·⟩) }
  p.beginTerminalFinalization (if status = .code 0 then .exited else .failed) a.deadlineFrom

/-- The state is set and the launch result brought in line with it. -/
def publish (state : ProcessState) : Process :=
  { p with
    pendingTerminalState := none
    outputFinalizationDeadline := none
    state
    launch.supervised := state.runnable?.getD p.launch.supervised }.syncLaunchResultProcessState

def publishTerminalStateIfReady (now : ℕ) : Process :=
  match p.pendingTerminalState with
  | none => p
  | some state =>
    if p.stdout = false ∧ p.stderr = false ∨ p.outputFinalizationDeadline.any (· ≤ now) then
      p.publish state
    else p

/-- The wait in `refresh_process_state`. -/
def observeExit (a : RefreshAnswers) : Process :=
  match p.tryWait a.wait with
  | (.ok (some status), p) => p.markExit status a
  | (.ok none, p) => p
  | (.error error, p) =>
    let p := { p with exitedAt := some a.exitedAt, launch.waitFailed := true }
    (p.beginTerminalFinalization .failed a.deadlineFrom).diagnose "wait_error" error

def drain (a : RefreshAnswers) : Process :=
  let (stdout, diagnostics) := drainOutput "stdout" p.stdout a.stdout p.diagnostics
  let (stderr, diagnostics) := drainOutput "stderr" p.stderr a.stderr diagnostics
  { p with stdout, stderr, diagnostics }

def refreshProcessState (a : RefreshAnswers) : Process :=
  let p := p.drain a
  (if p.exitedAt.isNone then p.observeExit a else p).publishTerminalStateIfReady a.now

def refresh (a : RefreshAnswers) : Process :=
  (p.refreshLaunchResult a.launchResult).refreshProcessState a

def markStopped : Process :=
  let p := match p.pendingTerminalState with
    | some state => p.publish state
    | none => p
  { p with
    outputFinalizationDeadline := none
    state := .stopped
    launch.gaveUp := p.launch.gaveUp || p.exitedAt.isNone }

def waitForChildGroupExit (a : WaitAnswers) : Except String (Option ExitStatus) × Process :=
  let group (status : ExitStatus) :=
    a.groupExit.map fun exited => if exited then some status else none
  match p.tryWait a.tryWait with
  | (.error error, p) => (.error error, p)
  | (.ok (some status), p) => (group status, p)
  | (.ok none, p) =>
    match a.pidExit, a.wait with
    | .error error, _ => (.error error, p)
    | .ok false, _ => (.ok none, p)
    | .ok true, .error error => (.error error, p)
    | .ok true, .ok status => (group status, { p with reaped := some status })

def waitForGroupExit (a : WaitAnswers) : Bool × Process :=
  match p.waitForChildGroupExit a with
  | (.ok status, p) => (status.isSome, p.refresh a.refresh)
  | (.error error, p) => (false, (p.diagnose "wait_error" error).refresh a.refresh)

def groupRunning : Except String Bool → Bool × Process
  | .ok running => (running, p)
  | .error error => (true, p.diagnose "wait_error" error)

/-- A signal to the group, and the wait behind it. -/
def signalled (error : Option String) (a : WaitAnswers) (surviving : Process → Process) :
    Process :=
  match error with
  | some error => p.diagnose "cleanup_signal" error
  | none =>
    let (exited, p) := p.waitForGroupExit a
    if exited then p.markStopped else surviving p

def stop (a : StopAnswers) : Process :=
  let p := p.refresh a.refresh
  let (running, p) := if p.exitedAt.isSome then p.groupRunning a.groupRunning else (true, p)
  if running then
    p.signalled a.termError a.afterTerm fun p => p.signalled a.killError a.afterKill fun p =>
      (p.diagnose "cleanup_timeout"
        s!"process {p.pid} did not exit within the bounded cleanup deadline").markStopped
  else p.markStopped

def snapshot (key : Key) : Snapshot where
  key
  state := p.state
  pid := if p.exitedAt.isNone then some p.pid else none
  startedAt := some p.startedAt
  exitedAt := p.exitedAt
  exitStatus := p.exitStatus
  diagnostics := p.diagnostics
  launchResult := p.launchResult
  launch := some p.launch

/-- A snapshot of the process was returned. -/
def note : Option Snapshot → Process
  | some r => if r.launch.isSome then { p with reports := r :: p.reports } else p
  | none => p

end Process

inductive Failure where
  /-- The entrypoint cannot be supervised. -/
  | refused (error : String)
  | watch (error : String)
  /-- With the snapshot of which the error gives the details. -/
  | readinessFailed (snapshot : Snapshot)
  | readinessTimeout (snapshot : Snapshot)

/-- The rounds of the readiness wait, and whether the launch result may have changed before.
`failure`: how it ends if no round ends it, by the deadline or the watcher. -/
structure ReadinessAnswers where
  first : RefreshAnswers := {}
  rounds : List (Bool × RefreshAnswers) := []
  failure : Snapshot → Failure := .readinessTimeout
  stop : StopAnswers := {}

/-- The result, the snapshot that is retained, and the process. -/
def waitForLaunchResult (key : Key) (a : ReadinessAnswers) : List (Bool × RefreshAnswers) →
    Process → Except Failure Snapshot × Snapshot × Process
  | [], p => (.error (a.failure (p.snapshot key)), p.snapshot key, p.stop a.stop)
  | (changed, answers) :: rounds, p =>
    let p := if changed then p.refresh answers else p.refreshProcessState answers
    let snapshot := p.snapshot key
    if (snapshot.launchResult.bind (·.localUrl)).any (!Text.isBlank ·) then
      (.ok snapshot, snapshot, p)
    else if p.exitedAt.isSome ∧ p.pendingTerminalState.isNone then
      (.error (.readinessFailed snapshot), snapshot, p)
    else waitForLaunchResult key a rounds p

/-- `entrypoint` is what `find_supervisable_entrypoint` finds: whether it declares a launch result.
-/
structure StartAnswers where
  refresh : Key → RefreshAnswers := fun _ => {}
  entrypoint : Except String Bool := .ok false
  watchError : Option String := none
  spawn : Except String ℕ := .ok 1
  now : ℕ := 0
  readiness : ReadinessAnswers := {}

/-- `EntrypointSupervisor`. `replaced` is history: the processes another one was started for. -/
structure Supervisor where
  processes : Key → Option Process := fun _ => none
  retained : Key → Option Snapshot := fun _ => none
  replaced : List Process := []

namespace Supervisor

open Function Process

variable (s : Supervisor) (key : Key)

def modify (f : Key → Process → Process) : Supervisor :=
  { s with processes := fun key => (s.processes key).map (f key) }

def refresh (a : Key → RefreshAnswers) : Supervisor := s.modify fun key p => p.refresh (a key)

def retain (snapshot : Snapshot) : Supervisor :=
  { s with retained := update s.retained key (some snapshot) }

def keep (p : Process) (snapshot : Snapshot) : Supervisor :=
  { s.retain key snapshot with processes := update s.processes key (some p) }

def spawned (declaresResult : Bool) (pid now : ℕ) : Process where
  pid
  startedAt := now
  launchResult := some ⟨key.entrypointId, .running, none⟩
  launchResultPath := declaresResult
  launch := { declaresResult }

def replace (p : Process) (snapshot : Snapshot) : Supervisor :=
  { s.keep key p snapshot with replaced := (s.processes key).toList ++ s.replaced }

/-- The rest of `start` once there is a child. -/
def launch (declaresResult : Bool) (pid now : ℕ) (a : ReadinessAnswers) :
    Except Failure Snapshot × Supervisor :=
  let p := spawned key declaresResult pid now
  if declaresResult then
    let (result, snapshot, p) := waitForLaunchResult key a ((true, a.first) :: a.rounds) p
    (result, s.replace key p snapshot)
  else (.ok (p.snapshot key), s.replace key p (p.snapshot key))

def start (a : StartAnswers) : Except Failure Snapshot × Supervisor :=
  let s := s.refresh a.refresh
  match a.entrypoint, (s.processes key).filter (·.exitedAt.isNone) with
  | .error error, _ => (.error (.refused error), s)
  | .ok _, some p => (.ok (p.snapshot key), s)
  | .ok declaresResult, none =>
    match if declaresResult then a.watchError else none, a.spawn with
    | some error, _ => (.error (.watch error), s)
    | none, .error error =>
      let snapshot := failedSnapshot key error a.now
      (.ok snapshot, s.retain key snapshot)
    | none, .ok pid => s.launch key declaresResult pid a.now a.readiness

def stop (a : StopAnswers) : Snapshot × Supervisor :=
  match s.processes key with
  | some p => ((p.stop a).snapshot key, s.keep key (p.stop a) ((p.stop a).snapshot key))
  | none => (stoppedSnapshot key, s.retain key (stoppedSnapshot key))

def restart (stop : StopAnswers) (start : StartAnswers) : Except Failure Snapshot × Supervisor :=
  (s.stop key stop).2.start key start

/-- A snapshot of the process, or else the retained one. -/
def known : Option Snapshot := ((s.processes key).map (·.snapshot key)).or (s.retained key)

def status (a : Key → RefreshAnswers) : Snapshot × Supervisor :=
  (((s.refresh a).known key).getD (stoppedSnapshot key), s.refresh a)

def snapshots (a : Key → RefreshAnswers) : (Key → Option Snapshot) × Supervisor :=
  ((s.refresh a).known, s.refresh a)

def stopPackage (packageName : String) (a : Key → StopAnswers) : Supervisor :=
  s.modify fun key p => if key.packageName = packageName then p.stop (a key) else p

inductive Call where
  | start (key : Key) (a : StartAnswers)
  | stop (key : Key) (a : StopAnswers)
  | restart (key : Key) (stop : StopAnswers) (start : StartAnswers)
  | status (key : Key) (a : Key → RefreshAnswers)
  | snapshots (a : Key → RefreshAnswers)
  | stopPackage (packageName : String) (a : Key → StopAnswers)

/-- The call is for the entrypoint. -/
def Call.names (key : Key) : Call → Bool
  | .start key' _ | .stop key' _ | .restart key' _ _ | .status key' _ => key = key'
  | .snapshots _ => true
  | .stopPackage packageName _ => key.packageName = packageName

/-- What a call returned for the key is noted. -/
def note (returned : Option Snapshot) : Supervisor :=
  { s with processes := update s.processes key ((s.processes key).map (·.note returned)) }

def step : Call → Supervisor
  | .start key a => (s.start key a).2.note key (s.start key a).1.toOption
  | .stop key a => (s.stop key a).2.note key (s.stop key a).1
  | .restart key stop start =>
    (s.restart key stop start).2.note key (s.restart key stop start).1.toOption
  | .status key a => (s.status key a).2.note key (s.status key a).1
  | .snapshots a => (s.snapshots a).2.modify fun key p => p.note ((s.snapshots a).1 key)
  | .stopPackage packageName a => s.stopPackage packageName a

def run (calls : List Call) : Supervisor := calls.foldl step {}

end Supervisor

end BotsterHub.Entrypoint
