import BotsterHub.Lib.Restrict
import Mathlib.Data.List.Sort
import Mathlib.Data.Prod.Lex
import Mathlib.Data.String.Basic

/-!
The capability runtime of the Hub.

Plugins arm timers, in one map that all share, and submit filesystem and plugin-store operations,
each on a worker thread whose completion comes back through one shared channel. Each plugin drains
a queue of its own. HTTP and WebSocket operations are not modelled.
-/

namespace BotsterHub.Capability

abbrev PluginKey := String
abbrev OperationId := String
abbrev ResourceId := String

inductive ErrorKind where
  | capabilityDenied
  | invalidRequest
  | backpressured
  | resourceNotFound
  | runtimeStopped
  | revisionConflict
  | storeNotFound
  | quotaExceeded
  | patchFailed
  | backendFailed
deriving DecidableEq

structure RuntimeError where
  kind : ErrorKind
  message : String
deriving DecidableEq

inductive Surface where
  | filesystem
  | timers
  | pluginDb
deriving DecidableEq

structure Grant where
  surface : Surface
  scope : String
deriving DecidableEq

inductive FilesystemOperation where
  | read
  | write
  | list
  | stat
  | remove
deriving DecidableEq

inductive TimerRequest where
  | once (delayMs : ℕ)
  | interval (intervalMs : ℕ)
  | cancel (resourceId : ResourceId)
deriving DecidableEq

/-- `scopedRelative`: the path stays below its scope. `validKey`: no key, or a valid one. Core
decides both. -/
inductive Operation where
  | filesystem (scopeId : String) (operation : FilesystemOperation) (scopedRelative : Bool)
  | pluginStore (namespaceText : String) (validKey : Bool)
  | timer (request : TimerRequest)
deriving DecidableEq

inductive ResourceKind where
  | timer
  | other
deriving DecidableEq

/-- A request, with the capability and the kind of resource that Core derives from its operation. -/
structure Request where
  pluginKey : PluginKey
  operationId : OperationId
  operation : Operation
  requiredCapability : Grant
  resourceKind : ResourceKind
deriving DecidableEq

/-- `PluginResourceRef`. -/
structure Resource where
  pluginKey : PluginKey
  kind : ResourceKind
  resourceId : ResourceId
deriving DecidableEq

def Request.resourceRef (request : Request) (resourceId : ResourceId) : Resource :=
  ⟨request.pluginKey, request.resourceKind, resourceId⟩

structure Handle where
  pluginKey : PluginKey
  operationId : OperationId
  resource : Option Resource
  requiredCapability : Grant
deriving DecidableEq

/-- `serial` is history: which of the plugin's accepted operations is reported. -/
inductive Event where
  | completed (pluginKey : PluginKey) (operationId : OperationId) (result : Option String)
      (serial : ℕ)
  | failed (pluginKey : PluginKey) (operationId : OperationId) (error : RuntimeError) (serial : ℕ)
  | resourceOpened (pluginKey : PluginKey) (operationId : OperationId) (resource : Resource)
  | resourceReleased (pluginKey : PluginKey) (operationId : OperationId) (resource : Resource)
  | timerFired (resource : Resource) (sequence : ℕ)
  | backpressure (pluginKey : PluginKey) (operationId : OperationId) (capacity depth : ℕ)
deriving DecidableEq

def Event.pluginKey : Event → PluginKey
  | .completed pluginKey _ _ _ | .failed pluginKey _ _ _ | .resourceOpened pluginKey _ _
  | .resourceReleased pluginKey _ _ | .backpressure pluginKey _ _ _ => pluginKey
  | .timerFired resource _ => resource.pluginKey

/-- `HubTimer`. -/
structure Timer where
  pluginKey : PluginKey
  resource : Resource
  nextFireMs : ℕ
  intervalMs : Option ℕ
  sequence : ℕ
deriving DecidableEq

/-- A worker thread that has not sent its completion. -/
structure Work where
  pluginKey : PluginKey
  operationId : OperationId
  serial : ℕ
deriving DecidableEq

/-- `HubCapabilityCompletion`. -/
structure Completion where
  work : Work
  result : Except RuntimeError String
deriving DecidableEq

def Completion.pluginKey (completion : Completion) : PluginKey := completion.work.pluginKey

def Completion.event (completion : Completion) : Event :=
  match completion.result with
  | .ok result =>
    .completed completion.pluginKey completion.work.operationId (some result) completion.work.serial
  | .error error =>
    .failed completion.pluginKey completion.work.operationId error completion.work.serial

/-- `HubCapabilityRuntime`. `inFlight` is the worker threads, `accepted` history. -/
structure State where
  hostGrants : List Grant
  pluginGrants : Dict PluginKey (List Grant)
  filesystemGrants : Dict String (List FilesystemOperation)
  timers : Dict ResourceId Timer
  pendingEvents : Dict PluginKey (List Event)
  completions : List Completion
  operationCapacity : ℕ
  eventCapacity : ℕ
  inFlight : List Work
  accepted : PluginKey → List OperationId

/-- The Hub's clock, and the error of starting a worker thread, if any. -/
structure Turn where
  monotonicMs : ℕ
  workerError : Option String
deriving DecidableEq

inductive Call where
  | submit (request : Request) (turn : Turn)
  | releaseResource (resource : Resource)
  | drainEvents (pluginKey : PluginKey)
  | drainEventsAt (pluginKey : PluginKey) (nowMs : ℕ)
  | cleanupPlugin (pluginKey : PluginKey)
deriving DecidableEq

def Call.pluginKey : Call → PluginKey
  | .submit request _ => request.pluginKey
  | .releaseResource resource => resource.pluginKey
  | .drainEvents pluginKey | .drainEventsAt pluginKey _ | .cleanupPlugin pluginKey => pluginKey

inductive Answer where
  | handle (handle : Handle)
  | released
  | events (events : List Event)
  | removedResources (resources : List Resource)
deriving DecidableEq

inductive Step where
  | call (call : Call)
  | complete (index : ℕ) (result : Except RuntimeError String)
  | setPluginGrants (pluginKey : PluginKey) (grants : List Grant)
  | revokePluginGrants (pluginKey : PluginKey)
deriving DecidableEq

def maxU64 : ℕ := 2 ^ 64 - 1

def saturatingAdd (a b : ℕ) : ℕ := min (a + b) maxU64

/-- The `?` operator: an error ends the function, and what was done to the state so far stays. -/
def andThen {σ α β : Type} (result : σ × Except RuntimeError α)
    (next : σ → α → σ × Except RuntimeError β) : σ × Except RuntimeError β :=
  match result with
  | (s, .ok value) => next s value
  | (s, .error error) => (s, .error error)

theorem andThen_eq_ok {σ α β : Type} {r : σ × Except RuntimeError α}
    {next : σ → α → σ × Except RuntimeError β} {v : β}
    (h : (andThen r next).2 = .ok v) :
    ∃ s i, r = (s, .ok i) ∧ andThen r next = next s i ∧ (next s i).2 = .ok v := by
  obtain ⟨s, a⟩ := r
  cases a with
  | error => cases h
  | ok i => exact ⟨s, i, rfl, rfl, h⟩

namespace State

/-- `from_config`. -/
def new : State :=
  { hostGrants := [⟨.filesystem, "workspace"⟩, ⟨.timers, "callbacks"⟩]
    pluginGrants := ∅
    filesystemGrants :=
      (∅ : Dict String (List FilesystemOperation)).insert "workspace"
        [.read, .write, .list, .stat, .remove]
    timers := ∅, pendingEvents := ∅, completions := []
    operationCapacity := 128, eventCapacity := 256
    inFlight := [], accepted := fun _ => [] }

variable (s : State)

variable (pluginKey : PluginKey)

def events : List Event := (s.pendingEvents.lookup pluginKey).getD []

def localEventLen : ℕ := (s.events pluginKey).length

def pushLocalEvent (event : Event) : State :=
  { s with
    pendingEvents :=
      s.pendingEvents.insert event.pluginKey (s.events event.pluginKey ++ [event]) }

def ensureEventCapacity (additional : ℕ) : Except RuntimeError Unit :=
  if s.eventCapacity < s.localEventLen pluginKey + additional then
    .error ⟨.backpressured, "hub capability runtime event queue is at capacity"⟩
  else .ok ()

/-- The loop of `drain_worker_completions`. A completion leaves the channel before its room is
checked. -/
def takeCompletions (s : State) : List Completion → State × Except RuntimeError Unit
  | [] => (s, .ok ())
  | completion :: rest =>
    let s : State := { s with completions := rest }
    andThen (s, s.ensureEventCapacity completion.pluginKey 1) fun s _ =>
      (s.pushLocalEvent completion.event).takeCompletions rest

def drainWorkerCompletions : State × Except RuntimeError Unit := s.takeCompletions s.completions

variable (request : Request)

def ensureRuntimeCapacity : State × Except RuntimeError Unit :=
  andThen s.drainWorkerCompletions fun s _ =>
    let depth := s.localEventLen request.pluginKey
    if depth < s.operationCapacity then (s, .ok ())
    else
      (if depth < s.eventCapacity then
        s.pushLocalEvent
          (.backpressure request.pluginKey request.operationId s.operationCapacity depth)
      else s, .error ⟨.backpressured, "hub capability runtime queue is at capacity"⟩)

def ensurePluginGrant (required : Grant) : Except RuntimeError Unit :=
  if required ∈ (s.pluginGrants.lookup pluginKey).getD [] then .ok ()
  else
    .error ⟨.capabilityDenied, "the plugin's package was not admitted with the required capability"⟩

def accept : State :=
  { s with
    accepted := Function.update s.accepted request.pluginKey
      (s.accepted request.pluginKey ++ [request.operationId]) }

def serial : ℕ := (s.accepted pluginKey).length

def startWorker (turn : Turn) (failure : String) : State × Except RuntimeError Handle :=
  match turn.workerError with
  | some error => (s, .error ⟨.runtimeStopped, failure ++ error⟩)
  | none =>
    (({ s with
      inFlight := s.inFlight ++
        [⟨request.pluginKey, request.operationId, s.serial request.pluginKey⟩] } : State).accept
        request,
      .ok
        { pluginKey := request.pluginKey
          operationId := request.operationId
          resource := some (request.resourceRef request.operationId)
          requiredCapability := request.requiredCapability })

/-- The checks of `submit_filesystem`. -/
def allowsFilesystem (scopeId : String)
    (operation : FilesystemOperation) (scopedRelative : Bool) : Except RuntimeError Unit :=
  match s.filesystemGrants.lookup scopeId with
  | none => .error ⟨.capabilityDenied, "filesystem scope is not granted by this hub"⟩
  | some permissions =>
    if request.requiredCapability ∉ s.hostGrants then
      .error ⟨.capabilityDenied, "this hub does not implement the requested filesystem scope"⟩
    else if scopedRelative = false then
      .error ⟨.invalidRequest, "filesystem path must stay below its scope"⟩
    else if operation ∉ permissions then
      .error ⟨.capabilityDenied, "filesystem operation is not permitted for this scope"⟩
    else .ok ()

def submitFilesystem (scopeId : String)
    (operation : FilesystemOperation) (scopedRelative : Bool) (turn : Turn) :
    State × Except RuntimeError Handle :=
  andThen (s.ensureRuntimeCapacity request) fun s _ =>
    andThen (s, s.allowsFilesystem request scopeId operation scopedRelative) fun s _ =>
      s.startWorker request turn "failed to start filesystem capability worker: "

def preparePluginStore (namespaceText : String) (validKey : Bool) : Except RuntimeError Unit :=
  if namespaceText ≠ pluginKey then
    .error ⟨.capabilityDenied, "plugin-store namespace must exactly match the plugin key"⟩
  else
    match s.ensurePluginGrant pluginKey ⟨.pluginDb, namespaceText⟩ with
    | .error error => .error error
    | .ok () =>
      if validKey then .ok () else .error ⟨.invalidRequest, "plugin-store key is invalid"⟩

def submitPluginStore (namespaceText : String) (validKey : Bool)
    (turn : Turn) : State × Except RuntimeError Handle :=
  andThen (s.ensureRuntimeCapacity request) fun s _ =>
    andThen (s, s.preparePluginStore request.pluginKey namespaceText validKey) fun s _ =>
      s.startWorker request turn "failed to start plugin-store capability worker: "

def completeTimer (event : Event) : State :=
  ((s.pushLocalEvent event).pushLocalEvent
    (.completed request.pluginKey request.operationId none (s.serial request.pluginKey))).accept
      request

def timerId (operationId : OperationId) : ResourceId := "timer-" ++ operationId

def openTimer (delayMs : ℕ) (intervalMs : Option ℕ)
    (turn : Turn) : State × Except RuntimeError Handle :=
  if delayMs = 0 then (s, .error ⟨.invalidRequest, "timer delay must be greater than zero"⟩)
  else
    let resource := request.resourceRef (timerId request.operationId)
    andThen (s, s.ensureEventCapacity request.pluginKey 2) fun s _ =>
      (({ s with
        timers := s.timers.insert (timerId request.operationId)
          { pluginKey := request.pluginKey
            resource
            nextFireMs := saturatingAdd turn.monotonicMs delayMs
            intervalMs
            sequence := 0 } } : State).completeTimer request
          (.resourceOpened request.pluginKey request.operationId resource),
        .ok
          { pluginKey := request.pluginKey
            operationId := request.operationId
            resource := some resource
            requiredCapability := request.requiredCapability })

/-- `cancel_timer_resource`. The timer leaves the map before owner and room are checked. -/
def cancelTimerResource (resourceId : ResourceId) : State × Except RuntimeError Handle :=
  match s.timers.lookup resourceId with
  | none => (s, .error ⟨.resourceNotFound, "timer resource is not open"⟩)
  | some timer =>
    let s : State := { s with timers := s.timers.erase resourceId }
    if timer.pluginKey ≠ request.pluginKey then
      (s, .error ⟨.resourceNotFound, "timer resource is not owned by this plugin"⟩)
    else
      andThen (s, s.ensureEventCapacity request.pluginKey 2) fun s _ =>
        (s.completeTimer request
          (.resourceReleased request.pluginKey request.operationId timer.resource),
          .ok
            { pluginKey := request.pluginKey
              operationId := request.operationId
              resource := some timer.resource
              requiredCapability := request.requiredCapability })

def submitTimer (timer : TimerRequest) (turn : Turn) : State × Except RuntimeError Handle :=
  if request.requiredCapability ∉ s.hostGrants then
    (s, .error ⟨.capabilityDenied, "this hub does not implement the requested timer scope"⟩)
  else
    match timer with
    | .once delayMs => s.openTimer request delayMs none turn
    | .interval intervalMs => s.openTimer request intervalMs (some intervalMs) turn
    | .cancel resourceId => s.cancelTimerResource request resourceId

def dueTimers (nowMs : ℕ) : List (ℕ ×ₗ ResourceId) :=
  ((s.timers.entries.filter fun e =>
      decide (e.2.pluginKey = pluginKey ∧ e.2.nextFireMs ≤ nowMs)).map fun e =>
    toLex (e.2.nextFireMs, e.1)).insertionSort (· ≤ ·)

def fireTimer (nowMs : ℕ) (s : State) (due : ℕ ×ₗ ResourceId) : State :=
  match s.timers.lookup (ofLex due).2 with
  | none => s
  | some timer =>
    ({ s with
      timers := match timer.intervalMs with
        | some intervalMs => s.timers.insert (ofLex due).2
            { timer with
              sequence := timer.sequence + 1
              nextFireMs := saturatingAdd nowMs intervalMs }
        | none => s.timers.erase (ofLex due).2 } : State).pushLocalEvent
      (.timerFired timer.resource (timer.sequence + 1))

/-- `enqueue_due_timers`. All due timers fire or none does. -/
def enqueueDueTimers (nowMs : ℕ) : State × Except RuntimeError Unit :=
  let due := s.dueTimers pluginKey nowMs
  andThen (s, s.ensureEventCapacity pluginKey due.length) fun s _ =>
    (due.foldl (fireTimer nowMs) s, .ok ())

def submit (turn : Turn) : State × Except RuntimeError Handle :=
  andThen (s, s.ensurePluginGrant request.pluginKey request.requiredCapability) fun s _ =>
    match request.operation with
    | .filesystem scopeId operation scopedRelative =>
      s.submitFilesystem request scopeId operation scopedRelative turn
    | .pluginStore namespaceText validKey =>
      s.submitPluginStore request namespaceText validKey turn
    | .timer timer => s.submitTimer request timer turn

/-- The capability of the request ends up in a handle that nobody reads. -/
def releaseRequest (resource : Resource) : Request :=
  { pluginKey := resource.pluginKey
    operationId := "release:" ++ resource.resourceId
    operation := .timer (.cancel resource.resourceId)
    requiredCapability := ⟨.timers, "callbacks"⟩
    resourceKind := .timer }

def releaseResource (resource : Resource) : State × Except RuntimeError Unit :=
  match resource.kind with
  | .timer =>
    andThen (s.cancelTimerResource (releaseRequest resource) resource.resourceId) fun s _ =>
      (s, .ok ())
  | .other => (s, .ok ())

def drainEvents : State × Except RuntimeError (List Event) :=
  andThen s.drainWorkerCompletions fun s _ =>
    ({ s with pendingEvents := s.pendingEvents.erase pluginKey }, .ok (s.events pluginKey))

def drainEventsAt (nowMs : ℕ) : State × Except RuntimeError (List Event) :=
  andThen (s.enqueueDueTimers pluginKey nowMs) fun s _ => s.drainEvents pluginKey

def cleanupPlugin : State × List Resource :=
  ({ s with
    timers := s.timers.retain fun _ timer => decide (timer.pluginKey ≠ pluginKey)
    pendingEvents := s.pendingEvents.erase pluginKey },
    (((s.timers.entries.filter fun e => decide (e.2.pluginKey = pluginKey)).map
      Sigma.fst).insertionSort (· ≤ ·)).filterMap fun id => (s.timers.lookup id).map Timer.resource)

def call : Call → State × Except RuntimeError Answer
  | .submit request turn =>
    andThen (s.submit request turn) fun s handle => (s, .ok (.handle handle))
  | .releaseResource resource => andThen (s.releaseResource resource) fun s _ => (s, .ok .released)
  | .drainEvents pluginKey =>
    andThen (s.drainEvents pluginKey) fun s events => (s, .ok (.events events))
  | .drainEventsAt pluginKey nowMs =>
    andThen (s.drainEventsAt pluginKey nowMs) fun s events => (s, .ok (.events events))
  | .cleanupPlugin pluginKey =>
    ((s.cleanupPlugin pluginKey).1, .ok (.removedResources (s.cleanupPlugin pluginKey).2))

def complete (index : ℕ) (result : Except RuntimeError String) : State :=
  match s.inFlight[index]? with
  | none => s
  | some work =>
    { s with
      inFlight := s.inFlight.eraseIdx index
      completions := s.completions ++ [⟨work, result⟩] }

def step : Step → State
  | .call call => (s.call call).1
  | .complete index result => s.complete index result
  | .setPluginGrants pluginKey grants =>
    { s with pluginGrants := s.pluginGrants.insert pluginKey grants }
  | .revokePluginGrants pluginKey =>
    { s with pluginGrants := s.pluginGrants.erase pluginKey }

def run (steps : List Step) : State := steps.foldl step s

end State

end BotsterHub.Capability
