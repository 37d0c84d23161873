import BotsterHub.Maintenance.Family

/-!
The host bridge slice of the maintenance loop (`daemon_maintenance.rs`): it refreshes the
consumers, goes on with a gap pass, the snapshot starts, the fanout and the pruning, and offers
one frame to the plugin engine, under one budget of visits, bytes and time.
-/

namespace BotsterHub.Maintenance

open Session

def consumerRefreshMax : ℕ := 8
def hostBridgeMaxBytes : ℕ := 64 * 1024
def fanoutQueueMaxItems : ℕ := 32
def fanoutQueueMaxBytes : ℕ := 64 * 1024

structure BaselineRecovery where
  snapshot : Option LifecycleCursor
  after : Option String
deriving DecidableEq

inductive FamilyEvent where
  | admitted (key : String) (requestId : FamilyRequestId) (frame : FamilyFrame)
  | completed (requestId : FamilyRequestId) (success : Bool)
deriving DecidableEq

structure History where
  seals : ℕ
  /-- The cursor of the last seal, and the changes applied and deltas queued since. -/
  sealedAt : Option LifecycleCursor
  applied : List LifecycleChange
  queued : List FamilyFrame
  events : List FamilyEvent

/-- The lifecycle part of `MaintenanceState`. -/
structure MaintenanceState where
  projection : SessionProjection
  pendingChanges : List LifecycleChange
  baseline : Option BaselineRecovery
  journalSourceWatermark : Option LifecycleCursor
  journalCaughtUpConfirmed : Bool
  acknowledgedSpawnIds : Finset String
  omittedRowRecoverAt : Option LifecycleCursor
  sessionFamily : SessionFamilyBridge
  projectionDirty : Bool
  lifecycleFaulted : Bool
  journalWakePending : Bool
  history : History

namespace MaintenanceState

def new : MaintenanceState where
  projection := SessionProjection.new
  pendingChanges := []
  baseline := none
  journalSourceWatermark := none
  journalCaughtUpConfirmed := false
  acknowledgedSpawnIds := ∅
  omittedRowRecoverAt := none
  sessionFamily := SessionFamilyBridge.new
  projectionDirty := false
  lifecycleFaulted := false
  journalWakePending := false
  history := ⟨0, none, [], [], []⟩

def startBaselineRecovery (st : MaintenanceState) : MaintenanceState :=
  { st with
    projection := st.projection.beginBaselineRecovery
    pendingChanges := []
    journalSourceWatermark := none
    journalCaughtUpConfirmed := false
    omittedRowRecoverAt := none
    sessionFamily := { st.sessionFamily with
      needGapPass := true
      gapAfter := none
      pendingFanout := []
      fanoutBytes := 0
      snapshotStartSequence := none
      snapshotStartAfter := none }
    baseline := none }

def faultLifecycle (st : MaintenanceState) : MaintenanceState :=
  { st with lifecycleFaulted := true }

def cursorSequence (st : MaintenanceState) : ℕ := st.projection.cursor.elim 0 (·.sequence)

end MaintenanceState

/-- `HostBridgeBudget`. `timeLeft` is the number of clock reads before the deadline, `none` if it
does not pass. -/
structure HostBridgeBudget where
  visits : ℕ
  bytes : ℕ
  timeLeft : Option ℕ

namespace HostBridgeBudget

def new (timeLeft : Option ℕ) : HostBridgeBudget where
  visits := 0
  bytes := 0
  timeLeft := timeLeft

variable (b : HostBridgeBudget)

def remainingVisits : ℕ := consumerRefreshMax - b.visits

def exhausted : Bool × HostBridgeBudget :=
  if consumerRefreshMax ≤ b.visits ∨ hostBridgeMaxBytes ≤ b.bytes then (true, b)
  else match b.timeLeft with
    | none => (false, b)
    | some 0 => (true, b)
    | some (n + 1) => (false, { b with timeLeft := some n })

def take : Bool × HostBridgeBudget :=
  match b.exhausted with
  | (true, b) => (false, b)
  | (false, b) =>
    if consumerRefreshMax ≤ b.visits then (false, b)
    else (true, { b with visits := b.visits + 1 })

def addBytes (extra : ℕ) : Bool × HostBridgeBudget :=
  match b.exhausted with
  | (true, b) => (false, b)
  | (false, b) =>
    if hostBridgeMaxBytes < b.bytes + extra then (false, b)
    else (true, { b with bytes := b.bytes + extra })

def takeBytes (extra : ℕ) (b : HostBridgeBudget) : Bool × HostBridgeBudget :=
  match b.take with
  | (true, b) => b.addBytes extra
  | (false, b) => (false, b)

def takeVisits : ℕ → HostBridgeBudget → HostBridgeBudget
  | 0, b => b
  | n + 1, b =>
    match b.take with
    | (true, b) => takeVisits n b
    | (false, b) => b

end HostBridgeBudget

/-!
### Scans

The loops over a page of consumers differ in what they pay and do per visit; another page follows
one that was cut short or full.
-/

section Scan

variable {σ : Type*}

def visitKeys (pay : HostBridgeBudget → Bool × HostBridgeBudget) (f : σ → String → σ) :
    List String → σ → HostBridgeBudget → σ × HostBridgeBudget × List String
  | [], s, budget => (s, budget, [])
  | key :: keys, s, budget =>
    match pay budget with
    | (false, budget) => (s, budget, [])
    | (true, budget) =>
      let (s, budget, visited) := visitKeys pay f keys (f s key) budget
      (s, budget, key :: visited)

def scanGoesOn (keys visited : List String) (max : ℕ) : Bool :=
  visited.length < keys.length || keys.length = max

end Scan

def consumerKeysPage (consumers : Dict String SessionFamilyConsumer) (after : Option String)
    (max : ℕ) : List String :=
  (consumers.keysAfter after).take max

structure HubPluginEventHandler where
  eventName : String
  handler : PluginHandlerRef
deriving DecidableEq

/-- `event_handlers`: one entry for every loaded plugin, also without handlers. -/
abbrev EventInstalls := Dict String (List HubPluginEventHandler)

/-- The handlers of a page, its last plugin, the number visited, and whether more follow. -/
def eventHandlersForPage (installs : EventInstalls) (eventName : String) (after : Option String)
    (maxItems : ℕ) : List HubPluginEventHandler × Option String × ℕ × Bool :=
  let keys := installs.keysAfter after
  let page := keys.take maxItems
  (page.flatMap fun key =>
      ((installs.lookup key).getD []).filter fun handler => handler.eventName = eventName,
    resume after page, page.length, maxItems < keys.length)

def sessionFamilyEventHandlersPage (installs : EventInstalls) (after : Option String)
    (maxItems : ℕ) : List HubPluginEventHandler × Option String × ℕ × Bool :=
  eventHandlersForPage installs "session_family" after maxItems

open SessionFamilyBridge (forgetRequest)

namespace MaintenanceState

variable (st : MaintenanceState)

/-- The plugin of a handler gets a consumer, a new one of a complete projection a snapshot. -/
def refreshConsumer (h : HubPluginEventHandler) : MaintenanceState :=
  if h.handler.kind ≠ .event then st
  else
    let key := h.handler.pluginKey
    let existed := (st.sessionFamily.consumers.lookup key).isSome
    let b := { st.sessionFamily with refreshSeen := insert key st.sessionFamily.refreshSeen }
    let b := b.touchConsumer key fun c =>
      { c with
        handler := some h.handler
        gap := if existed then c.gap else true }
    let b := if !existed && st.projection.baselineComplete then
        b.beginSnapshot key st.cursorSequence
      else b
    { st with sessionFamily := b }

def refreshSessionFamilyConsumers (installs : EventInstalls) (st : MaintenanceState)
    (budget : HostBridgeBudget) : MaintenanceState × HostBridgeBudget :=
  let max := budget.remainingVisits
  if max = 0 then (st, budget)
  else
    let (handlers, lastVisited, visited, more) :=
      sessionFamilyEventHandlersPage installs st.sessionFamily.refreshAfter max
    let budget := budget.takeVisits visited
    let st := handlers.foldl refreshConsumer st
    if more then
      ({ st with sessionFamily := { st.sessionFamily with refreshAfter := lastVisited } }, budget)
    else
      ({ st with
          sessionFamily := { st.sessionFamily with
            refreshAfter := none
            needPrune := true
            pruneAfter := none } },
        budget)

variable (budget : HostBridgeBudget)

def continueGapPass : MaintenanceState × HostBridgeBudget :=
  if !st.sessionFamily.needGapPass then (st, budget)
  else
    let max := budget.remainingVisits
    if max = 0 then (st, budget)
    else
      let after := st.sessionFamily.gapAfter
      let keys := consumerKeysPage st.sessionFamily.consumers after max
      let (b, budget, visited) :=
        visitKeys HostBridgeBudget.take SessionFamilyBridge.markGap keys st.sessionFamily budget
      if scanGoesOn keys visited max then
        ({ st with sessionFamily := { b with gapAfter := resume after visited } }, budget)
      else
        ({ st with
            sessionFamily := { b with needGapPass := false, gapAfter := none }
            baseline := some ⟨none, none⟩ },
          budget)

def continueSnapshotStarts : MaintenanceState × HostBridgeBudget :=
  match st.sessionFamily.snapshotStartSequence with
  | none => (st, budget)
  | some sequence =>
    let max := budget.remainingVisits
    if max = 0 then (st, budget)
    else
      let after := st.sessionFamily.snapshotStartAfter
      let keys := consumerKeysPage st.sessionFamily.consumers after max
      let (b, budget, visited) :=
        visitKeys HostBridgeBudget.take (fun b key => b.beginSnapshot key sequence) keys
          st.sessionFamily budget
      if scanGoesOn keys visited max then
        ({ st with sessionFamily := { b with snapshotStartAfter := resume after visited } }, budget)
      else
        ({ st with
            sessionFamily := { b with snapshotStartSequence := none, snapshotStartAfter := none } },
          budget)

/-- A consumer whose queue is full starts over, at once if the projection is complete. -/
def fanoutTo (frame : FamilyFrame) (b : SessionFamilyBridge) (key : String) : SessionFamilyBridge :=
  match b.queueDelta key frame with
  | (true, b) => b
  | (false, b) =>
    let b := b.markGap key
    if st.projection.baselineComplete then b.beginSnapshot key st.cursorSequence else b

def fanoutFamilyFrame (b : SessionFamilyBridge) (job : FanoutJob)
    (budget : HostBridgeBudget) : SessionFamilyBridge × FanoutJob × HostBridgeBudget × Bool :=
  let max := budget.remainingVisits
  if max = 0 then (b, job, budget, true)
  else
    let keys := consumerKeysPage b.consumers job.after max
    let (b, budget, visited) :=
      visitKeys (HostBridgeBudget.takeBytes job.bytes) (st.fanoutTo job.frame) keys b budget
    if scanGoesOn keys visited max then
      (b, { job with after := resume job.after visited }, budget, true)
    else (b, { job with after := none }, budget, false)

def fanoutLoop (st : MaintenanceState) :
    List FanoutJob → SessionFamilyBridge → HostBridgeBudget → SessionFamilyBridge × HostBridgeBudget
  | [], b, budget => ({ b with pendingFanout := [] }, budget.exhausted.2)
  | job :: jobs, b, budget =>
    match budget.exhausted with
    | (true, budget) => ({ b with pendingFanout := job :: jobs }, budget)
    | (false, budget) =>
      match fanoutFamilyFrame st { b with fanoutBytes := b.fanoutBytes - job.bytes } job budget with
      | (b, job, budget, true) =>
        ({ b with fanoutBytes := b.fanoutBytes + job.bytes, pendingFanout := job :: jobs },
          budget)
      | (b, _, budget, false) => fanoutLoop st jobs b budget

def continueFamilyFanout : MaintenanceState × HostBridgeBudget :=
  let (b, budget) := st.fanoutLoop st.sessionFamily.pendingFanout st.sessionFamily budget
  ({ st with sessionFamily := b }, budget)

def pruneConsumer (b : SessionFamilyBridge) (key : String) : SessionFamilyBridge :=
  match b.consumers.lookup key with
  | none => b
  | some c =>
    let b := b.removeConsumer key
    forgetRequest { b with busyCount := if c.busy then b.busyCount - 1 else b.busyCount } c.inFlight

def continueConsumerPrune : MaintenanceState × HostBridgeBudget :=
  if !st.sessionFamily.needPrune then (st, budget)
  else
    let max := budget.remainingVisits
    if max = 0 then (st, budget)
    else
      let b := st.sessionFamily
      let keys := consumerKeysPage b.consumers b.pruneAfter max
      let (dropKeys, budget, visited) :=
        visitKeys HostBridgeBudget.take
          (fun drop key => if key ∈ b.refreshSeen then drop else drop ++ [key]) keys [] budget
      let b := dropKeys.foldl pruneConsumer b
      if scanGoesOn keys visited max then
        ({ st with
            sessionFamily := { b with pruneAfter := resume st.sessionFamily.pruneAfter visited } },
          budget)
      else
        ({ st with
            sessionFamily := { b with needPrune := false, pruneAfter := none, refreshSeen := ∅ } },
          budget)

inductive PluginAdmission where
  | queued
  | backpressured
  | lockBusy
  | other
deriving DecidableEq

def noteAdmitted (key : String) (peeked : PeekedFamilyPayload)
    (requestId : FamilyRequestId) : MaintenanceState :=
  let b := st.sessionFamily.touchExistingConsumer key fun c => c.commit peeked
  let b := b.touchConsumer key fun c =>
    { c with inFlight := some ⟨requestId, c.snapshotSequence, peeked.frame.kind⟩ }
  { st with
    sessionFamily := { b with inFlightByRequest := b.inFlightByRequest.insert requestId key }
    history := { st.history with
      events := st.history.events ++ [.admitted key requestId peeked.frame] } }

def offerFrame (key : String) (peeked : PeekedFamilyPayload)
    (answer : PluginAdmission) : MaintenanceState :=
  let (requestId, b) := st.sessionFamily.nextRequestId key peeked.frame.snapshotSequence
  let st := { st with sessionFamily := { b with admitAfter := some key } }
  match answer with
  | .queued => st.noteAdmitted key peeked requestId
  | .backpressured | .lockBusy => { st with sessionFamily := st.sessionFamily.park key }
  | .other => startBaselineRecovery { st with sessionFamily := st.sessionFamily.markGap key }

/-- `admit_next_session_family_frame`; `none` is a broken promise of the ready set. -/
def admitNextSessionFamilyFrame (parseTraits : String → Option (List String))
    (answer : PluginAdmission) (st : MaintenanceState) (budget : HostBridgeBudget) :
    Option MaintenanceState :=
  match st.sessionFamily.nextReady with
  | none => some st
  | some key =>
    match (st.sessionFamily.consumers.lookup key).elim (.ok none)
        fun c => c.peek parseTraits st.projection with
    | .ok none => none
    | .error () =>
      -- one row can never fit a chunk: the projection stops
      some (faultLifecycle
        { st with sessionFamily := { st.sessionFamily.markGap key with admitAfter := some key } })
    | .ok (some peeked) =>
      match budget.addBytes peeked.frame.encodedLen with
      | (false, _) => some st
      | (true, _) =>
        if ((st.sessionFamily.consumers.lookup key).bind (·.handler)).isNone then none
        else some (st.offerFrame key peeked answer)

def unlessExhausted
    (pass : MaintenanceState → HostBridgeBudget → MaintenanceState × HostBridgeBudget)
    (p : MaintenanceState × HostBridgeBudget) : MaintenanceState × HostBridgeBudget :=
  match p.2.exhausted with
  | (true, budget) => (p.1, budget)
  | (false, budget) => pass p.1 budget

def hostBridgePasses (installs : EventInstalls) (timeLeft : Option ℕ) (st : MaintenanceState) :
    MaintenanceState × HostBridgeBudget :=
  let p := st.refreshSessionFamilyConsumers installs (HostBridgeBudget.new timeLeft)
  let p := unlessExhausted continueGapPass p
  let p := unlessExhausted continueSnapshotStarts p
  let p := unlessExhausted continueFamilyFanout p
  unlessExhausted continueConsumerPrune p

def runHostBridgeSlice (parseTraits : String → Option (List String)) (installs : EventInstalls)
    (timeLeft : Option ℕ) (answer : PluginAdmission) (st : MaintenanceState) :
    Option MaintenanceState :=
  let (st, budget) := st.hostBridgePasses installs timeLeft
  match budget.exhausted with
  | (true, _) => some st
  | (false, budget) => st.admitNextSessionFamilyFrame parseTraits answer budget

/-- The family part of `apply_plugin_completion`. -/
def applyPluginCompletion (requestId : FamilyRequestId) (success : Bool) :
    MaintenanceState :=
  let st := { st with
    history := { st.history with events := st.history.events ++ [.completed requestId success] } }
  match st.sessionFamily.inFlightByRequest.lookup requestId with
  | none => st
  | some key =>
    let b := { st.sessionFamily with
      inFlightByRequest := st.sessionFamily.inFlightByRequest.erase requestId }
    let b := b.touchExistingConsumer key fun c => c.completed success
    if success then { st with sessionFamily := b }
    else startBaselineRecovery { st with sessionFamily := b.markGap key }

end MaintenanceState

end BotsterHub.Maintenance
