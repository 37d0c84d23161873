import BotsterHub.Maintenance.HostBridge
import BotsterHub.Session.Journal

/-!
The lifecycle slices of the maintenance loop (`daemon_maintenance.rs`).

A slice submits a read of a baseline or journal page on one turn and applies it on a later one;
any other slice may run in between. Received changes wait in `pendingChanges`. The whole system is
one machine of Core, the owner's slices, the plugin engine and the rest of the Hub. When a slice
runs is left open; `derivedReadiness` says which the owner would schedule.
-/

namespace BotsterHub.Maintenance

open Session

def applyMaxChanges : ℕ := 16

namespace MaintenanceState

def noteJournalAdvanced (st : MaintenanceState) : MaintenanceState :=
  { st with journalWakePending := true }

def noteAuthoritativeMutation (st : MaintenanceState) : MaintenanceState :=
  { st with journalCaughtUpConfirmed := false }

def takeJournalWake (st : MaintenanceState) : MaintenanceState :=
  { st with journalWakePending := false }

def journalCaughtUpAfterPull (received atWatermark journalAdvanced : Bool) : Bool :=
  !received && atWatermark && !journalAdvanced

def applyJournalPageResult (st : MaintenanceState) (result : Except Core.PageError Core.JournalPage)
    (woke : Bool) : MaintenanceState :=
  match result with
  | .ok page =>
    if page.resyncRequired then st.startBaselineRecovery
    else
      let received := !page.changes.isEmpty
      let atWatermark : Bool := page.next = page.sourceWatermark
      let journalAdvanced := woke || st.journalWakePending
      let st := { st with
        journalSourceWatermark := some page.sourceWatermark
        -- a wake that came with the read leaves the next one pending
        journalWakePending := if woke then st.journalWakePending else false
        journalCaughtUpConfirmed :=
          journalCaughtUpAfterPull received atWatermark journalAdvanced }
      if !received && !atWatermark then st.faultLifecycle
      else { st with pendingChanges := st.pendingChanges ++ page.changes }
  | .error .budgetTooSmall => st.faultLifecycle
  | .error .other => st.startBaselineRecovery

variable (parseTraits : String → Option (List String))

def queueFamilyDelta (st : MaintenanceState) (change : LifecycleChange) : MaintenanceState :=
  match FamilyFrame.ofChange parseTraits change with
  | none => st
  | some frame =>
    let b := st.sessionFamily
    if fanoutQueueMaxItems ≤ b.pendingFanout.length ∨
        fanoutQueueMaxBytes < b.fanoutBytes + frame.encodedLen then
      st.startBaselineRecovery
    else
      { st with
        sessionFamily := { b with
          fanoutBytes := b.fanoutBytes + frame.encodedLen
          pendingFanout := b.pendingFanout ++ [⟨frame, none, frame.encodedLen⟩] }
        history := { st.history with queued := st.history.queued ++ [frame] } }

def applyNext (st : MaintenanceState) (change : LifecycleChange) : MaintenanceState :=
  queueFamilyDelta parseTraits
    { st with
      projection := st.projection.applyChange change
      history := { st.history with applied := st.history.applied ++ [change] } }
    change

def applyLoop : ℕ → MaintenanceState → MaintenanceState
  | 0, st => st
  | n + 1, st =>
    match st.pendingChanges with
    | [] => st
    | change :: rest =>
      applyLoop n (applyNext parseTraits { st with pendingChanges := rest } change)

/-- `retire_projected_spawn_acks` on the acknowledgements of the owner. -/
def retireProjectedSpawnAcks (st : MaintenanceState) : MaintenanceState :=
  { st with
    acknowledgedSpawnIds := st.acknowledgedSpawnIds.filter fun id => id ∉ st.projection.rows }

def runProjectionApplySlice (st : MaintenanceState) : MaintenanceState :=
  if !st.projection.baselineComplete then { st with pendingChanges := [] }
  else
    let applied := !st.pendingChanges.isEmpty
    let st := (applyLoop parseTraits applyMaxChanges st).retireProjectedSpawnAcks
    { st with projectionDirty := applied || st.projectionDirty }

def acknowledgedSpawnsMissingFromProjection (st : MaintenanceState) : Bool :=
  (st.acknowledgedSpawnIds.filter fun id => id ∉ st.projection.rows) ≠ ∅

def journalConsumeIsAtWatermark (st : MaintenanceState) : Bool :=
  st.journalCaughtUpConfirmed ||
    match st.projection.cursor, st.journalSourceWatermark with
    | some cursor, some watermark =>
      cursor.sourceId = watermark.sourceId && watermark.sequence ≤ cursor.sequence
    | _, _ => false

def rewindJournalCursorForOmittedRecover (st : MaintenanceState) : MaintenanceState :=
  { st with
    projection := { st.projection with
      cursor := st.projection.cursor.map fun cursor => { cursor with sequence := 0 } }
    journalCaughtUpConfirmed := false }

def omittedRowRecoverKey (st : MaintenanceState) : Option LifecycleCursor :=
  st.journalSourceWatermark.or
    (st.projection.cursor.map fun cursor => { cursor with sequence := 0 })

def startOmittedRowRecover (st : MaintenanceState) : MaintenanceState :=
  match st.omittedRowRecoverKey with
  | none => st
  | some key =>
    if st.omittedRowRecoverAt = some key then st
    else rewindJournalCursorForOmittedRecover { st with omittedRowRecoverAt := some key }

/-- `sync_acknowledged_spawns` with the ids of the runtime. -/
def syncAcknowledgedSpawns (st : MaintenanceState) (acknowledged : Finset String) :
    MaintenanceState :=
  { st with acknowledgedSpawnIds := st.acknowledgedSpawnIds ∪ acknowledged }

def refreshProjectionIfInventoryAhead (st : MaintenanceState) (acknowledged : Finset String) :
    MaintenanceState :=
  let st := (st.syncAcknowledgedSpawns acknowledged).retireProjectedSpawnAcks
  if st.acknowledgedSpawnsMissingFromProjection && st.journalConsumeIsAtWatermark then
    st.startOmittedRowRecover
  else st

def beginFamilySnapshots (st : MaintenanceState) (sequence : ℕ) : MaintenanceState :=
  { st with
    sessionFamily := { st.sessionFamily with
      snapshotStartSequence := some sequence
      snapshotStartAfter := none } }

def noteBaselinePage (st : MaintenanceState) (page : Core.BaselinePage) : MaintenanceState :=
  { st with
    baseline := st.baseline.map fun _ => ⟨some page.snapshotSequence, page.next⟩
    projection := st.projection.ingestBaselineRows page.snapshotSequence.sequence page.sessions }

def completeBaseline (st : MaintenanceState) (acknowledged : Finset String)
    (snapshot : LifecycleCursor) : MaintenanceState :=
  let st := { st with
    baseline := none
    projection := st.projection.sealBaseline snapshot
    history := { st.history with
      seals := st.history.seals + 1
      sealedAt := some snapshot
      applied := []
      queued := [] } }
  let st := (st.syncAcknowledgedSpawns acknowledged).retireProjectedSpawnAcks
  let st := { st with journalCaughtUpConfirmed := false }
  let st := if st.acknowledgedSpawnsMissingFromProjection then st.startOmittedRowRecover else st
  { st with projectionDirty := true }.beginFamilySnapshots snapshot.sequence

def applyBaselinePageResult (st : MaintenanceState) (acknowledged : Finset String)
    (result : Except Core.PageError Core.BaselinePage) : MaintenanceState :=
  match result with
  | .ok page =>
    match page.stop with
    | .resync => st.startBaselineRecovery
    | .unknown => st.faultLifecycle
    | .complete => (st.noteBaselinePage page).completeBaseline acknowledged page.snapshotSequence
    | .elapsed | .rowBudget | .byteBudget => st.noteBaselinePage page
  | .error .budgetTooSmall => st.faultLifecycle
  | .error .other => st.startBaselineRecovery

def handleUnavailableObservePass (st : MaintenanceState) : MaintenanceState :=
  if !st.projection.baselineComplete || st.baseline.isSome then st.startBaselineRecovery else st

end MaintenanceState

structure JournalRead where
  cursor : LifecycleCursor
  woke : Bool
  answer : Option (Core.Ticket Core.JournalPage)

structure BaselineRead where
  snapshot : Option LifecycleCursor
  after : Option String
  answer : Option (Core.Ticket Core.BaselinePage)

/-- `MaintenanceCoreReads`: a read stays until a slice has taken its answer. -/
structure MaintenanceCoreReads where
  journal : Option JournalRead
  baseline : Option BaselineRead

structure Hub where
  core : Core
  /-- The sessions whose spawn the runtime has acknowledged. -/
  acknowledged : Finset String
  installs : EventInstalls
  reads : MaintenanceCoreReads
  state : MaintenanceState

namespace Hub

def start (source : String) (base : List LifecycleRecord) : Hub where
  core := Core.start source base
  acknowledged := ∅
  installs := ∅
  reads := ⟨none, none⟩
  state := MaintenanceState.new

def retireAcknowledged (h : Hub) (before : Finset String) : Hub :=
  { h with acknowledged := h.acknowledged \ (before \ h.state.acknowledgedSpawnIds) }

def runJournalPullSlice (h : Hub) (refused : Bool) : Hub :=
  match h.reads.journal with
  | some read =>
    match read.answer with
    | none => h
    | some .lost => { h with reads := { h.reads with journal := none } }
    | some (.ready result) =>
      { h with
        reads := { h.reads with journal := none }
        state := h.state.applyJournalPageResult result read.woke }
  | none =>
    let woke := h.state.journalWakePending
    let st := h.state.takeJournalWake
    if st.baseline.isSome || !st.projection.baselineComplete then
      if woke && st.baseline.isNone && !st.sessionFamily.needGapPass then
        { h with state := st.startBaselineRecovery }
      else { h with state := st }
    else match st.projection.cursor with
      | none => { h with state := if woke then st.startBaselineRecovery else st }
      | some cursor =>
        if refused then { h with state := { st with journalWakePending := woke } }
        else
          { h with reads := { h.reads with journal := some ⟨cursor, woke, none⟩ }, state := st }

def completesBaseline : Except Core.PageError Core.BaselinePage → Bool
  | .ok page => page.stop = .complete
  | .error _ => false

def runBaselineSlice (h : Hub) (refused : Bool) : Hub :=
  match h.reads.baseline with
  | some read =>
    match read.answer with
    | none => h
    | some .lost => { h with reads := { h.reads with baseline := none } }
    | some (.ready result) =>
      let before := h.state.acknowledgedSpawnIds ∪ h.acknowledged
      let h := { h with
        reads := { h.reads with baseline := none }
        state := h.state.applyBaselinePageResult h.acknowledged result }
      if completesBaseline result then h.retireAcknowledged before else h
  | none =>
    match h.state.baseline with
    | none => h
    | some recovery =>
      if refused then h
      else
        { h with
          reads := { h.reads with baseline := some ⟨recovery.snapshot, recovery.after, none⟩ } }

inductive Step where
  /-- Core records a change, starts over, or answers a read. -/
  | change (kind : ChangeKind)
  | restart (source : String) (base : List LifecycleRecord)
  | answerJournal (choice : Core.JournalChoice)
  | answerBaseline (choice : Core.BaselineChoice)
  /-- The rest of the Hub. -/
  | journalAdvanced
  | authoritativeMutation
  | acknowledgeSpawn (id : String)
  | noteSpawn (id : String)
  | install (key : String) (handlers : List HubPluginEventHandler)
  | uninstall (key : String)
  | recover
  | observeUnavailable
  | refreshInventory
  /-- The slices of the owner. -/
  | journalPull (refused : Bool)
  | projectionApply
  | baseline (refused : Bool)
  | hostBridge (timeLeft : Option ℕ) (answer : MaintenanceState.PluginAdmission)
  /-- The plugin engine. -/
  | completion (requestId : FamilyRequestId) (success : Bool)
  | engineReleased

def answerJournal (h : Hub) (choice : Core.JournalChoice) : Hub :=
  { h with
    reads := { h.reads with
      journal := h.reads.journal.map fun read =>
        if read.answer.isSome then read
        else { read with answer := some (h.core.answerJournal read.cursor choice) } } }

def answerBaseline (h : Hub) (choice : Core.BaselineChoice) : Hub :=
  { h with
    reads := { h.reads with
      baseline := h.reads.baseline.map fun read =>
        if read.answer.isSome then read
        else { read with
          answer := some (h.core.answerBaseline read.snapshot read.after choice) } } }

def step (parseTraits : String → Option (List String)) (h : Hub) : Step → Option Hub
  | .change kind => some { h with core := h.core.record kind }
  | .restart source base => some { h with core := h.core.restart source base }
  | .answerJournal choice => some (h.answerJournal choice)
  | .answerBaseline choice => some (h.answerBaseline choice)
  | .journalAdvanced => some { h with state := h.state.noteJournalAdvanced }
  | .authoritativeMutation => some { h with state := h.state.noteAuthoritativeMutation }
  | .acknowledgeSpawn id => some { h with acknowledged := insert id h.acknowledged }
  | .noteSpawn id =>
    some
      { h with
        state := { h.state with acknowledgedSpawnIds := insert id h.state.acknowledgedSpawnIds } }
  | .install key handlers => some { h with installs := h.installs.insert key handlers }
  | .uninstall key => some { h with installs := h.installs.erase key }
  | .recover => some { h with state := h.state.startBaselineRecovery }
  | .observeUnavailable => some { h with state := h.state.handleUnavailableObservePass }
  | .refreshInventory =>
    let before := h.state.acknowledgedSpawnIds ∪ h.acknowledged
    let h := { h with state := h.state.refreshProjectionIfInventoryAhead h.acknowledged }
    some (h.retireAcknowledged before)
  | .journalPull refused => some (h.runJournalPullSlice refused)
  | .projectionApply =>
    let before := h.state.acknowledgedSpawnIds
    let h := { h with state := h.state.runProjectionApplySlice parseTraits }
    some (h.retireAcknowledged before)
  | .baseline refused => some (h.runBaselineSlice refused)
  | .hostBridge timeLeft answer =>
    (h.state.runHostBridgeSlice parseTraits h.installs timeLeft answer).map fun st =>
      { h with state := st }
  | .completion requestId success =>
    some { h with state := h.state.applyPluginCompletion requestId success }
  | .engineReleased =>
    some
      { h with
        state := { h.state with
          sessionFamily :=
            if h.state.sessionFamily.engineParkedSeen then h.state.sessionFamily.unparkAll
            else h.state.sessionFamily } }

def run (parseTraits : String → Option (List String)) (h : Hub) (steps : List Step) : Option Hub :=
  steps.foldlM (step parseTraits) h

/-- `derived_readiness`, without the parking on a full Core queue; a slice with an answered read is
marked by the completion. Other steps are always possible. -/
def ready (h : Hub) : Step → Bool
  | .projectionApply => !h.state.pendingChanges.isEmpty
  | .baseline _ =>
    match h.reads.baseline with
    | some read => read.answer.isSome
    | none => !h.state.lifecycleFaulted && h.state.baseline.isSome
  | .journalPull _ =>
    match h.reads.journal with
    | some read => read.answer.isSome
    | none =>
      !h.state.lifecycleFaulted && (h.state.journalWakePending ||
          (!h.state.journalCaughtUpConfirmed && h.state.projection.baselineComplete &&
            h.state.baseline.isNone && h.state.projection.cursor.isSome))
  | _ => true

end Hub

end BotsterHub.Maintenance
