import BotsterHub.Lib.Dict
import Mathlib.Data.Finset.Sort

/-!
The reservation of the Hub state document.

A mutation is prepared on the Host against some revision and committed there by the one waiter
that owns the document. One that finds it taken is parked; a release wakes one. Host mutations and
managed worktrees share the reservation. Host submissions are not refused, a ready mark that is
made is kept, and what the owner's other parts answer comes with each poll.
-/

namespace BotsterHub.Document

structure Cleanup where
  eventPlaneFaults : Bool
  eventPlaneUnloads : ℕ
  unloadedFamilies : Bool
deriving DecidableEq

inductive PackageResult where
  | effectApplied
  | effectFailed (restorable : Bool)
  | runtimeRestored (rollbacks : Bool)
deriving DecidableEq

inductive MutationResult where
  | prepared (baseRevision : ℕ)
  | committed (committedRevision : ℕ) (packageEffect : Bool)
  | publishedUncertain
  | repoFileCommitted
  | externalEffectUncertain
  | recovered (incomplete : Bool)
  | package (result : PackageResult) (cleanup : Cleanup)
  | packageRestored (revision : ℕ)
  | packageRestoreFailed
  | packageQuarantineRecorded (synced : Option ℕ)
  | failed
deriving DecidableEq

/-- `failed`: the job ended without a result of its own kind. -/
inductive HostResult where
  | mutation (result : MutationResult)
  | eventOwner
  | managedWorktreeCreated (createdWorktree : Bool)
  | managedWorktreeFinalized
  | managedWorktreeRefused
  | failed
deriving DecidableEq

/-- The commands of mutations. Those that write the document carry the revision they write
over. -/
inductive HostCommand where
  | prepare
  | commit (baseRevision : ℕ)
  | recover
  | applyPackageEffect
  | restorePackage (baseRevision : ℕ)
  | restorePackageRuntime
  | recordPackageQuarantine (baseRevision : ℕ)
  | eventOwner
  | createManagedWorktree
  | finalizeManagedWorktree
deriving DecidableEq

def HostCommand.base : HostCommand → Option ℕ
  | .commit baseRevision | .restorePackage baseRevision | .recordPackageQuarantine baseRevision =>
    some baseRevision
  | _ => none

def HostCommand.answers : HostCommand → HostResult → Bool
  | _, .failed => true
  | .prepare, .mutation (.prepared _) | .prepare, .mutation .failed => true
  | .commit _, .mutation (.committed _ _) | .commit _, .mutation .publishedUncertain
  | .commit _, .mutation .repoFileCommitted | .commit _, .mutation .externalEffectUncertain
  | .commit _, .mutation (.recovered _) | .commit _, .mutation .failed => true
  | .recover, .mutation (.recovered _) => true
  | .applyPackageEffect, .mutation (.package .effectApplied _)
  | .applyPackageEffect, .mutation (.package (.effectFailed _) _) => true
  | .restorePackage _, .mutation (.packageRestored _)
  | .restorePackage _, .mutation .packageRestoreFailed
  | .restorePackage _, .mutation .publishedUncertain => true
  | .restorePackageRuntime, .mutation (.package (.runtimeRestored _) _) => true
  | .recordPackageQuarantine _, .mutation (.packageQuarantineRecorded _) => true
  | .eventOwner, .eventOwner => true
  | .createManagedWorktree, .managedWorktreeCreated _
  | .createManagedWorktree, .managedWorktreeRefused => true
  | .finalizeManagedWorktree, .managedWorktreeFinalized
  | .finalizeManagedWorktree, .managedWorktreeRefused => true
  | _, _ => false

def HostResult.publishes : HostResult → Bool
  | .mutation (.committed _ _) | .mutation (.packageRestored _)
  | .mutation (.packageQuarantineRecorded _) => true
  | _ => false

def HostResult.isPrepared : HostResult → Bool
  | .mutation (.prepared _) => true
  | _ => false

/-- `HostMutationContinuation`: it waits for its Host job (`commitObligation`: an unanswered
commit), the document (`retained_prepare`), an unload, or the cleanup of its families. -/
inductive HostMutation where
  | running (commitObligation : Bool)
  | retainedPrepare (baseRevision : ℕ)
  | eventCleanup (result : PackageResult) (cleanup : Cleanup)
  | familyWork (result : PackageResult) (cleanup : Cleanup)
deriving DecidableEq

/-- A parked phase holds the prepared mutation, here its revision. -/
inductive Phase where
  | create
  | prepareRecord
  | parkRecord (baseRevision : ℕ)
  | commitRecord
  | spawn
  | handoff
  | finalizeCommit
  | finalizeRollback
  | prepareRemoval
  | parkRemoval (baseRevision : ℕ)
  | commitRemoval
deriving DecidableEq

def Phase.parked : Phase → Bool
  | .parkRecord _ | .parkRemoval _ => true
  | _ => false

def Phase.onHost : Phase → Bool
  | .parkRecord _ | .parkRemoval _ | .spawn | .handoff => false
  | _ => true

def Phase.prepares : Phase → Bool
  | .prepareRecord | .prepareRemoval => true
  | _ => false

/-- `superseded`: the running preparation replaces one that was found stale. -/
structure ManagedWorktree where
  phase : Phase
  recordCommitted : Bool
  createdWorktree : Bool
  superseded : Bool
deriving DecidableEq

inductive Continuation where
  | host (mutation : HostMutation)
  | managed (worktree : ManagedWorktree)
deriving DecidableEq

def Continuation.parked : Continuation → Bool
  | .host (.retainedPrepare _) => true
  | .host _ => false
  | .managed worktree => worktree.phase.parked

def Continuation.waits : Continuation → Bool
  | .host (.running _) | .host (.eventCleanup _ _) => true
  | .host _ => false
  | .managed worktree => worktree.phase.onHost

def Continuation.repreparing : Continuation → Bool
  | .host _ => false
  | .managed worktree => worktree.superseded && worktree.phase.prepares

/-- A write of the document: by whom and over which revision, with the owner and the published
revision then. -/
structure Submission where
  waiterId : ℕ
  baseRevision : ℕ
  owner : Option ℕ
  revision : ℕ
deriving DecidableEq

structure Publication where
  waiterId : ℕ
  owner : Option ℕ
deriving DecidableEq

/-- `ready` and `late`: the rows with a completion reason and with the deadline. `submissions` and
`publications` are history. -/
structure State where
  revision : ℕ
  documentOwner : Option ℕ
  documentWaiters : Finset ℕ
  pendingRequests : Dict ℕ Continuation
  nextWaiter : ℕ
  ready : Finset ℕ
  late : Finset ℕ
  jobs : Dict ℕ HostCommand
  hostCompletions : Dict ℕ HostResult
  submissions : List Submission
  publications : List Publication

inductive FamilyPoll where
  | pending
  | again
  | complete
deriving DecidableEq

inductive SpawnPoll where
  | pending
  | handoff
  | commit
  | rollback
  | finish
deriving DecidableEq

structure Turn where
  packageRecoveryRequired : Bool
  rootQuarantined : Bool
  publicationSlotFree : Bool
  recoveryFunded : Bool
  stateAuthority : Bool
  rollbackConfirmed : Bool
  deadlineElapsed : Bool
  spawnStarted : Bool
  family : FamilyPoll
  spawn : SpawnPoll
deriving DecidableEq

inductive Step where
  | startHost
  | startManaged
  | startRollback (createdWorktree : Bool)
  | hostDone (waiterId : ℕ) (result : HostResult)
  | wake (waiterId : ℕ)
  | deadline (waiterId : ℕ)
  | poll (waiterId : ℕ) (turn : Turn)
deriving DecidableEq

inductive DocumentAdmission where
  | granted
  | busy
  | stale
deriving DecidableEq

inductive ControlPoll where
  | pending (continuation : Continuation)
  | again (continuation : Continuation)
  | finished
deriving DecidableEq

namespace State

def new (revision : ℕ) : State :=
  { revision, documentOwner := none, documentWaiters := ∅, pendingRequests := ∅, nextWaiter := 0
    ready := ∅, late := ∅, jobs := ∅, hostCompletions := ∅, submissions := [], publications := [] }

variable (s : State)

variable (waiterId : ℕ)

def markOwnerReady : State :=
  if (s.pendingRequests.lookup waiterId).isSome then { s with ready := insert waiterId s.ready }
  else s

def wakeNextDocumentWaiter : State :=
  if h : s.documentWaiters.Nonempty then
    { s with documentWaiters := s.documentWaiters.erase (s.documentWaiters.min' h) }.markOwnerReady
      (s.documentWaiters.min' h)
  else s

def releaseDocument : State :=
  if s.documentOwner = some waiterId then
    { s with documentOwner := none }.wakeNextDocumentWaiter
  else s

def admitDocument (waiterId baseRevision : ℕ) : DocumentAdmission × State :=
  match s.documentOwner with
  | some owner =>
    if owner = waiterId then (.granted, s)
    else (.busy, { s with documentWaiters := insert waiterId s.documentWaiters })
  | none =>
    if baseRevision ≠ s.revision then (.stale, s)
    else
      (.granted, { s with
        documentWaiters := s.documentWaiters.erase waiterId
        documentOwner := some waiterId })

def submitPhase (command : HostCommand) : State :=
  { s with
    jobs := s.jobs.insert waiterId command
    submissions :=
      match command.base with
      | some baseRevision =>
        ⟨waiterId, baseRevision, s.documentOwner, s.revision⟩ :: s.submissions
      | none => s.submissions }

def takeCompletion : State :=
  { s with hostCompletions := s.hostCompletions.erase waiterId }

def publishState (waiterId revision : ℕ) : State :=
  { s with revision, publications := ⟨waiterId, s.documentOwner⟩ :: s.publications }

def admitOrParkCommit (waiterId baseRevision : ℕ) (turn : Turn) : State × ControlPoll :=
  if turn.packageRecoveryRequired then
    ({ s with documentWaiters := s.documentWaiters.erase waiterId }.wakeNextDocumentWaiter,
      .finished)
  else
    match s.admitDocument waiterId baseRevision with
    | (.granted, s) =>
      if turn.rootQuarantined ∨ ¬turn.publicationSlotFree ∨ ¬turn.recoveryFunded then
        (s.releaseDocument waiterId, .finished)
      else (s.submitPhase waiterId (.commit baseRevision), .pending (.host (.running true)))
    | (.busy, s) => (s, .pending (.host (.retainedPrepare baseRevision)))
    | (.stale, s) => (s.wakeNextDocumentWaiter, .finished)

def submitPackageQuarantine : State × ControlPoll :=
  (s.submitPhase waiterId .restorePackageRuntime, .pending (.host (.running false)))

def submitPackageRestore (turn : Turn) : State × ControlPoll :=
  if s.documentOwner ≠ some waiterId then s.submitPackageQuarantine waiterId
  else if turn.publicationSlotFree = false then
    (s.releaseDocument waiterId).submitPackageQuarantine waiterId
  else (s.submitPhase waiterId (.restorePackage s.revision), .pending (.host (.running false)))

def submitPackageQuarantineRecord (turn : Turn) : State × ControlPoll :=
  if s.documentOwner ≠ some waiterId ∨ ¬turn.stateAuthority ∨ ¬turn.publicationSlotFree then
    (s.releaseDocument waiterId, .finished)
  else
    (s.submitPhase waiterId (.recordPackageQuarantine s.revision),
      .pending (.host (.running false)))

def applyPackageResult (result : PackageResult) (turn : Turn) : State × ControlPoll :=
  match result with
  | .effectApplied | .runtimeRestored false => (s.releaseDocument waiterId, .finished)
  | .effectFailed true => s.submitPackageRestore waiterId turn
  | .effectFailed false => s.submitPackageQuarantine waiterId
  | .runtimeRestored true => s.submitPackageQuarantineRecord waiterId turn

/-- First the packages, one unload at a time, then the families. A fault is kept for recovery. -/
def cleanUpPackages (result : PackageResult) (cleanup : Cleanup)
    (turn : Turn) : State × ControlPoll :=
  if cleanup.eventPlaneFaults then (s, .finished)
  else if 0 < cleanup.eventPlaneUnloads then
    (s.submitPhase waiterId .eventOwner, .pending (.host (.eventCleanup result
        { cleanup with eventPlaneUnloads := cleanup.eventPlaneUnloads - 1 })))
  else if cleanup.unloadedFamilies then
    (s, .again (.host (.familyWork result { cleanup with unloadedFamilies := false })))
  else s.applyPackageResult waiterId result turn

/-- The end of `HostMutationContinuation::poll`. -/
def applyResult (result : MutationResult) (turn : Turn) : State × ControlPoll :=
  match result with
  | .prepared baseRevision => s.admitOrParkCommit waiterId baseRevision turn
  | .committed committedRevision packageEffect =>
    if committedRevision ≠ s.revision + 1 then (s.releaseDocument waiterId, .finished)
    else if packageEffect then
      ((s.publishState waiterId committedRevision).submitPhase waiterId .applyPackageEffect,
        .pending (.host (.running false)))
    else ((s.publishState waiterId committedRevision).releaseDocument waiterId, .finished)
  | .package result cleanup => s.cleanUpPackages waiterId result cleanup turn
  | .packageRestored revision =>
    ((s.publishState waiterId revision).submitPhase waiterId .restorePackageRuntime,
      .pending (.host (.running false)))
  | .packageRestoreFailed => s.submitPackageQuarantine waiterId
  | .packageQuarantineRecorded (some revision) =>
    ((s.publishState waiterId revision).releaseDocument waiterId, .finished)
  | .recovered true => (s.submitPhase waiterId .recover, .pending (.host (.running false)))
  | .packageQuarantineRecorded none | .recovered false | .publishedUncertain
  | .repoFileCommitted | .externalEffectUncertain | .failed =>
    (s.releaseDocument waiterId, .finished)

/-- A Host result of the mutation itself. A commit of unknown outcome releases the document; another
job without a mutation result does not. -/
def runCompleted (commitObligation : Bool) (result : HostResult)
    (turn : Turn) : State × ControlPoll :=
  match result with
  | .mutation result => s.applyResult waiterId result turn
  | _ => if commitObligation then (s.releaseDocument waiterId, .finished) else (s, .finished)

def eventCleanupCompleted (saved : PackageResult) (cleanup : Cleanup)
    (result : HostResult) (turn : Turn) : State × ControlPoll :=
  match result with
  | .eventOwner => s.cleanUpPackages waiterId saved cleanup turn
  | .failed =>
    (s.submitPhase waiterId .eventOwner, .pending (.host (.eventCleanup saved cleanup)))
  | _ => (s, .finished)

/-- `HostMutationContinuation::poll`. -/
def pollHost (mutation : HostMutation) (turn : Turn) : State × ControlPoll :=
  match mutation with
  | .retainedPrepare baseRevision => s.admitOrParkCommit waiterId baseRevision turn
  | .familyWork saved cleanup =>
    match turn.family with
    | .pending => (s, .pending (.host mutation))
    | .again => (s, .again (.host mutation))
    | .complete => s.cleanUpPackages waiterId saved cleanup turn
  | .running commitObligation =>
    match s.hostCompletions.lookup waiterId with
    | none => (s, .pending (.host mutation))
    | some result => (s.takeCompletion waiterId).runCompleted waiterId commitObligation result turn
  | .eventCleanup saved cleanup =>
    match s.hostCompletions.lookup waiterId with
    | none => (s, .pending (.host mutation))
    | some result =>
      (s.takeCompletion waiterId).eventCleanupCompleted waiterId saved cleanup result turn

inductive Change where
  | record
  | removal
deriving DecidableEq

def Change.prepare : Change → Phase
  | .record => .prepareRecord
  | .removal => .prepareRemoval

def Change.park : Change → ℕ → Phase
  | .record => .parkRecord
  | .removal => .parkRemoval

def Change.commit : Change → Phase
  | .record => .commitRecord
  | .removal => .commitRemoval

/-- `submit_record_prepare`, `submit_removal_prepare`. -/
def submitChangePrepare (change : Change) (s : State) (waiterId : ℕ) (worktree : ManagedWorktree)
    (superseded : Bool) : State × ControlPoll :=
  (s.submitPhase waiterId .prepare,
    .pending (.managed { worktree with phase := change.prepare, superseded }))

def submitFinalize (worktree : ManagedWorktree) (phase : Phase) : State × ControlPoll :=
  (s.submitPhase waiterId .finalizeManagedWorktree, .pending (.managed { worktree with phase }))

/-- `admit_record`, `admit_removal`: a stale preparation is made again, and nobody is woken. -/
def admitChange (change : Change) (s : State) (waiterId : ℕ) (worktree : ManagedWorktree)
    (baseRevision : ℕ) (parked : Bool) (turn : Turn) : State × ControlPoll :=
  match s.admitDocument waiterId baseRevision with
  | (.granted, s) =>
    if turn.publicationSlotFree then
      (s.submitPhase waiterId (.commit baseRevision),
        .pending (.managed { worktree with phase := change.commit }))
    else
      let s := s.releaseDocument waiterId
      match change with
      | .record => s.submitFinalize waiterId worktree .finalizeRollback
      | .removal => (s, .finished)
  | (.busy, s) => (s, .pending (.managed { worktree with phase := change.park baseRevision }))
  | (.stale, s) =>
    let s : State :=
      if parked then { s with documentWaiters := s.documentWaiters.erase waiterId } else s
    submitChangePrepare change s waiterId worktree true

def created (worktree : ManagedWorktree) (result : HostResult)
    (turn : Turn) : State × ControlPoll :=
  match result with
  | .managedWorktreeCreated createdWorktree =>
    let worktree := { worktree with createdWorktree }
    if createdWorktree = true ∧ turn.rollbackConfirmed = true ∨ turn.deadlineElapsed = true then
      s.submitFinalize waiterId worktree .finalizeRollback
    else submitChangePrepare .record s waiterId worktree false
  | _ => (s, .finished)

def recordPrepared (worktree : ManagedWorktree) (result : HostResult)
    (turn : Turn) : State × ControlPoll :=
  match result with
  | .mutation (.prepared baseRevision) =>
    admitChange .record s waiterId worktree baseRevision false turn
  | .mutation .failed => s.submitFinalize waiterId worktree .finalizeRollback
  | _ => (s, .finished)

def removalPrepared (worktree : ManagedWorktree) (result : HostResult)
    (turn : Turn) : State × ControlPoll :=
  match result with
  | .mutation (.prepared baseRevision) =>
    admitChange .removal s waiterId worktree baseRevision false turn
  | _ => (s, .finished)

def recordCommitted (s : State) (waiterId : ℕ) (worktree : ManagedWorktree) (result : HostResult)
    (turn : Turn) : State × ControlPoll :=
  match result with
  | .mutation (.committed committedRevision _) =>
    if committedRevision ≠ s.revision + 1 then
      (s.releaseDocument waiterId).submitFinalize waiterId worktree .finalizeRollback
    else
      let s := (s.publishState waiterId committedRevision).releaseDocument waiterId
      if turn.deadlineElapsed = true ∨ turn.spawnStarted = false then
        s.submitFinalize waiterId { worktree with recordCommitted := true } .finalizeRollback
      else (s, .pending (.managed { worktree with recordCommitted := true, phase := .spawn }))
  | .mutation .failed | .mutation (.recovered _) =>
    (s.releaseDocument waiterId).submitFinalize waiterId worktree .finalizeRollback
  | _ => (s.releaseDocument waiterId, .finished)

def removalCommitted (result : HostResult) : State × ControlPoll :=
  match result with
  | .mutation (.committed committedRevision _) =>
    if committedRevision ≠ s.revision + 1 then (s.releaseDocument waiterId, .finished)
    else ((s.publishState waiterId committedRevision).releaseDocument waiterId, .finished)
  | _ => (s.releaseDocument waiterId, .finished)

def finalizedRollback (worktree : ManagedWorktree) (result : HostResult) : State × ControlPoll :=
  if result = .managedWorktreeFinalized ∧ worktree.recordCommitted = true ∧
      worktree.createdWorktree = true then
    submitChangePrepare .removal s waiterId worktree false
  else (s, .finished)

/-- `poll_spawn` and the handoff behind it. -/
def pollSpawn (worktree : ManagedWorktree) (turn : Turn) : State × ControlPoll :=
  match turn.spawn with
  | .pending => (s, .pending (.managed worktree))
  | .handoff => (s, .pending (.managed { worktree with phase := .handoff }))
  | .commit => s.submitFinalize waiterId worktree .finalizeCommit
  | .rollback => s.submitFinalize waiterId worktree .finalizeRollback
  | .finish => (s, .finished)

def managedCompleted (worktree : ManagedWorktree)
    (result : HostResult) (turn : Turn) : State × ControlPoll :=
  match worktree.phase with
  | .create => s.created waiterId worktree result turn
  | .prepareRecord => s.recordPrepared waiterId worktree result turn
  | .commitRecord => s.recordCommitted waiterId worktree result turn
  | .finalizeRollback => s.finalizedRollback waiterId worktree result
  | .prepareRemoval => s.removalPrepared waiterId worktree result turn
  | .commitRemoval => s.removalCommitted waiterId result
  | .finalizeCommit | .parkRecord _ | .parkRemoval _ | .spawn | .handoff => (s, .finished)

/-- `ManagedSpawnOperation::poll_inner`. -/
def pollManaged (worktree : ManagedWorktree) (turn : Turn) : State × ControlPoll :=
  match worktree.phase with
  | .parkRecord baseRevision => admitChange .record s waiterId worktree baseRevision true turn
  | .parkRemoval baseRevision => admitChange .removal s waiterId worktree baseRevision true turn
  | .spawn | .handoff => s.pollSpawn waiterId worktree turn
  | _ =>
    match s.hostCompletions.lookup waiterId with
    | none => (s, .pending (.managed worktree))
    | some result =>
      (s.takeCompletion waiterId).managedCompleted waiterId worktree result turn

def pollContinuation (continuation : Continuation) (turn : Turn) : State × ControlPoll :=
  match continuation with
  | .host mutation => s.pollHost waiterId mutation turn
  | .managed worktree => s.pollManaged waiterId worktree turn

def keep : ControlPoll → State
  | .pending continuation =>
    { s with pendingRequests := s.pendingRequests.insert waiterId continuation }
  | .again continuation =>
    { s with pendingRequests := s.pendingRequests.insert waiterId continuation }.markOwnerReady
      waiterId
  | .finished => s

/-- One row is served. The continuation runs outside the map, and only for a completion reason. -/
def poll (turn : Turn) : State :=
  let served : State := { s with ready := s.ready.erase waiterId, late := s.late.erase waiterId }
  match s.pendingRequests.lookup waiterId with
  | none => served
  | some continuation =>
    if waiterId ∈ s.ready then
      let (s, answer) := ({ served with pendingRequests := served.pendingRequests.erase waiterId } :
        State).pollContinuation waiterId continuation turn
      s.keep waiterId answer
    else served

def start (command : HostCommand) (continuation : Continuation) : State :=
  (({ s with
    nextWaiter := s.nextWaiter + 1
    pendingRequests := s.pendingRequests.insert s.nextWaiter continuation } : State).submitPhase
      s.nextWaiter command).markOwnerReady s.nextWaiter

def hostDone (result : HostResult) : State :=
  match s.jobs.lookup waiterId with
  | none => s
  | some command =>
    if command.answers result then
      ({ s with
        jobs := s.jobs.erase waiterId
        hostCompletions := s.hostCompletions.insert waiterId result } : State).markOwnerReady
          waiterId
    else s

/-- Core, family and repository work wakes mutations that are not parked. -/
def wake : State :=
  match s.pendingRequests.lookup waiterId with
  | none => s
  | some continuation => if continuation.parked then s else s.markOwnerReady waiterId

def step : Step → State
  | .startHost => s.start .prepare (.host (.running false))
  | .startManaged => s.start .createManagedWorktree (.managed ⟨.create, false, false, false⟩)
  | .startRollback createdWorktree =>
    s.start .finalizeManagedWorktree (.managed ⟨.finalizeRollback, true, createdWorktree, false⟩)
  | .hostDone waiterId result => s.hostDone waiterId result
  | .wake waiterId => s.wake waiterId
  | .deadline waiterId =>
    if (s.pendingRequests.lookup waiterId).isSome then { s with late := insert waiterId s.late }
    else s
  | .poll waiterId turn => s.poll waiterId turn

def run (steps : List Step) : State := steps.foldl step s

end State

end BotsterHub.Document
