import BotsterHub.Lib.Scan
import BotsterHub.Owner.CompletionWake
import BotsterHub.Owner.Schedule

/-!
Control requests and cleanup obligations of the owner thread.

A request stays in `pendingRequests` until it is answered, finishes internally or is retired; an
obligation until Core has released what it stands for. Both count with the admitted peers against
one budget. What a continuation returns and does comes with each poll.
-/

namespace BotsterHub.Owner

/-- Milliseconds. -/
def retainedOperationDeadline : ℕ := 30000

inductive Client where
  | connection (number : ℕ)
  | grant (grantId : String)
deriving DecidableEq

def Client.isGrant : Client → Bool
  | .connection _ => false
  | .grant _ => true

/-- Besides dropping the continuation: the Core work moves into an obligation
(`retain_operation_retirement`), or something outside Core is given up. -/
inductive RetireHook where
  | retainOperation
  | abandon
deriving DecidableEq

/-- `replyOwned`: the sender was neither used nor handed to a worker. `spawn`: a spawn continuation.
-/
structure PendingControlRequest where
  readyKey : Option ReadyKey
  deadlineKey : Option ℕ
  lastCorePhase : ℕ
  lastHostPhase : ℕ
  spawn : Bool
  replyOwned : Bool
  receiverClosed : Bool
  client : Option Client
  mustFinish : Bool
  pastDeadline : Bool
  retire : Option RetireHook
deriving DecidableEq

def PendingControlRequest.started (client : Option Client) (mustFinish spawn : Bool)
    (retire : Option RetireHook) : PendingControlRequest :=
  ⟨none, none, 0, 0, spawn, true, false, client, mustFinish, false, retire⟩

namespace PendingControlRequest

variable (entry : PendingControlRequest)

def isReceiverClosed : Bool := entry.replyOwned && entry.receiverClosed

def withoutReply : PendingControlRequest := { entry with replyOwned := false }

def acceptsCore (phase : ℕ) : Bool :=
  if entry.spawn then entry.lastCorePhase < phase else entry.lastCorePhase + 1 = phase

end PendingControlRequest

structure CleanupObligation where
  readyKey : Option ReadyKey
  deadlineKey : Option ℕ
  lastCorePhase : ℕ
  pastDeadline : Bool
deriving DecidableEq

inductive ObligationPoll where
  | pending
  | readyAgain
  | done
deriving DecidableEq

/-- `ready` stands for the three ready answers; with `staleAttach` an exact detach was retained.
`deliverStatusResponse` hands the reply to a worker unless that is refused. -/
inductive ControlPoll where
  | pending
  | again
  | ready (staleAttach : Bool)
  | finishedInternal
  | deliverStatusResponse (submitted : Bool)
  | statusResponseRefused (shutdown : Bool)
  | statusResponseDelivered (shutdown : Bool)
  | preparePluginResponse
  | submitPluginHost
  | deliverSessionType
deriving DecidableEq

/-- A continuation may take the stored Host completion, wake other requests and give up a shutdown.
-/
structure ContinuationTurn where
  takesCompletion : Bool
  wakes : List (ℕ × ReadyClass × ReadyReason)
  clearsShutdown : Bool
  answer : ControlPoll
deriving DecidableEq

inductive RetireReason where
  | replyClosed
  | clientLeft
  | deadline
deriving DecidableEq

inductive Ending where
  | reply
  | status
  | internal
  | retired (reason : RetireReason)
deriving DecidableEq

def Ending.isRetired : Ending → Bool
  | .retired _ => true
  | _ => false

structure Ended where
  waiterId : ℕ
  entry : PendingControlRequest
  ending : Ending
deriving DecidableEq

structure OwnerBudgetCounters where
  refused : ℕ
  retiredAbandoned : ℕ
  requestsPastDeadline : ℕ
  obligationsPastDeadline : ℕ
deriving DecidableEq

structure OwnerBudget where
  bound : ℕ
  admittedPeers : Finset String
  obligations : Dict ℕ CleanupObligation
  counters : OwnerBudgetCounters

/-- The part of `DaemonControlState` for requests and obligations. `halted`: an `expect` failed. The
last four fields are history: requests admitted, how they ended, whose reply was sent or handed on,
whose retire hook ran. -/
structure ControlState where
  nextWaiter : ℕ
  ownerReady : ReadyQueues ReadyReason
  deadlines : DeadlineIndex
  pendingRequests : Dict ℕ PendingControlRequest
  hostCompletions : Dict ℕ ℕ
  budget : OwnerBudget
  shutdownWaiter : Option ℕ
  nextConnection : ℕ
  liveConnections : Finset ℕ
  halted : Bool
  admitted : List ℕ
  ended : List Ended
  handed : List ℕ
  hooks : List ℕ

structure StartedRequest where
  mustFinish : Bool
  spawn : Bool
  retire : Option RetireHook
  readyClass : ReadyClass
  shutdown : Bool
deriving DecidableEq

inductive Step where
  | request (client : Option Client) (peerLive : Bool) (started : Option StartedRequest) (now : ℕ)
  | acceptInternal (spawn : Bool) (readyClass : ReadyClass) (deadline : Option ℕ) (now : ℕ)
  | connect
  | connectionCleanup (number : ℕ) (hasRuntime : Bool) (now : ℕ)
  | hello (grantId : String) (peerLive : Bool)
  | peerClosed (removed : List String) (hasRuntime : Bool) (now : ℕ)
  | bind (serviceable : Bool) (now : ℕ)
  | coreCompletion (waiterId phase : ℕ)
  | hostCompletion (waiterId phase : ℕ)
  | mark (waiterId : ℕ) (readyClass : ReadyClass) (reason : ReadyReason)
  | deadline (waiterId now : ℕ)
  | closeReply (waiterId : ℕ)
  | poll (waiterId : ℕ) (turn : ContinuationTurn) (obligation : ObligationPoll) (now : ℕ)

namespace ControlState

def new : ControlState :=
  { nextWaiter := 0, ownerReady := {}, deadlines := .new, pendingRequests := ∅
    hostCompletions := ∅, budget := ⟨ownerBudgetCapacity, ∅, ∅, ⟨0, 0, 0, 0⟩⟩
    shutdownWaiter := none, nextConnection := 0, liveConnections := ∅, halted := false
    admitted := [], ended := [], handed := [], hooks := [] }

variable (s : ControlState)

def load : ℕ :=
  s.budget.obligations.total (fun _ => 1) + s.budget.admittedPeers.card +
    s.pendingRequests.total (fun _ => 1)

def hasRoom : Bool := s.load < s.budget.bound

/-- `admits_work`: a refusal is counted. -/
def refuse : ControlState := { s with budget.counters.refused := s.budget.counters.refused + 1 }

variable (waiterId : ℕ)

def markOwnerReady (readyClass : ReadyClass) (reason : ReadyReason) : ControlState :=
  match s.pendingRequests.lookup waiterId with
  | none => s
  | some entry =>
    let (key, ownerReady) := s.ownerReady.mark waiterId readyClass {reason}
    { s with
      ownerReady
      pendingRequests := s.pendingRequests.insert waiterId { entry with readyKey := some key } }

def markObligationReady (reason : ReadyReason) : ControlState :=
  match s.budget.obligations.lookup waiterId with
  | none => s
  | some obligation =>
    let (key, ownerReady) := s.ownerReady.mark waiterId .cleanup {reason}
    { s with
      ownerReady
      budget.obligations := s.budget.obligations.insert waiterId
        { obligation with readyKey := some key } }

def wakeShutdownWaiter : ControlState :=
  match s.shutdownWaiter with
  | some waiterId => s.markOwnerReady waiterId .hostCompletion .hostCompletion
  | none => s

def retainOwnerObligation (waiterId now : ℕ) : ControlState :=
  match s.deadlines.arm waiterId (now + retainedOperationDeadline) with
  | none => { s with halted := true }
  | some deadlines =>
    ({ s with
      deadlines
      budget.obligations := s.budget.obligations.insert waiterId
        ⟨none, some (now + retainedOperationDeadline), 0, false⟩ } :
      ControlState).markObligationReady waiterId .initial

/-- `allocate_and_retain_owner_obligation`. -/
def allocateAndRetain (now : ℕ) : ControlState :=
  { s with nextWaiter := s.nextWaiter + 1 }.retainOwnerObligation s.nextWaiter now

/-- `poll_owner_obligation_item`, with the obligation out of the map. -/
def pollOwnerObligationItem (obligation : CleanupObligation)
    (reasons : Finset ReadyReason) (result : ObligationPoll) : ControlState :=
  let late := ReadyReason.deadline ∈ reasons ∧ obligation.pastDeadline = false
  let obligation := if late then { obligation with pastDeadline := true } else obligation
  let s : ControlState :=
    if late then
      { s with
        budget.counters.obligationsPastDeadline := s.budget.counters.obligationsPastDeadline + 1 }
    else s
  match result with
  | .done => { s with deadlines := s.deadlines.retire waiterId }
  | .pending =>
    { s with budget.obligations := s.budget.obligations.insert waiterId obligation }
  | .readyAgain =>
    { s with budget.obligations := s.budget.obligations.insert waiterId obligation }
      |>.markObligationReady waiterId .initial

def conclude (entry : PendingControlRequest) (ending : Ending) :
    ControlState :=
  { s with ended := ⟨waiterId, entry, ending⟩ :: s.ended }

def handReply (entry : PendingControlRequest) : ControlState :=
  if entry.replyOwned then { s with handed := waiterId :: s.handed } else s

def runHook (hook : Option RetireHook) (now : ℕ) :
    ControlState :=
  match hook with
  | none => s
  | some .abandon => { s with hooks := waiterId :: s.hooks }
  | some .retainOperation =>
    { s with hooks := waiterId :: s.hooks }.retainOwnerObligation waiterId now

/-- `retire`, with the request out of the map. -/
def retire (s : ControlState) (waiterId : ℕ) (entry : PendingControlRequest)
    (reason : RetireReason) (now : ℕ) : ControlState :=
  let s : ControlState :=
    { s with
      ownerReady := entry.readyKey.elim s.ownerReady s.ownerReady.remove
      deadlines := s.deadlines.retire waiterId
      hostCompletions := s.hostCompletions.erase waiterId
      budget.counters.retiredAbandoned := s.budget.counters.retiredAbandoned + 1 }
  ((s.conclude waiterId entry (.retired reason)).runHook waiterId entry.retire
    now).wakeShutdownWaiter

/-- `retire_abandoned_requests`: what the client left behind and need not finish. -/
def abandoned (client : Client) : List ℕ :=
  (s.pendingRequests.keysAfter none).filter fun waiterId =>
    (s.pendingRequests.lookup waiterId).any fun entry =>
      entry.client = some client ∧ entry.mustFinish = false

def retireOne (now : ℕ) (s : ControlState) (waiterId : ℕ) : ControlState :=
  match s.pendingRequests.lookup waiterId with
  | none => s
  | some entry =>
    { s with pendingRequests := s.pendingRequests.erase waiterId }.retire
      waiterId entry .clientLeft now

def retireAbandonedRequests (client : Client) (now : ℕ) : ControlState :=
  (s.abandoned client).foldl (retireOne now) s

def runContinuation (turn : ContinuationTurn) : ControlState :=
  let s : ControlState :=
    { s with
      hostCompletions :=
        if turn.takesCompletion then s.hostCompletions.erase waiterId else s.hostCompletions
      shutdownWaiter := if turn.clearsShutdown then none else s.shutdownWaiter }
  turn.wakes.foldl (fun s wake => s.markOwnerReady wake.1 wake.2.1 wake.2.2) s

/-- `flag_past_deadline`. -/
def countPastDeadline (entry : PendingControlRequest) : ControlState :=
  if entry.pastDeadline then s
  else
    { s with budget.counters.requestsPastDeadline := s.budget.counters.requestsPastDeadline + 1 }

def flagPastDeadline (entry : PendingControlRequest) : PendingControlRequest :=
  { entry with pastDeadline := true }

def putBack (entry : PendingControlRequest) : ControlState :=
  { s with pendingRequests := s.pendingRequests.insert waiterId entry }

def putBackReady (entry : PendingControlRequest) (again : Bool) :
    ControlState :=
  if again then (s.putBack waiterId entry).markOwnerReady waiterId .hostCompletion .hostCompletion
  else s.putBack waiterId entry

def keepRequest (entry : PendingControlRequest)
    (reasons : Finset ReadyReason) (again : Bool) (now : ℕ) : ControlState :=
  if ReadyReason.deadline ∈ reasons then
    if entry.mustFinish ∨ entry.replyOwned = false then
      (s.countPastDeadline entry).putBackReady waiterId (flagPastDeadline entry) again
    else s.retire waiterId entry .deadline now
  else s.putBackReady waiterId entry again

def endRequest (entry : PendingControlRequest)
    (reasons : Finset ReadyReason) (ending : Ending) : ControlState :=
  let late := ReadyReason.deadline ∈ reasons ∧ entry.mustFinish = true
  let s := if late then s.countPastDeadline entry else s
  let s : ControlState := { s with deadlines := s.deadlines.retire waiterId }
  s.conclude waiterId entry ending

/-- The shutdown is over once its status response is delivered or refused. -/
def finishStatusDelivery (shutdown : Bool) : ControlState :=
  if shutdown then { s with shutdownWaiter := none } else s.wakeShutdownWaiter

/-- `poll_ready_request_item` after the continuation ran. -/
def applyPoll (entry : PendingControlRequest)
    (reasons : Finset ReadyReason) (answer : ControlPoll) (now : ℕ) : ControlState :=
  match answer with
  | .pending | .submitPluginHost => s.keepRequest waiterId entry reasons false now
  | .again => s.keepRequest waiterId entry reasons true now
  | .ready staleAttach =>
    let s := if staleAttach then s.allocateAndRetain now else s
    let s : ControlState := { s with hostCompletions := s.hostCompletions.erase waiterId }
    ((s.handReply waiterId entry).endRequest waiterId entry.withoutReply reasons
      .reply).wakeShutdownWaiter
  | .finishedInternal =>
    let s : ControlState := { s with hostCompletions := s.hostCompletions.erase waiterId }
    (s.endRequest waiterId entry ∅ .internal).wakeShutdownWaiter
  | .deliverStatusResponse submitted =>
    if submitted then
      (s.handReply waiterId entry).keepRequest waiterId entry.withoutReply reasons false now
    else s.keepRequest waiterId entry reasons true now
  | .statusResponseRefused shutdown =>
    ((s.handReply waiterId entry).endRequest waiterId entry.withoutReply reasons
      .status).finishStatusDelivery shutdown
  | .statusResponseDelivered shutdown =>
    (s.endRequest waiterId entry reasons .status).finishStatusDelivery shutdown
  | .preparePluginResponse | .deliverSessionType =>
    (s.handReply waiterId entry).keepRequest waiterId entry.withoutReply reasons false now

/-- `poll_ready_request_item`, with the request out of the map. -/
def pollReadyRequestItem (entry : PendingControlRequest)
    (reasons : Finset ReadyReason) (turn : ContinuationTurn) (now : ℕ) : ControlState :=
  if entry.mustFinish = false ∧ entry.isReceiverClosed = true then
    s.retire waiterId entry .replyClosed now
  else if reasons ⊆ {.deadline} then s.keepRequest waiterId entry reasons false now
  else (s.runContinuation waiterId turn).applyPoll waiterId entry reasons turn.answer now

def poll (turn : ContinuationTurn) (obligation : ObligationPoll) (now : ℕ) : ControlState :=
  match s.ownerReady.queued.lookup waiterId with
  | none => s
  | some row =>
    let s : ControlState := { s with ownerReady := s.ownerReady.pop waiterId }
    match s.pendingRequests.lookup waiterId with
    | some entry =>
      { s with pendingRequests := s.pendingRequests.erase waiterId }.pollReadyRequestItem waiterId
        { entry with readyKey := none } row.reasons turn now
    | none =>
      match s.budget.obligations.lookup waiterId with
      | some retained =>
        { s with budget.obligations := s.budget.obligations.erase waiterId }.pollOwnerObligationItem
          waiterId { retained with readyKey := none } row.reasons obligation
      | none => s

def insertRequest (entry : PendingControlRequest)
    (deadline : Option ℕ) (readyClass : ReadyClass) (now : ℕ) : ControlState :=
  let s : ControlState :=
    { s with
      pendingRequests := s.pendingRequests.insert waiterId { entry with deadlineKey := deadline }
      admitted := waiterId :: s.admitted }
  match deadline with
  | none => s.markOwnerReady waiterId readyClass .initial
  | some instant =>
    match s.deadlines.arm waiterId instant with
    | none => { s with halted := true }
    | some deadlines =>
      let s := { s with deadlines }.markOwnerReady waiterId readyClass .initial
      if instant ≤ now then s.markOwnerReady waiterId .deadline .deadline else s

/-- `handle_as`. `started` is none when the handler answers at once. -/
def handleAs (client : Option Client) (peerLive : Bool)
    (started : Option StartedRequest) (now : ℕ) : ControlState :=
  if s.shutdownWaiter.isSome then s
  else if client.any Client.isGrant = true ∧ peerLive = false then s
  else if s.hasRoom = false then s.refuse
  else
    let waiterId := s.nextWaiter
    let s : ControlState := { s with nextWaiter := s.nextWaiter + 1 }
    match started with
    | none => s
    | some started =>
      let s : ControlState :=
        if started.shutdown then { s with shutdownWaiter := some waiterId } else s
      s.insertRequest waiterId (.started client started.mustFinish started.spawn started.retire)
        (some (now + retainedOperationDeadline)) started.readyClass now

/-- The work the hub accepts from its own queues: coordination calls, spawns, rollbacks. -/
def acceptInternal (spawn : Bool) (readyClass : ReadyClass)
    (deadline : Option ℕ) (now : ℕ) : ControlState :=
  if s.hasRoom = false then s.refuse
  else
    { s with nextWaiter := s.nextWaiter + 1 }.insertRequest s.nextWaiter
      (.started none true spawn none) deadline readyClass now

def connect : ControlState :=
  if s.hasRoom = false then s.refuse
  else
    { s with
      nextConnection := s.nextConnection + 1
      liveConnections := insert s.nextConnection s.liveConnections }

def connectionCleanup (number : ℕ) (hasRuntime : Bool) (now : ℕ) :
    ControlState :=
  let s : ControlState := { s with liveConnections := s.liveConnections.erase number }
  let s := s.retireAbandonedRequests (.connection number) now
  if hasRuntime then s.allocateAndRetain now else s

def admitPeer (grantId : String) : ControlState :=
  if s.hasRoom = false then s.refuse
  else { s with budget.admittedPeers := insert grantId s.budget.admittedPeers }

/-- `release_peer`. -/
def withoutPeer (grantId : String) : ControlState :=
  { s with budget.admittedPeers := s.budget.admittedPeers.erase grantId }

/-- One departed peer: its admission is released before its cleanup is retained. -/
def releasePeer (hasRuntime : Bool) (now : ℕ) (s : ControlState) (grantId : String) :
    ControlState :=
  if grantId ∈ s.budget.admittedPeers then
    if hasRuntime then (s.withoutPeer grantId).allocateAndRetain now else s.withoutPeer grantId
  else s

def peerClosed (removed : List String) (hasRuntime : Bool) (now : ℕ) :
    ControlState :=
  let cleaning := removed.filter (· ∈ s.budget.admittedPeers)
  let s := removed.foldl (fun s grantId => s.retireAbandonedRequests (.grant grantId) now) s
  cleaning.foldl (releasePeer hasRuntime now) s

/-- `bind_reserved_subscription`, up to the obligation it leaves. -/
def bind (serviceable : Bool) (now : ℕ) : ControlState :=
  if serviceable = false then s
  else if s.hasRoom = false then s.refuse
  else s.allocateAndRetain now

/-- `absorb_core_completions` on one identity. -/
def absorbCoreCompletion (waiterId phase : ℕ) : ControlState :=
  match s.pendingRequests.lookup waiterId with
  | some entry =>
    if entry.acceptsCore phase then
      ({ s with
        pendingRequests := s.pendingRequests.insert waiterId
          { entry with lastCorePhase := phase } } : ControlState).markOwnerReady waiterId
            .coreCompletion .coreCompletion
    else s
  | none =>
    match s.budget.obligations.lookup waiterId with
    | none => s
    | some obligation =>
      if obligation.lastCorePhase + 1 = phase then
        ({ s with
          budget.obligations := s.budget.obligations.insert waiterId
            { obligation with lastCorePhase := phase } } : ControlState).markObligationReady
              waiterId .coreCompletion
      else s

def absorbHostCompletion (waiterId phase : ℕ) : ControlState :=
  match s.pendingRequests.lookup waiterId with
  | none => s
  | some entry =>
    if phase = entry.lastHostPhase + 1 ∧ s.hostCompletions.lookup waiterId = none then
      ({ s with
        pendingRequests := s.pendingRequests.insert waiterId { entry with lastHostPhase := phase }
        hostCompletions := s.hostCompletions.insert waiterId phase } :
        ControlState).markOwnerReady waiterId .hostCompletion .hostCompletion
    else s

/-- `mark_due_owner_deadlines` on one due waiter. -/
def markDueOwnerDeadline (waiterId now : ℕ) : ControlState :=
  match s.deadlines.popDue waiterId now with
  | none => s
  | some deadlines =>
    let s : ControlState := { s with deadlines }
    match s.pendingRequests.lookup waiterId with
    | some entry =>
      ({ s with
        pendingRequests := s.pendingRequests.insert waiterId
          { entry with deadlineKey := none } } : ControlState).markOwnerReady waiterId
            .deadline .deadline
    | none =>
      match s.budget.obligations.lookup waiterId with
      | some obligation =>
        ({ s with
          budget.obligations := s.budget.obligations.insert waiterId
            { obligation with deadlineKey := none } } : ControlState).markObligationReady
              waiterId .deadline
      | none => s

def closeReply : ControlState :=
  match s.pendingRequests.lookup waiterId with
  | none => s
  | some entry =>
    { s with
      pendingRequests := s.pendingRequests.insert waiterId { entry with receiverClosed := true } }

def act : Step → ControlState
  | .request client peerLive started now => s.handleAs client peerLive started now
  | .acceptInternal spawn readyClass deadline now => s.acceptInternal spawn readyClass deadline now
  | .connect => s.connect
  | .connectionCleanup number hasRuntime now =>
    if number ∈ s.liveConnections then s.connectionCleanup number hasRuntime now else s
  | .hello grantId peerLive => if peerLive then s.admitPeer grantId else s
  | .peerClosed removed hasRuntime now => s.peerClosed removed hasRuntime now
  | .bind serviceable now => s.bind serviceable now
  | .coreCompletion waiterId phase => s.absorbCoreCompletion waiterId phase
  | .hostCompletion waiterId phase => s.absorbHostCompletion waiterId phase
  | .mark waiterId readyClass reason => s.markOwnerReady waiterId readyClass reason
  | .deadline waiterId now => s.markDueOwnerDeadline waiterId now
  | .closeReply waiterId => s.closeReply waiterId
  | .poll waiterId turn obligation now => s.poll waiterId turn obligation now

def step (s : ControlState) (step : Step) : ControlState := if s.halted then s else s.act step

def run (steps : List Step) : ControlState := steps.foldl step s

end ControlState

end BotsterHub.Owner
