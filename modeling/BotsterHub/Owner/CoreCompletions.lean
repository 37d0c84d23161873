import BotsterHub.Lib.Machine
import BotsterHub.Owner.TicketContract

/-!
How a collected Core completion reaches the request or the obligation that waits for it.

The registry numbers the phases of a waiter; the owner keeps the last phase it accepted and marks
the waiter ready only for the one it expects. Which continuations run is left open, but one that
returns pending has polled a pending ticket.
-/

namespace BotsterHub.Owner

/-- A `PendingControlRequest` or, with `obligation`, a `CleanupObligation`. `spawn`: a spawn
continuation. `ready`: queued with a reason that polls it. `deadlineReady`: queued for its deadline.
`deadline`: armed. `awaiting`: the ticket it returned pending on. -/
structure Waiter where
  obligation : Bool
  mustFinish : Bool
  spawn : Bool
  lastCorePhase : ℕ
  ready : Bool
  deadlineReady : Bool
  deadline : Bool
  awaiting : Option Identity
deriving DecidableEq

namespace Waiter

def request (mustFinish spawn : Bool) : Waiter :=
  ⟨false, mustFinish, spawn, 0, true, false, true, none⟩

/-- `retain_owner_obligation`. -/
def retained : Waiter := ⟨true, true, false, 0, true, false, true, none⟩

variable (waiter : Waiter)

/-- A spawn continuation takes every later phase. -/
def later : Bool := waiter.spawn && !waiter.obligation

/-- The test in `absorb_core_completions` and `absorb_obligation_core_completion`. -/
def accepts (phase : ℕ) : Bool :=
  if waiter.later then waiter.lastCorePhase < phase else waiter.lastCorePhase + 1 = phase

def absorb (phase : ℕ) : Waiter :=
  if waiter.accepts phase then { waiter with lastCorePhase := phase, ready := true } else waiter

/-- `mark_due_owner_deadlines`: a deadline polls an obligation, and only flags a request. -/
def markDeadline : Waiter :=
  if waiter.deadline then
    if waiter.obligation then { waiter with deadline := false, ready := true }
    else { waiter with deadline := false, deadlineReady := true }
  else waiter

end Waiter

inductive Operation where
  /-- `submit_for_owner`. -/
  | submit
  /-- `begin_for_owner`: the begin and the completion phase. -/
  | begin
deriving DecidableEq

def Operation.phaseCount : Operation → ℕ
  | .submit => 1
  | .begin => 2

structure OwnerCore (α : Type*) where
  tickets : Tickets α
  waiters : Dict ℕ Waiter

inductive Turn (α : Type*) where
  | trySend (identity : Identity) (value : α)
  | publishSent (identity : Identity)
  | dropSender (identity : Identity)
  | publishDropped (identity : Identity)
  | failBegin (identity : Identity)
  | request (waiterId : ℕ) (mustFinish spawn : Bool)
  | retain (waiterId : ℕ)
  | take
  | absorb (charged : Bool)
  | start (waiterId : ℕ) (operation : Operation) (admitted : Bool)
  | read (identity : Identity)
  | wait (identity : Identity)
  | again (waiterId : ℕ)
  | mark (waiterId : ℕ)
  | finish (waiterId : ℕ)
  | deadline (waiterId : ℕ)
  | lapse (waiterId : ℕ)
  | handOver (waiterId : ℕ)

namespace OwnerCore

variable {α : Type*}

def new : OwnerCore α := ⟨.new, ∅⟩

def Least (tickets : Tickets α) (identity : Identity) : Prop :=
  ∀ other ∈ tickets.wake.registered, other.waiterId = identity.waiterId →
    identity.phase ≤ other.phase

instance (tickets : Tickets α) (identity : Identity) : Decidable (Least tickets identity) :=
  inferInstanceAs (Decidable (∀ _ ∈ _, _))

variable (s : OwnerCore α)

variable (waiterId : ℕ)

def addWaiter (waiter : Waiter) : OwnerCore α :=
  if waiterId ∈ s.tickets.gone ∨ (s.waiters.lookup waiterId).isSome then s
  else { s with waiters := s.waiters.insert waiterId waiter }

def change (act : Waiter → Waiter) : OwnerCore α :=
  match s.waiters.lookup waiterId with
  | none => s
  | some waiter => { s with waiters := s.waiters.insert waiterId (act waiter) }

def runs : Bool := (s.waiters.lookup waiterId).any Waiter.ready

/-- `absorb_core_completions` on one identity, which without charge is given back. -/
def absorb (s : OwnerCore α) (charged : Bool) : OwnerCore α :=
  let taken := s.tickets.step (.takeIdentities 1)
  let tickets := taken.step (.restoreIdentities (if charged then 1 else 0))
  match taken.batch with
  | some (identity :: _) =>
    if charged then
      { s with tickets := tickets }.change identity.waiterId (·.absorb identity.phase)
    else { s with tickets := tickets }
  | _ => { s with tickets := tickets }

/-- `submit_for_owner` and `begin_for_owner`. Phases that Core does not admit are retired. -/
def start (operation : Operation) (admitted : Bool) : OwnerCore α :=
  if s.runs waiterId then
    match s.tickets.wake.registerPhases waiterId operation.phaseCount with
    | none => s
    | some (identities, _) =>
      let tickets := s.tickets.step (.registerPhases waiterId operation.phaseCount)
      if admitted then { s with tickets := tickets }
      else
        { s with
          tickets := identities.foldl (fun tickets identity => tickets.step (.retire identity))
            tickets }
  else s

def Waits (identity : Identity) : Prop :=
  s.runs identity.waiterId ∧ identity ∉ s.tickets.delivered ∧ Least s.tickets identity ∧
    ∃ channel ∈ s.tickets.channels.lookup identity, channel.ticket = true ∧
      s.tickets.pollAnswer identity channel = .pending

instance [DecidableEq α] (s : OwnerCore α) (identity : Identity) : Decidable (s.Waits identity) :=
  inferInstanceAs (Decidable (_ ∧ _ ∧ _ ∧ _))

def remove : OwnerCore α :=
  { s with tickets := s.tickets.step (.retireWaiter waiterId), waiters := s.waiters.erase waiterId }

def failBegin (s : OwnerCore α) (identity : Identity) : OwnerCore α :=
  if identity.phase ≠ 0 ∧ (s.tickets.operationOf identity).isSome ∧
      s.tickets.operationOf ⟨identity.waiterId, identity.phase - 1⟩ =
        s.tickets.operationOf identity then
    { s with tickets := s.tickets.step (.failBegin identity) }
  else s

/-- Queued for the deadline alone: a request that must finish is flagged, another retired. -/
def lapse : OwnerCore α :=
  match s.waiters.lookup waiterId with
  | none => s
  | some waiter =>
    if waiter.deadlineReady ∧ ¬waiter.ready then
      if waiter.mustFinish then s.change waiterId fun waiter =>
        { waiter with deadlineReady := false }
      else s.remove waiterId
    else s

def step [DecidableEq α] (s : OwnerCore α) : Turn α → OwnerCore α
  | .trySend identity value => { s with tickets := s.tickets.step (.trySend identity value) }
  | .publishSent identity => { s with tickets := s.tickets.step (.publishSent identity) }
  | .dropSender identity => { s with tickets := s.tickets.step (.dropSender identity) }
  | .publishDropped identity => { s with tickets := s.tickets.step (.publishDropped identity) }
  | .failBegin identity => s.failBegin identity
  | .request waiterId mustFinish spawn => s.addWaiter waiterId (.request mustFinish spawn)
  | .retain waiterId => s.addWaiter waiterId .retained
  | .take => { s with tickets := s.tickets.step .take }
  | .absorb charged => s.absorb charged
  | .start waiterId operation admitted => s.start waiterId operation admitted
  | .read identity =>
    if s.runs identity.waiterId then { s with tickets := s.tickets.step (.poll identity) } else s
  | .wait identity =>
    if s.Waits identity then
      s.change identity.waiterId fun waiter =>
        { waiter with ready := false, deadlineReady := false, awaiting := some identity }
    else s
  | .again waiterId => s.change waiterId fun waiter => { waiter with ready := true }
  | .mark waiterId => s.change waiterId fun waiter => { waiter with ready := true }
  | .finish waiterId => if s.runs waiterId then s.remove waiterId else s
  | .deadline waiterId => s.change waiterId Waiter.markDeadline
  | .lapse waiterId => s.lapse waiterId
  | .handOver waiterId =>
    s.change waiterId fun waiter => if waiter.obligation then waiter else .retained

def run [DecidableEq α] (s : OwnerCore α) (turns : List (Turn α)) : OwnerCore α :=
  turns.foldl step s

def Stranded : Prop :=
  ∃ waiter ∈ s.waiters.lookup waiterId, ∃ identity ∈ waiter.awaiting,
    identity ∈ s.tickets.collected ∧ waiter.ready = false ∧ waiter.deadlineReady = false ∧
      waiter.deadline = false ∧ ∀ other ∈ s.tickets.wake.registered, other.waiterId ≠ waiterId

instance (s : OwnerCore α) (waiterId : ℕ) : Decidable (s.Stranded waiterId) :=
  inferInstanceAs (Decidable (∃ _ ∈ _, _))

end OwnerCore

end BotsterHub.Owner
