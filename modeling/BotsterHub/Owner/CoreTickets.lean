import BotsterHub.Owner.CompletionWake

/-!
Tickets of Core operations.

Every registered phase has a channel of one place between the Core thread and the owner. A
publisher writes the channel, the registry and the pending bit in this order, the owner reads them
in the opposite one, and each access is a step.
-/

namespace BotsterHub.Owner

open CompletionWake

/-- Where a `CoreTicketPublisher` is in `publish` and in its `drop`. -/
inductive Publisher where
  /-- Holds the sender and has sent nothing. -/
  | live
  /-- Has sent the result; its identity is not published. -/
  | sent
  /-- Is behind `publish` and still holds the sender. -/
  | published
  /-- Has closed the channel; the lost result is not published. -/
  | dropped
  | done
deriving DecidableEq

def Publisher.holdsSender : Publisher → Bool
  | .live | .sent | .published => true
  | .dropped | .done => false

/-- The channel of one phase. `operation` numbers the registration it belongs to. -/
structure Channel (α : Type*) where
  operation : ℕ
  publisher : Publisher
  slot : Option (Identity × α)
  ticket : Bool
deriving DecidableEq

/-- `CoreTicketPoll` of a queued ticket. -/
inductive TicketPoll (α : Type*) where
  | ready (value : α)
  | pending
  | lost
deriving DecidableEq

/-- The registry, the channels and the owner's drain. `taking`: it has taken the notification and
not yet the identities. `batch`: identities taken and not given back. The rest is history:
operations registered, waiters and identities retired, identities collected and delivered. -/
structure Tickets (α : Type*) where
  wake : CompletionWake
  channels : Dict Identity (Channel α)
  taking : Bool
  batch : Option (List Identity)
  operations : ℕ
  gone : Finset ℕ
  retired : Finset Identity
  collected : Finset Identity
  delivered : List Identity

inductive Access (α : Type*) where
  | registerPhases (waiterId phaseCount : ℕ)
  | retire (identity : Identity)
  | retireWaiter (waiterId : ℕ)
  | collectReady (identity : Identity)
  | takeTerminalIdentity (waiterId : ℕ)
  | take
  | takeIdentities (limit : ℕ)
  | restoreIdentities (consumed : ℕ)
  | poll (identity : Identity)
  | dropTicket (identity : Identity)
  | trySend (identity : Identity) (value : α)
  | publishSent (identity : Identity)
  | dropSender (identity : Identity)
  | publishDropped (identity : Identity)
  | failBegin (identity : Identity)

namespace Tickets

variable {α : Type*}

def new : Tickets α := ⟨.new, ∅, false, none, 0, ∅, ∅, ∅, []⟩

variable (s : Tickets α)

def held : Finset Identity := (s.batch.getD []).toFinset

def outstanding : Finset Identity := s.wake.registered ∪ s.held

variable (identity : Identity)

def operationOf : Option ℕ :=
  (s.channels.lookup identity).map Channel.operation

/-- `register_phases` and the channels of the phases. A waiter id is not used again. -/
def registerPhases (s : Tickets α) (waiterId phaseCount : ℕ) : Tickets α :=
  if waiterId ∈ s.gone then s
  else
    match s.wake.registerPhases waiterId phaseCount with
    | none => s
    | some (identities, wake) =>
      { s with
        wake := wake
        operations := s.operations + 1
        channels := identities.foldl
          (fun channels identity => channels.insert identity ⟨s.operations, .live, none, true⟩)
          s.channels }

def pollAnswer (channel : Channel α) : TicketPoll α :=
  if s.wake.awaitsCollection identity then .pending
  else
    match channel.slot with
    | some (sender, value) => if sender = identity then .ready value else .pending
    | none => if channel.publisher.holdsSender then .pending else .lost

/-- `CoreTicket::poll`: a result that is received leaves the channel. -/
def poll : Tickets α :=
  match s.channels.lookup identity with
  | none => s
  | some channel =>
    if ¬channel.ticket ∨ s.wake.awaitsCollection identity then s
    else
      { s with
        channels := s.channels.insert identity { channel with slot := none }
        delivered :=
          match s.pollAnswer identity channel with
          | .ready _ => identity :: s.delivered
          | _ => s.delivered }

def publisherStep (allowed : Publisher → Bool)
    (act : Channel α → Channel α) (wake : CompletionWake → CompletionWake) : Tickets α :=
  match s.channels.lookup identity with
  | none => s
  | some channel =>
    if allowed channel.publisher then
      { s with wake := wake s.wake, channels := s.channels.insert identity (act channel) }
    else s

/-- `try_send`: it fails when the ticket is gone, and then nothing is published. -/
def trySend (value : α) : Tickets α :=
  s.publisherStep identity (· = .live) (fun channel =>
      if channel.ticket then { channel with publisher := .sent, slot := some (identity, value) }
      else { channel with publisher := .published })
    id

def publishSent : Tickets α :=
  s.publisherStep identity (· = .sent) (fun channel => { channel with publisher := .published })
    (·.publish identity)

/-- `drop(self.sender.take())`, behind `publish` or without it. -/
def dropSender : Tickets α :=
  s.publisherStep identity (fun publisher => publisher = .live ∨ publisher = .published)
    (fun channel => { channel with publisher := .dropped }) id

def publishDropped : Tickets α :=
  s.publisherStep identity (· = .dropped) (fun channel => { channel with publisher := .done })
    (·.publish identity)

def failBegin : Tickets α :=
  match s.channels.lookup identity with
  | none => s
  | some channel =>
    if channel.publisher = .live then
      { s with wake := (s.wake.retire identity).2, retired := insert identity s.retired }
    else s

def dropTicket : Tickets α :=
  match s.channels.lookup identity with
  | none => s
  | some channel =>
    { s with channels := s.channels.insert identity { channel with ticket := false, slot := none } }

def ownerStep : Access α → Tickets α
  | .registerPhases waiterId phaseCount => s.registerPhases waiterId phaseCount
  | .retire identity =>
    if (s.channels.lookup identity).isSome then
      { s with wake := (s.wake.retire identity).2, retired := insert identity s.retired }
    else s
  | .retireWaiter waiterId =>
    { s with
      wake := (s.wake.retireWaiter waiterId).2
      gone := insert waiterId s.gone
      retired := s.retired ∪
        s.wake.registered.filter fun identity => identity.waiterId = waiterId }
  | .collectReady identity =>
    match s.wake.collectReady identity with
    | (true, wake) => { s with wake := wake, collected := insert identity s.collected }
    | (false, _) => s
  | .takeTerminalIdentity waiterId =>
    match s.wake.takeTerminalIdentity waiterId with
    | (some identity, wake) => { s with wake := wake, collected := insert identity s.collected }
    | (none, _) => s
  | .take => { s with wake := s.wake.take.2, taking := s.taking || s.wake.take.1 }
  | .takeIdentities limit =>
    { s with
      wake := (s.wake.takeIdentities limit).2
      taking := false
      batch := some (s.wake.takeIdentities limit).1 }
  | .poll identity => s.poll identity
  | .dropTicket identity => s.dropTicket identity
  | _ => s

def restoreIdentities (s : Tickets α) (consumed : ℕ) : Tickets α :=
  match s.batch with
  | none => s
  | some identities =>
    { s with
      wake := s.wake.restoreIdentities (identities.drop consumed)
      batch := none
      collected := s.collected ∪ (identities.take consumed).toFinset }

/-- One access. The owner is one thread: until it gives a batch back it does nothing else. -/
def step : Access α → Tickets α
  | .trySend identity value => s.trySend identity value
  | .publishSent identity => s.publishSent identity
  | .dropSender identity => s.dropSender identity
  | .publishDropped identity => s.publishDropped identity
  | .failBegin identity => s.failBegin identity
  | .restoreIdentities consumed => s.restoreIdentities consumed
  | access => if s.batch.isSome then s else s.ownerStep access

def run (accesses : List (Access α)) : Tickets α := accesses.foldl step s

end Tickets

end BotsterHub.Owner
