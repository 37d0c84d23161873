import BotsterHub.Lib.Dict

/-!
The mailboxes of the package-event subscriptions of one connection. All draw on its event and byte
residency, and each push leaves room for what its siblings have not used of their reserves. A step
is one critical section; a contended lock is an input. Mailboxes are numbered in the order of
their subscriptions.
-/

namespace BotsterHub.Subscription

def maxSubscriptionsPerConnection : ℕ := 64

def connectionEventMax : ℕ := 128

def connectionByteMax : ℕ := 2 * 1024 * 1024

def subscriptionEventReserve : ℕ := 4

def subscriptionByteReserve : ℕ := 65536

structure QueuedClientEvent where
  serial : ℕ
  size : ℕ
  deriving DecidableEq

/-- What happened to the events of a subscription, for its reader. -/
inductive Note where
  | delivered (serial : ℕ)
  | dropped (serial : ℕ)
  | gap
  deriving DecidableEq

/-- Where the reader is in `take_ready_event`. -/
inductive Reader where
  | idle
  /-- It found no gap. -/
  | checked
  | aged
  deriving DecidableEq

structure ClientEventMailbox where
  subscriptionId : ℕ
  eventMax : ℕ
  byteMax : ℕ
  events : List QueuedClientEvent := []
  bytes : ℕ := 0
  retired : Bool := false
  gap : Bool := false
  reclaimed : Bool := false
  reader : Reader := .idle
  pushed : ℕ := 0
  trace : List Note := []
  deriving DecidableEq

structure ClientEventConnection where
  closing : Bool := false
  slots : Dict ℕ ℕ := ∅
  mailboxes : Dict ℕ ClientEventMailbox := ∅
  nextMailbox : ℕ := 0
  /-- The pool: the residency of the connection and of each subscription. -/
  events : ℕ := 0
  bytes : ℕ := 0
  subscriptions : Dict ℕ (ℕ × ℕ) := ∅

namespace ClientEventConnection

variable (s : ClientEventConnection)

def setMailbox (n : ℕ) (m : ClientEventMailbox) :
    ClientEventConnection :=
  { s with mailboxes := s.mailboxes.insert n m }

def setResidency (id : ℕ) (f : ℕ × ℕ → ℕ × ℕ) : Dict ℕ (ℕ × ℕ) :=
  match s.subscriptions.lookup id with
  | some residency => s.subscriptions.insert id (f residency)
  | none => s.subscriptions

/-- What the siblings of `id` have not used of their reserves. -/
def protectedEvents (id : ℕ) : ℕ :=
  (s.subscriptions.erase id).total fun residency => subscriptionEventReserve - residency.1

def protectedBytes (id : ℕ) : ℕ :=
  (s.subscriptions.erase id).total fun residency => subscriptionByteReserve - residency.2

def connectionFull (id size : ℕ) : Prop :=
  connectionEventMax - s.protectedEvents id < s.events + 1 ∨
    connectionByteMax - s.protectedBytes id < s.bytes + size

def Accepts (m : ClientEventMailbox) (size : ℕ) : Prop :=
  s.closing = false ∧ m.retired = false ∧ ¬s.connectionFull m.subscriptionId size ∧
    m.events.length + 1 ≤ m.eventMax ∧ m.bytes + size ≤ m.byteMax

instance (s : ClientEventConnection) (m : ClientEventMailbox) (size : ℕ) :
    Decidable (s.Accepts m size) :=
  inferInstanceAs (Decidable (_ ∧ _ ∧ ¬(_ ∨ _) ∧ _ ∧ _))

variable (m : ClientEventMailbox)

/-- The refusal of a push: the router sets the bit that it keeps with the holder. -/
def refuse : ClientEventMailbox :=
  { m with gap := true, pushed := m.pushed + 1, trace := m.trace ++ [.dropped m.pushed] }

def enqueue (size : ℕ) : ClientEventMailbox :=
  { m with
    events := m.events ++ [⟨m.pushed, size⟩]
    bytes := m.bytes + size
    pushed := m.pushed + 1 }

def tryPush (n : ℕ) (m : ClientEventMailbox) (size : ℕ) (busy : Bool) : ClientEventConnection :=
  if busy = false ∧ s.Accepts m size then
    { s.setMailbox n (enqueue m size) with
      events := s.events + 1
      bytes := s.bytes + size
      subscriptions := s.setResidency m.subscriptionId fun r => (r.1 + 1, r.2 + size) }
  else s.setMailbox n (refuse m)

/-- The first part of `take_ready_event`: a contended slot lock reads as no gap. -/
def takeGap (contended : Bool) : ClientEventMailbox :=
  if m.gap = true ∧ contended = false then { m with gap := false, trace := m.trace ++ [.gap] }
  else { m with reader := .checked }

/-- The event is delivered, or dropped if it is too old. -/
def dequeue (queued : QueuedClientEvent) (rest : List QueuedClientEvent)
    (aged : Bool) : ClientEventMailbox :=
  { m with
    events := rest
    bytes := m.bytes - queued.size
    reader := if aged then .aged else .idle
    trace := m.trace ++ [if aged then .dropped queued.serial else .delivered queued.serial] }

def pop (n : ℕ) (m : ClientEventMailbox) (busy aged : Bool) :
    ClientEventConnection :=
  match busy, m.events with
  | false, queued :: rest =>
    { s.setMailbox n (dequeue m queued rest aged) with
      events := s.events - 1
      bytes := s.bytes - queued.size
      subscriptions := s.setResidency m.subscriptionId fun r => (r.1 - 1, r.2 - queued.size) }
  | _, _ => s.setMailbox n { m with reader := .idle }

def reclaim (n : ℕ) (m : ClientEventMailbox) : ClientEventConnection :=
  { s.setMailbox n
      { m with retired := true, events := [], bytes := 0, gap := false, reclaimed := true } with
    events := s.events - m.events.length
    bytes := s.bytes - m.bytes
    subscriptions := s.subscriptions.erase m.subscriptionId }

def subscribeMailbox (id eventMax byteMax : ℕ) :
    ClientEventConnection :=
  if s.closing = true ∨ (s.slots.lookup id).isSome ∨
      maxSubscriptionsPerConnection ≤ s.slots.entries.length ∨
      connectionEventMax - subscriptionEventReserve < s.events ∨
      connectionByteMax - subscriptionByteReserve < s.bytes then s
  else
    { s with
      slots := s.slots.insert id s.nextMailbox
      mailboxes := s.mailboxes.insert s.nextMailbox { subscriptionId := id, eventMax, byteMax }
      nextMailbox := s.nextMailbox + 1
      subscriptions := s.subscriptions.insert id (0, 0) }

/-- The steps of one mailbox. The cleanup worker reclaims, then frees the slot; there is one worker.
-/
inductive MailboxStep where
  | push (size : ℕ) (busy : Bool)
  | takeGap (contended : Bool)
  | pop (busy aged : Bool)
  | markAged (contended : Bool)
  | retire
  | reclaim
  | removeSlot

inductive Step where
  | subscribe (id eventMax byteMax : ℕ)
  | close
  | mailbox (n : ℕ) (step : MailboxStep)

def mailboxStep (n : ℕ) (m : ClientEventMailbox) : MailboxStep → ClientEventConnection
  | .push size busy => s.tryPush n m size busy
  | .takeGap contended =>
    if m.reader = .idle ∧ m.retired = false ∧ s.closing = false then
      s.setMailbox n (takeGap m contended)
    else s
  | .pop busy aged => if m.reader = .checked then s.pop n m busy aged else s
  | .markAged contended =>
    if m.reader = .aged then s.setMailbox n { m with gap := m.gap || !contended, reader := .idle }
    else s
  | .retire => s.setMailbox n { m with retired := true }
  | .reclaim =>
    if s.slots.lookup m.subscriptionId = some n ∧ m.reclaimed = false ∧
        (s.closing = true ∨ m.retired = true) then s.reclaim n m
    else s
  | .removeSlot =>
    if s.slots.lookup m.subscriptionId = some n ∧ m.reclaimed = true then
      { s with slots := s.slots.erase m.subscriptionId }
    else s

def step (s : ClientEventConnection) : Step → ClientEventConnection
  | .subscribe id eventMax byteMax => s.subscribeMailbox id eventMax byteMax
  | .close => { s with closing := true }
  | .mailbox n step =>
    match s.mailboxes.lookup n with
    | some m => s.mailboxStep n m step
    | none => s

def run (steps : List Step) : ClientEventConnection := steps.foldl step {}

end ClientEventConnection

end BotsterHub.Subscription
