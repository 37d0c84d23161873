import BotsterHub.Client.Frames
import Mathlib.Data.Nat.Digits.Defs

/-!
The multiplexed connection of a client.

Requests are answered in any order, with events and entity frames in between. What is read while
waiting for something else is parked or skipped into queues. `Trace` records what was read and
handed out.
-/

namespace BotsterHub.Client

def maxOutstandingRequests : ℕ := 32

def maxRequestIdBytes : ℕ := 20

def maxRequestId : ℕ := 2 ^ 64 - 1

def encodeRequestId (requestId : ℕ) : String :=
  if requestId = 0 then "0"
  else String.ofList ((Nat.digits 10 requestId).reverse.map Nat.digitChar)

/-- `parse_request_id`. Other characters than digits are refused either way, so characters may be
counted. -/
def parseRequestId (requestId : String) : Option ℕ :=
  let text := requestId.toList
  if text = [] ∨ maxRequestIdBytes < text.length ∨ text.head? = some '0' then none
  else if text.all Char.isDigit then
    let value := Nat.ofDigits 10 (text.reverse.map fun c => c.toNat - 48)
    if value ≤ maxRequestId then some value else none
  else none

/-- `ServerFrame`, over the types of its contents. -/
inductive ServerFrame (Ack Response Event Entity : Type*) where
  | helloAck (ack : Ack)
  | response (requestId : String) (response : Response)
  | event (event : Event)
  | entity (entity : Entity)
  | close (reason : DaemonCloseReason)
deriving DecidableEq

variable {Ack Response Event Entity : Type*}

/-- What the caller did to an id: it cancelled it, or `wait_response` gave it an answer. -/
inductive Note (Response : Type*) where
  | cancelled (requestId : ℕ)
  | answered (requestId : ℕ) (response : Response)
deriving DecidableEq

structure Trace (Ack Response Event Entity : Type*) where
  taken : List (ServerFrame Ack Response Event Entity)
  responses : List (String × Response)
  events : List Event
  entities : List Entity
  notes : List (Note Response)

/-- `DaemonConnection`. The socket is the results of the next calls of `read_frame`, then timeouts.
-/
structure Connection (Ack Response Event Entity : Type*) where
  incoming : List (Except DaemonTransportError (ServerFrame Ack Response Event Entity))
  lastId : ℕ
  outstanding : List ℕ
  parkedResponses : List (ℕ × Response)
  skippedEvents : List Event
  skippedEntityFrames : List Entity
  closed : Option DaemonCloseReason
  trace : Trace Ack Response Event Entity

namespace Connection

abbrev Incoming (Ack Response Event Entity : Type*) :=
  Except DaemonTransportError (ServerFrame Ack Response Event Entity)

/-- `from_hello_complete_stream`. -/
def start (incoming : List (Incoming Ack Response Event Entity)) :
    Connection Ack Response Event Entity where
  incoming := incoming
  lastId := 0
  outstanding := []
  parkedResponses := []
  skippedEvents := []
  skippedEntityFrames := []
  closed := none
  trace := ⟨[], [], [], [], []⟩

variable (c : Connection Ack Response Event Entity)

def take (rest : List (Incoming Ack Response Event Entity))
    (frame : ServerFrame Ack Response Event Entity) : Connection Ack Response Event Entity :=
  { c with incoming := rest, trace := { c.trace with taken := c.trace.taken ++ [frame] } }

def handResponse (requestId : String) (response : Response) :
    Connection Ack Response Event Entity :=
  { c with trace := { c.trace with responses := c.trace.responses ++ [(requestId, response)] } }

def handEvent (event : Event) : Connection Ack Response Event Entity :=
  { c with trace := { c.trace with events := c.trace.events ++ [event] } }

def handEntity (entity : Entity) : Connection Ack Response Event Entity :=
  { c with trace := { c.trace with entities := c.trace.entities ++ [entity] } }

def note (n : Note Response) : Connection Ack Response Event Entity :=
  { c with trace := { c.trace with notes := c.trace.notes ++ [n] } }

def retireOutstanding (id : ℕ) : Connection Ack Response Event Entity :=
  { c with outstanding := c.outstanding.filter (· ≠ id) }

def park (id : ℕ) (response : Response) : Connection Ack Response Event Entity :=
  { c with parkedResponses := c.parkedResponses ++ [(id, response)] }

def skipEvent (event : Event) : Connection Ack Response Event Entity :=
  { c with skippedEvents := c.skippedEvents ++ [event] }

def skipEntity (entity : Entity) : Connection Ack Response Event Entity :=
  { c with skippedEntityFrames := c.skippedEntityFrames ++ [entity] }

/-- `submit`; the write to the socket may fail, and then the id is spent. -/
def submit (failure : Option DaemonTransportError) :
    Except DaemonTransportError ℕ × Connection Ack Response Event Entity :=
  if maxOutstandingRequests ≤ c.outstanding.length then
    (.error (.request .tooManyOutstandingRequests), c)
  else
    let requestId := min (c.lastId + 1) maxRequestId
    match failure with
    | some error => (.error error, { c with lastId := requestId })
    | none =>
      (.ok requestId, { c with lastId := requestId, outstanding := c.outstanding ++ [requestId] })

def cancel (requestId : ℕ) : Connection Ack Response Event Entity :=
  ({ c with
    outstanding := c.outstanding.filter (· ≠ requestId)
    parkedResponses := c.parkedResponses.filter fun entry => entry.1 ≠ requestId } :
      Connection Ack Response Event Entity).note (.cancelled requestId)

def waitLoop (requestId : ℕ) :
    List (Incoming Ack Response Event Entity) → Connection Ack Response Event Entity →
      Except DaemonTransportError Response × Connection Ack Response Event Entity
  | [], c => (.error (.io .timedOut), { c with incoming := [] })
  | .error error :: rest, c => (.error error, { c with incoming := rest })
  | .ok frame :: rest, c =>
    match frame with
    | .response text response =>
      match parseRequestId text with
      | none => (.error (.protocolViolation .invalidRequestId), c.take rest frame)
      | some id =>
        let retired := (c.take rest frame).retireOutstanding id
        if id = requestId then
          (.ok response,
            (retired.handResponse (encodeRequestId id) response).note (.answered id response))
        else if id ∈ c.outstanding then waitLoop requestId rest (retired.park id response)
        else waitLoop requestId rest retired
    | .event event => waitLoop requestId rest ((c.take rest frame).skipEvent event)
    | .entity entity => waitLoop requestId rest ((c.take rest frame).skipEntity entity)
    | .close reason =>
      (.error (.closedByHub reason), { c.take rest frame with closed := some reason })
    | .helloAck _ =>
      (.error (.protocol "unexpected hello ack after the handshake"), c.take rest frame)

def waitResponse (requestId : ℕ) :
    Except DaemonTransportError Response × Connection Ack Response Event Entity :=
  match c.parkedResponses.findIdx? fun entry => entry.1 = requestId with
  | some index =>
    match c.parkedResponses[index]? with
    | some (id, response) =>
      (.ok response, ({ c with parkedResponses := c.parkedResponses.eraseIdx index }.handResponse
        (encodeRequestId id) response).note (.answered requestId response))
    | none => (.error (.request .cancelled), c)
  | none =>
    if requestId ∈ c.outstanding then waitLoop requestId c.incoming c
    else (.error (.request .cancelled), c)

def readNextFrame : Except DaemonTransportError (ServerFrame Ack Response Event Entity) ×
      Connection Ack Response Event Entity :=
  match c.incoming with
  | [] => (.error (.io .timedOut), c)
  | .error error :: rest => (.error error, { c with incoming := rest })
  | .ok frame :: rest =>
    match frame with
    | .response text _ =>
      match parseRequestId text with
      | some id => (.ok frame, (c.take rest frame).retireOutstanding id)
      | none => (.ok frame, c.take rest frame)
    | _ => (.ok frame, c.take rest frame)

def nextFrame : Except DaemonTransportError (ServerFrame Ack Response Event Entity) ×
      Connection Ack Response Event Entity :=
  match c.parkedResponses.getLast? with
  | some (id, response) =>
    (.ok (.response (encodeRequestId id) response),
      { c with parkedResponses := c.parkedResponses.dropLast }.handResponse (encodeRequestId id)
        response)
  | none =>
    match c.skippedEvents with
    | event :: rest => (.ok (.event event), { c.handEvent event with skippedEvents := rest })
    | [] =>
      match c.skippedEntityFrames with
      | entity :: rest =>
        (.ok (.entity entity), { c.handEntity entity with skippedEntityFrames := rest })
      | [] =>
        match c.readNextFrame with
        | (.ok (.close reason), c) => (.ok (.close reason), { c with closed := some reason })
        | (.ok (.response text response), c) =>
          (.ok (.response text response), c.handResponse text response)
        | (.ok (.event event), c) => (.ok (.event event), c.handEvent event)
        | (.ok (.entity entity), c) => (.ok (.entity entity), c.handEntity entity)
        | result => result

structure PollOptions where
  readTimeout : Option IoErrorKind
  setTimeout : Option IoErrorKind
  restoreTimeout : Option IoErrorKind
deriving DecidableEq

/-- `poll_frame`. A frame read is dropped when the timeout cannot be restored; the trace keeps only
that it was taken. -/
def pollFrame (options : PollOptions) :
    Except DaemonTransportError (Option (ServerFrame Ack Response Event Entity)) ×
      Connection Ack Response Event Entity :=
  match options.readTimeout, options.setTimeout with
  | some kind, _ => (.error (normalizeSocketIoError kind), c)
  | none, some kind => (.error (normalizeSocketIoError kind), c)
  | none, none =>
    match c.nextFrame with
    | (.ok frame, c') =>
      match options.restoreTimeout with
      | none => (.ok (some frame), c')
      | some kind =>
        (.error (normalizeSocketIoError kind),
          { c' with
            trace :=
              { c'.trace with
                responses := c.trace.responses
                events := c.trace.events
                entities := c.trace.entities } })
    | (.error error, c') =>
      match error with
      | .io .wouldBlock | .io .timedOut =>
        match options.restoreTimeout with
        | none => (.ok none, c')
        | some kind => (.error (normalizeSocketIoError kind), c')
      | _ => (.error error, c')

def eventLoop : List (Incoming Ack Response Event Entity) → Connection Ack Response Event Entity →
      Except DaemonTransportError Event × Connection Ack Response Event Entity
  | [], c => (.error (.io .timedOut), { c with incoming := [] })
  | .error error :: rest, c => (.error error, { c with incoming := rest })
  | .ok frame :: rest, c =>
    match frame with
    | .event event => (.ok event, (c.take rest frame).handEvent event)
    | .entity entity => eventLoop rest ((c.take rest frame).skipEntity entity)
    | .response text response =>
      match parseRequestId text with
      | none => (.error (.protocolViolation .invalidRequestId), c.take rest frame)
      | some id =>
        let retired := (c.take rest frame).retireOutstanding id
        -- `park_response`
        if id ∈ retired.outstanding ∨ id ≤ c.lastId then eventLoop rest (retired.park id response)
        else eventLoop rest retired
    | .close reason =>
      (.error (.closedByHub reason), { c.take rest frame with closed := some reason })
    | .helloAck _ =>
      (.error (.protocol "unexpected hello ack after the handshake"), c.take rest frame)

def nextEvent : Except DaemonTransportError Event × Connection Ack Response Event Entity :=
  match c.skippedEvents with
  | event :: rest => (.ok event, { c.handEvent event with skippedEvents := rest })
  | [] => eventLoop c.incoming c

def readResults (codec : JsonCodec (ServerFrame Ack Response Event Entity)) :
    ℕ → FrameReader → ByteSource → List (Incoming Ack Response Event Entity)
  | 0, _, _ => []
  | n + 1, reader, source =>
    match reader.readFrame codec source with
    | (result, reader, source) => result :: readResults codec n reader source

inductive Call where
  | submit (failure : Option DaemonTransportError)
  | cancel (requestId : ℕ)
  | waitResponse (requestId : ℕ)
  | nextEvent
  | nextFrame
  | pollFrame (options : PollOptions)
deriving DecidableEq

def step : Call → Connection Ack Response Event Entity
  | .submit failure => (c.submit failure).2
  | .cancel requestId => c.cancel requestId
  | .waitResponse requestId => (c.waitResponse requestId).2
  | .nextEvent => c.nextEvent.2
  | .nextFrame => c.nextFrame.2
  | .pollFrame options => (c.pollFrame options).2

def run (calls : List Call) : Connection Ack Response Event Entity := calls.foldl step c

end Connection

end BotsterHub.Client
