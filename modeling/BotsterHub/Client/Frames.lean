import BotsterHub.Lib.Bytes
import Mathlib.Data.List.Basic

/-!
Unix frames of the client crate.

A frame is a length prefix of four bytes, a container byte and a payload: JSON, or a route, a
generation, an epoch and an opaque body. The reader is resumable after a timeout.
-/

namespace BotsterHub.Client

def maxControlRequestBytes : ℕ := 2 ^ 20

def maxControlResponseBytes : ℕ := 2 ^ 20

def unixFrameLengthPrefixBytes : ℕ := 4

def unixContainerControl : UInt8 := 1

def unixContainerTerminal : UInt8 := 2

def maxUnixTerminalRouteBytes : ℕ := 1024

/-- Route length, generation and stream epoch. -/
def unixTerminalContainerFixedBytes : ℕ := 2 + 8 + 4

def maxUnixFrameBytes : ℕ :=
  2 ^ 22 + 1 + unixTerminalContainerFixedBytes + maxUnixTerminalRouteBytes

/-- The part of `DaemonProtocolErrorCode` that the codec and the connection use. -/
inductive DaemonProtocolErrorCode where
  | malformedFrame
  | unknownContainer
  | invalidRequestId
  | invalidRoute
deriving DecidableEq

inductive DaemonCloseReason where
  | protocolError (code : DaemonProtocolErrorCode)
  | daemonShutdown
deriving DecidableEq

inductive IoErrorKind where
  | wouldBlock
  | timedOut
  | connectionReset
  | brokenPipe
  | unexpectedEof
  | other
deriving DecidableEq

inductive DaemonRequestError where
  | cancelled
  | tooManyOutstandingRequests
deriving DecidableEq

/-- The part of `DaemonTransportError` that the modelled functions return. -/
inductive DaemonTransportError where
  | io (kind : IoErrorKind)
  | json
  | clientDisconnected
  | protocol (message : String)
  | protocolViolation (code : DaemonProtocolErrorCode)
  | closedByHub (reason : DaemonCloseReason)
  | request (error : DaemonRequestError)
deriving DecidableEq

def normalizeSocketIoError : IoErrorKind → DaemonTransportError
  | .connectionReset | .brokenPipe | .unexpectedEof => .clientDisconnected
  | kind => .io kind

/-- `DaemonUnixTerminalFrame`. -/
structure TerminalFrame where
  route : String
  generation : UInt64
  streamEpoch : UInt32
  body : List UInt8
deriving DecidableEq

def routeBytes (route : String) : List UInt8 := route.toUTF8.data.toList

/-- `UnixTerminalContainerHeader::new` with `as_bytes`. -/
def unixTerminalContainerHeader (route : String) (generation : UInt64) (streamEpoch : UInt32)
    (bodyLen : ℕ) : Option (List UInt8) :=
  let bytes := routeBytes route
  if bytes = [] ∨ maxUnixTerminalRouteBytes < bytes.length then none
  else
    let payloadLen := unixTerminalContainerFixedBytes + bytes.length + bodyLen
    let frameLen := 1 + payloadLen
    if maxUnixFrameBytes < frameLen then none
    else some (leBytes 4 frameLen ++ [unixContainerTerminal] ++ leBytes 2 bytes.length ++ bytes ++
      leBytes 8 generation.toNat ++ leBytes 4 streamEpoch.toNat)

def encodeUnixTerminalFrame (frame : TerminalFrame) : Option (List UInt8) :=
  (unixTerminalContainerHeader frame.route frame.generation frame.streamEpoch
    frame.body.length).map (· ++ frame.body)

def encodeControlJson (json : List UInt8) : Except DaemonTransportError (List UInt8) :=
  if max maxControlRequestBytes maxControlResponseBytes < json.length then
    .error (.protocol "control frame exceeds the protocol byte bound")
  else .ok (leBytes 4 (1 + json.length) ++ [unixContainerControl] ++ json)

structure JsonCodec (T : Type*) where
  toVec : T → Option (List UInt8)
  fromSlice : List UInt8 → Option T
  round_trip : ∀ value bytes, toVec value = some bytes → fromSlice bytes = some value

variable {T : Type*}

def encodeControlFrame (codec : JsonCodec T) (frame : T) :
    Except DaemonTransportError (List UInt8) :=
  match codec.toVec frame with
  | none => .error .json
  | some json => encodeControlJson json

inductive DaemonUnixFrame (T : Type*) where
  | control (frame : T)
  | terminal (frame : TerminalFrame)
deriving DecidableEq

/-- `char::is_control`: the Unicode category Cc. -/
def isControl (c : Char) : Bool := c.toNat < 32 || (127 ≤ c.toNat && c.toNat < 160)

def decodeTerminalPayload (payload : List UInt8) : Except DaemonProtocolErrorCode TerminalFrame :=
  if payload.length < unixTerminalContainerFixedBytes then .error .malformedFrame
  else
    let routeLen := ofLe (payload.take 2)
    if routeLen = 0 ∨ maxUnixTerminalRouteBytes < routeLen ∨
        payload.length < unixTerminalContainerFixedBytes + routeLen then .error .invalidRoute
    else
      match String.fromUTF8? ⟨((payload.drop 2).take routeLen).toArray⟩ with
      | none => .error .invalidRoute
      | some route =>
        if route.toList.any isControl then .error .invalidRoute
        else
          let rest := (payload.drop 2).drop routeLen
          .ok
            { route := route
              generation := UInt64.ofNat (ofLe (rest.take 8))
              streamEpoch := UInt32.ofNat (ofLe ((rest.drop 8).take 4))
              body := (rest.drop 8).drop 4 }

/-- `decode_unix_frame`: the container byte and the payload, without the prefix. -/
def decodeUnixFrame (codec : JsonCodec T) :
    List UInt8 → Except DaemonProtocolErrorCode (DaemonUnixFrame T)
  | [] => .error .malformedFrame
  | container :: payload =>
    if container = unixContainerControl then
      match codec.fromSlice payload with
      | none => .error .malformedFrame
      | some frame => .ok (.control frame)
    else if container = unixContainerTerminal then (decodeTerminalPayload payload).map .terminal
    else .error .unknownContainer

/-- What one `read` call on the socket does: it fails, or it returns at most `n + 1`
bytes. -/
inductive ReadAnswer where
  | fail (kind : IoErrorKind)
  | bytes (n : ℕ)
deriving DecidableEq

/-- The socket: the unread bytes and the answers to the next calls. Without an answer a call times
out, without a byte it returns zero. -/
structure ByteSource where
  bytes : List UInt8
  answers : List ReadAnswer

inductive Filled where
  | full
  | eof
  | failed (kind : IoErrorKind)
deriving DecidableEq

def fill (want : ℕ) (held bytes : List UInt8) : List ReadAnswer → Filled × List UInt8 × ByteSource
  | [] => (if want ≤ held.length then .full else .failed .timedOut, held, ⟨bytes, []⟩)
  | answer :: answers =>
    if want ≤ held.length then (.full, held, ⟨bytes, answer :: answers⟩)
    else
      match answer with
      | .fail kind => (.failed kind, held, ⟨bytes, answers⟩)
      | .bytes n =>
        let count := min (n + 1) (want - held.length)
        if bytes = [] then (.eof, held, ⟨[], answers⟩)
        else fill want (held ++ bytes.take count) (bytes.drop count) answers

/-- `DaemonUnixFrameReader`: the length prefix so far, the declared length and the bytes so far. -/
structure FrameReader where
  lengthPrefix : List UInt8
  frame : List UInt8
  frameLen : ℕ
deriving DecidableEq

namespace FrameReader

def new : FrameReader := ⟨[], [], 0⟩

def readBody (r : FrameReader) (source : ByteSource) :
    Except DaemonTransportError (List UInt8) × FrameReader × ByteSource :=
  match fill r.frameLen r.frame source.bytes source.answers with
  | (.failed kind, frame, source) =>
    (.error (normalizeSocketIoError kind), { r with frame := frame }, source)
  | (.eof, frame, source) =>
    (.error (.protocol "truncated unix frame"), { r with frame := frame }, source)
  | (.full, frame, source) => (.ok frame, new, source)

def readPrefix (r : FrameReader) (source : ByteSource) (maxFrameBytes : ℕ) :
    Option DaemonTransportError × FrameReader × ByteSource :=
  match fill unixFrameLengthPrefixBytes r.lengthPrefix source.bytes source.answers with
  | (.failed kind, held, source) =>
    (some (normalizeSocketIoError kind), { r with lengthPrefix := held }, source)
  | (.eof, held, source) =>
    (some (if held = [] then .clientDisconnected
      else .protocol "truncated unix frame length prefix"),
      { r with lengthPrefix := held }, source)
  | (.full, held, source) =>
    let declared := ofLe held
    if declared = 0 ∨ maxFrameBytes < declared then
      (some (.protocol "unix frame length is zero or exceeds the bound"),
        { r with lengthPrefix := held }, source)
    else (none, ⟨held, [], declared⟩, source)

def readRawFrame (r : FrameReader) (source : ByteSource) (maxFrameBytes : ℕ) :
    Except DaemonTransportError (List UInt8) × FrameReader × ByteSource :=
  if r.lengthPrefix.length < unixFrameLengthPrefixBytes then
    match r.readPrefix source maxFrameBytes with
    | (some error, r, source) => (.error error, r, source)
    | (none, r, source) => r.readBody source
  else r.readBody source

/-- `read_frame`: a control frame; a terminal container is a violation here. -/
def readFrame (codec : JsonCodec T) (r : FrameReader) (source : ByteSource) :
    Except DaemonTransportError T × FrameReader × ByteSource :=
  match r.readRawFrame source maxUnixFrameBytes with
  | (.error error, r, source) => (.error error, r, source)
  | (.ok raw, r, source) =>
    (match decodeUnixFrame codec raw with
      | .ok (.control frame) => .ok frame
      | .ok (.terminal _) => .error (.protocol "terminal frame on the control socket")
      | .error code => .error (.protocolViolation code), r, source)

end FrameReader

end BotsterHub.Client
