import BallyDongle.Btp

/-!
# The serial session

`SerialSession.cpp` wraps `btp::Node`, which is external: `NodeApi` is the part
of it the wrapper calls, over an abstract node state, and `NodeLaws` what the
firmware relies on. The wrapper maps object ids to outcomes and latches a
timeout noticed inside `onFrame` until `pollTimeout` reports it.
-/

namespace BallyDongle.SerialSession

open Btp

def kHelloObjectId : UInt16 := 0x0001
def kHelloResultObjectId : UInt16 := 0x0002
def kManifestRequestObjectId : UInt16 := 0x0003
def kSubscribeObjectId : UInt16 := 0x0005
def kSubscribeResultObjectId : UInt16 := 0x0006
def kUnsubscribeObjectId : UInt16 := 0x0007
def kUnsubscribeResultObjectId : UInt16 := 0x0008
def kStatusObjectId : UInt16 := 0x0009
def kSessionCloseObjectId : UInt16 := 0x000A
def kSessionCloseResultObjectId : UInt16 := 0x000B
def kTerminalInObjectId : UInt16 := 0x0001
def kTerminalOutObjectId : UInt16 := 0x0002
def kCommandRequestObjectId : UInt16 := 0x0001

/-! ## Priority classes -/

inductive PriorityClass
  | session | terminal | logStatus | telemetry
  deriving DecidableEq, Repr

def classify (type : MessageType) (objectId : UInt16) : PriorityClass :=
  match type with
  | .control =>
    if objectId = kHelloResultObjectId ∨ objectId = kSessionCloseObjectId ∨
        objectId = kSessionCloseResultObjectId then .session
    else .logStatus
  | .command => .session
  | .terminal => .terminal
  | .log => .logStatus
  | .telemetry | .invalid => .telemetry

/-! ## Console text -/

def isHexDigit (c : Char) : Bool :=
  ('0' ≤ c && c ≤ '9') || ('a' ≤ c && c ≤ 'f') || ('A' ≤ c && c ≤ 'F')

def toLowerHex (c : Char) : Char :=
  if 'A' ≤ c && c ≤ 'F' then Char.ofNat (c.toNat - 'A'.toNat + 'a'.toNat) else c

def kNonceHexLength : Nat := 16

/-- The READY line answering a well-formed ENTER line. -/
def tryParseEnterLine (line : List Char) : Option (List Char) :=
  let kPrefix := "BTP/1 ENTER ".toList
  let nonce := line.drop kPrefix.length
  if line.length ≠ kPrefix.length + kNonceHexLength then none
  else if line.take kPrefix.length ≠ kPrefix then none
  else if nonce.all isHexDigit then
    some ("BTP/1 READY ".toList ++ nonce.map toLowerHex ++ "\r\n".toList)
  else none

/-- The READY line of a locally drawn nonce, sixteen lower-case digits. -/
def buildReadyLineFromNonce (nonce : UInt64) : List Char :=
  let kHexDigits := "0123456789abcdef".toList
  "BTP/1 READY ".toList ++
    ((List.range 16).map fun i =>
      kHexDigits.getD ((nonce.toNat >>> (60 - 4 * i)) % 16) '0') ++ "\r\n".toList

def consoleLine : List Char := "BTP/1 CONSOLE\r\n".toList

/-! ## STATUS payloads -/

def kStatusPayloadSize : Nat := 92
def kTopicStatusRecordSize : Nat := 28
def kMaxStatusTopics : Nat := 8

def buildStatus (msgs : Messages) (counters : StatusCounters) (outputCapacity : Nat) :
    Option Bytes := msgs.encodeStatusV1 counters outputCapacity

def buildStatusV2 (msgs : Messages) (counters : StatusCounters) (topics : List TopicStatusRecord)
    (outputCapacity : Nat) : Option Bytes :=
  if kMaxStatusTopics < topics.length then none
  else msgs.encodeStatusV2 counters topics outputCapacity

/-! ## `btp::Node` -/

inductive SessionState
  | idle | awaitingHello | active
  deriving DecidableEq, Repr

inductive SessionEvent
  | none | helloAccepted | helloRejected | sessionClosed | frameAccepted | timedOut | abandoned
  deriving DecidableEq, Repr

/-- What `receive` did with a frame. -/
inductive NodeRx
  | pending | noDatagram | droppedFrame
  | sessionHandled (event : SessionEvent)
  | complete (header : Header)
  | other
  deriving DecidableEq, Repr

/-- The interface of `btp::Node`. `receive` also returns the reply it handed to
the `send` hook, and `reserveSequence` is the endpoint every sender shares. -/
structure NodeApi where
  Node : Type
  state : Node → SessionState
  peerSourceId : Node → UInt32
  receive : Node → DecodedFrame → (nowMs : UInt64) → Node × NodeRx × Option Bytes
  tick : Node → (nowMs : UInt64) → Node × SessionEvent
  reset : Node → Node × SessionEvent
  armSession : Node → (nowMs : UInt64) → Node
  setLocalConfigRevision : Node → UInt32 → Node
  reserveSequence : Node → Node × Option UInt32

/-- What the firmware relies on of `btp::Node`: only arming makes a session await
a HELLO, its client changes only by one, objects are delivered only to an active
session, and each way back to idle is reported by its own event. -/
structure NodeLaws (N : NodeApi) : Prop where
  receive_peer : ∀ n f t, N.state n ≠ .awaitingHello →
    N.peerSourceId (N.receive n f t).1 = N.peerSourceId n
  receive_awaiting : ∀ n f t, N.state (N.receive n f t).1 = .awaitingHello →
    N.state n = .awaitingHello
  receive_idle : ∀ n f t, N.state n ≠ .idle → N.state (N.receive n f t).1 = .idle →
    (N.receive n f t).2.1 = .sessionHandled .helloRejected ∨
    (N.receive n f t).2.1 = .sessionHandled .sessionClosed ∨
    (N.receive n f t).2.1 = .sessionHandled .timedOut
  receive_timedOut : ∀ n f t, (N.receive n f t).2.1 = .sessionHandled .timedOut →
    N.state (N.receive n f t).1 = .idle
  receive_accepted : ∀ n f t, (N.receive n f t).2.1 = .sessionHandled .helloAccepted →
    N.state (N.receive n f t).1 = .active
  receive_complete : ∀ n f t header, (N.receive n f t).2.1 = .complete header →
    N.state n = .active ∧ N.state (N.receive n f t).1 = .active
  tick_peer : ∀ n t, N.peerSourceId (N.tick n t).1 = N.peerSourceId n
  tick_awaiting : ∀ n t, N.state (N.tick n t).1 = .awaitingHello → N.state n = .awaitingHello
  tick_idle : ∀ n t, N.state n ≠ .idle → N.state (N.tick n t).1 = .idle →
    (N.tick n t).2 = .timedOut
  reset_idle : ∀ n, N.state (N.reset n).1 = .idle
  reset_peer : ∀ n, N.peerSourceId (N.reset n).1 = N.peerSourceId n
  reset_abandoned : ∀ n, (N.reset n).2 = .abandoned ↔ N.state n ≠ .idle
  setLocal_state : ∀ n r, N.state (N.setLocalConfigRevision n r) = N.state n
  setLocal_peer : ∀ n r, N.peerSourceId (N.setLocalConfigRevision n r) = N.peerSourceId n
  reserve_state : ∀ n, N.state (N.reserveSequence n).1 = N.state n
  reserve_peer : ∀ n, N.peerSourceId (N.reserveSequence n).1 = N.peerSourceId n

/-! ## The wrapper -/

inductive State
  | console | awaitingHello | protocolled
  deriving DecidableEq, Repr

inductive FrameOutcome
  | ignored | helloAccepted | helloRejected | sessionClosed
  | commandRequest | terminalIn | manifestRequest | subscribeRequest | unsubscribeRequest
  deriving DecidableEq, Repr

structure Session (N : NodeApi) where
  node : N.Node
  timeoutLatched : Bool := false

namespace Session

variable {N : NodeApi}

def state (s : Session N) : State :=
  if s.timeoutLatched then .protocolled
  else
    match N.state s.node with
    | .idle => .console
    | .awaitingHello => .awaitingHello
    | .active => .protocolled

def isConsole (s : Session N) : Bool := s.state = .console

def isProtocolled (s : Session N) : Bool := s.state = .protocolled

def peerSourceId (s : Session N) : UInt32 := N.peerSourceId s.node

def setLocalConfigRevision (s : Session N) (configRevision : UInt32) : Session N :=
  { s with node := N.setLocalConfigRevision s.node configRevision }

def beginNegotiation (s : Session N) (nowMs : UInt64) : Session N :=
  { node := N.armSession (N.reset s.node).1 nowMs, timeoutLatched := false }

def classifyProtocolObject (header : Header) : FrameOutcome :=
  if header.type = .command ∧ header.objectId = kCommandRequestObjectId then .commandRequest
  else if header.type = .terminal ∧ header.objectId = kTerminalInObjectId then .terminalIn
  else if header.type = .control ∧ header.objectId = kManifestRequestObjectId then .manifestRequest
  else if header.type = .control ∧ header.objectId = kSubscribeObjectId then .subscribeRequest
  else if header.type = .control ∧ header.objectId = kUnsubscribeObjectId then .unsubscribeRequest
  else .ignored

/-- The outcome of a frame, and the reply the node staged (`pendingFrame`). -/
def onFrame (s : Session N) (frame : DecodedFrame) (nowMs : UInt64) :
    Session N × FrameOutcome × Bytes :=
  let (node, rx, reply) := N.receive s.node frame nowMs
  let pendingFrame := reply.getD []
  match rx with
  | .sessionHandled .timedOut => ({ node, timeoutLatched := true }, .ignored, pendingFrame)
  | .sessionHandled .helloAccepted => ({ s with node }, .helloAccepted, pendingFrame)
  | .sessionHandled .helloRejected => ({ s with node }, .helloRejected, pendingFrame)
  | .sessionHandled .sessionClosed => ({ s with node }, .sessionClosed, pendingFrame)
  | .complete header => ({ s with node }, classifyProtocolObject header, pendingFrame)
  | _ => ({ s with node }, .ignored, pendingFrame)

/-- `true` exactly once for a session that timed out. -/
def pollTimeout (s : Session N) (nowMs : UInt64) : Session N × Bool :=
  if s.timeoutLatched then ({ s with timeoutLatched := false }, true)
  else
    let (node, event) := N.tick s.node nowMs
    ({ s with node }, event = .timedOut)

def onTransportLost (s : Session N) : Session N × Bool :=
  let (node, event) := N.reset s.node
  ({ node, timeoutLatched := false }, event = .abandoned)

end Session

end BallyDongle.SerialSession
