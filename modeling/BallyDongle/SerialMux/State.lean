import BallyDongle.Lib.Cobs
import BallyDongle.Btp.ManifestLayout
import BallyDongle.ManifestCache.Serve
import BallyDongle.SerialMux.Egress
import BallyDongle.SerialMux.Topics
import BallyDongle.HubRegistry
import BallyDongle.HubRelay
import BallyDongle.BtpTransport.BtpCommand

/-!
# The multiplexer's state

`SerialMux.cpp` ties the session, the outbound side, the subscription registry,
the dongle's own topics and the hub's tables together. `Platform` holds what it
calls outside this repository or outside the subject here; `Mux` is the state of
the program.
-/

namespace BallyDongle.SerialMux

open Btp SerialSession BtpTransport

/-- What one octet fed to `btp::SerialDecoder` produced. -/
inductive SerialDecodeEvent
  | none | frame (decoded : DecodedFrame) | crcMismatch | frameError | cobsError | overflow
  | invalidConfiguration
  deriving DecidableEq, Repr

/-- TinyShell's line editor. `poll` returns what it echoed and, when a line was
completed, the line; `buffered` counts the octets it was fed and did not read. -/
structure LineEditor where
  Editor : Type
  buffered : Editor → Nat
  reset : Editor → Editor
  feed : Editor → Bytes → Editor
  poll : Editor → Editor × Bytes × Option Bytes
  writeResponse : Editor → Bytes → Editor × Bytes
  refreshLine : Editor → Editor × Bytes
  poll_lt : ∀ ed ed' echo line, poll ed = (ed', echo, some line) → buffered ed' < buffered ed
  writeResponse_le : ∀ ed text, buffered (writeResponse ed text).1 ≤ buffered ed
  refreshLine_le : ∀ ed, buffered (refreshLine ed).1 ≤ buffered ed

/-- What a shell line can reach. -/
structure Shared (World : Type) where
  world : World
  hub : HubRegistry.Bindings := HubRegistry.init
  peers : PeerTable := PeerTable.init
  manifest : ManifestCache.Cache := {}

structure Platform where
  node : NodeApi
  editor : LineEditor
  codec : Codec
  messages : Messages
  World : Type
  Decoder : Type
  /-- `BtpTransport::sourceId`, derived from the MAC and never 0. -/
  sourceId : { id : UInt32 // id ≠ 0 }
  bootId : UInt32
  millis : World → UInt32
  random64 : World → World × UInt64
  write : WriteFn World
  read : World → World × Option UInt8
  printTagged : World → String → String → World
  decoderReset : Decoder → Decoder
  decoderPush : Decoder → UInt8 → Decoder × SerialDecodeEvent
  renderResponse : Bytes → Bytes
  runShellLine : Option (Shared World → Bytes → Shared World × Bytes)
  relayToRadio : Option (World → Mac → Bytes → World × Bool)
  linkCounters : World → DonglePublisher.LinkCounters
  peerRecords : World → PeerTable → List DonglePublisher.PeerRecord
  manifestWriter : ManifestWriter

def Platform.identity (P : Platform) : ManifestCache.Identity :=
  { sourceId := P.sourceId, bootId := P.bootId }

structure RxCounters where
  framesRx : UInt64 := 0
  crcErrors : UInt64 := 0
  decodeErrors : UInt64 := 0
  reassemblyRejected : UInt64 := 0
  deriving DecidableEq, Repr

structure RelayDownCounters where
  ok : UInt64 := 0
  unbound : UInt64 := 0
  noPeer : UInt64 := 0
  oversized : UInt64 := 0
  sendFailed : UInt64 := 0
  deriving DecidableEq, Repr

/-- How a relay ended; each outcome has its counter. -/
inductive RelayOutcome
  | ok | unbound | noPeer | oversized | sendFailed
  deriving DecidableEq, Repr

def RelayDownCounters.bump (c : RelayDownCounters) : RelayOutcome → RelayDownCounters
  | .ok => { c with ok := c.ok + 1 }
  | .unbound => { c with unbound := c.unbound + 1 }
  | .noPeer => { c with noPeer := c.noPeer + 1 }
  | .oversized => { c with oversized := c.oversized + 1 }
  | .sendFailed => { c with sendFailed := c.sendFailed + 1 }

/-- The globals of `SerialMux.cpp` and the tables it works on. `radioCalls` and
`shellLines` record the calls of the two callbacks; no function reads them. -/
structure Mux (P : Platform) where
  session : Session P.node
  decoder : P.Decoder
  terminalShell : P.editor.Editor
  terminalOut : Bytes := []
  egress : Egress := {}
  accepted : Bytes := []
  lastStatusMs : UInt32 := 0
  rx : RxCounters := {}
  telemetryDropped : UInt64 := 0
  relay : RelayDownCounters := {}
  topics : Topics := {}
  shared : Shared P.World
  radioCalls : List (Mac × Bytes) := []
  shellLines : List Bytes := []

namespace Mux

variable {P : Platform}

def millis (m : Mux P) : UInt32 := P.millis m.shared.world

def io (m : Mux P) : ByteIO P.World := { world := m.shared.world, accepted := m.accepted }

def setIo (m : Mux P) (io : ByteIO P.World) : Mux P :=
  { m with accepted := io.accepted, shared := { m.shared with world := io.world } }

def isConsoleOwned (m : Mux P) : Bool := m.session.isConsole

def isProtocolled (m : Mux P) : Bool := m.session.isProtocolled

/-! ## Sending frames of the dongle's own -/

/-- `frameSourceId = 0` stamps the dongle's own id. -/
def encodeOwnFrame (m : Mux P) (type : MessageType) (objectId : UInt16) (payload : Bytes)
    (outFrameCapacity : Nat) (frameSourceId : UInt32) : Mux P × Option Bytes :=
  let (node, sequence) := P.node.reserveSequence m.session.node
  let m := { m with session := { m.session with node } }
  match sequence with
  | none => (m, none)
  | some sequence =>
    let header : Header :=
      { type, sourceId := if frameSourceId ≠ 0 then frameSourceId else P.sourceId
        bootId := P.bootId, sequence, timestampUs := m.millis.toUInt64 * 1000, objectId }
    (m, P.codec.encode .serial { header, payload } outFrameCapacity)

def enqueueFrame (m : Mux P) (cls : PriorityClass) (frame : Bytes) : Mux P × Bool :=
  let (egress, queued) := enqueueFrameBytes m.egress cls frame
  ({ m with egress }, queued)

def enqueueOwn (m : Mux P) (type : MessageType) (objectId : UInt16) (payload : Bytes)
    (frameSourceId : UInt32 := 0) : Mux P × Bool :=
  match m.encodeOwnFrame type objectId payload kMaxFrameBytes frameSourceId with
  | (m, none) => (m, false)
  | (m, some frame) => m.enqueueFrame (classify type objectId) frame

def kTextOctets (text : List Char) : Bytes := text.map fun c => c.toNat.toUInt8

def writeConsoleText (m : Mux P) (text : List Char) : Mux P :=
  m.setIo (writeAll P.write m.io (kTextOctets text)).1

/-! ## The relay to the radio -/

def callRadio (m : Mux P) (send : P.World → Mac → Bytes → P.World × Bool) (mac : Mac)
    (frame : Bytes) : Mux P × Bool :=
  let (world, sent) := send m.shared.world mac frame
  ({ m with shared := { m.shared with world }, radioCalls := m.radioCalls ++ [(mac, frame)] }, sent)

def countRelay (m : Mux P) (outcome : RelayOutcome) : Mux P :=
  { m with relay := m.relay.bump outcome }

/-- A frame from the cable goes out on the radio unchanged, to the peer its
child is bound to; every refusal is counted by its reason. -/
def relayDown (m : Mux P) (decoded : DecodedFrame) : Mux P × Bool :=
  match P.relayToRadio with
  | none => (m.countRelay .sendFailed, false)
  | some send =>
    match HubRegistry.lookup m.shared.hub decoded.header.sourceId with
    | none => (m.countRelay .unbound, false)
    | some peerSourceId =>
      match lookupPeerMacBySourceId m.shared.peers peerSourceId with
      | none => (m.countRelay .noPeer, false)
      | some (mac, _) =>
        match HubRelay.reencodeVerbatim P.codec decoded .espNow kEspNowMaxFrameSize with
        | none => (m.countRelay .oversized, false)
        | some frame =>
          match m.callRadio send mac frame with
          | (m, false) => (m.countRelay .sendFailed, false)
          | (m, true) => (m.countRelay .ok, true)

/-! ## The end of a session -/

/-- Release what the session's client holds. -/
def releaseClient (m : Mux P) (nowMs : UInt32) : Mux P :=
  { m with topics := m.topics.disconnect P.sourceId m.session.peerSourceId nowMs }

/-- The half of the cleanup after the queues are reset. -/
def discardInput (m : Mux P) : Mux P :=
  { m with
    decoder := P.decoderReset m.decoder
    terminalShell := P.editor.reset m.terminalShell
    terminalOut := [] }

def resetOutbound (m : Mux P) : Mux P := { m with egress := resetQueues m.egress }

/-- Send the session's last frame at once, then hand the port to the console. -/
def finalizeToConsole (m : Mux P) (frame : Bytes) (consoleLine : List Char) : Mux P :=
  let m :=
    if frame = [] then m
    else
      let (egress, io) := writeFrameCobs P.codec P.write m.egress m.io frame
      { m with egress }.setIo io
  (((m.releaseClient m.millis).resetOutbound).writeConsoleText consoleLine).discardInput

end Mux

/-! ## A bench to run on -/

/-- A session that keeps nothing but its state, its client and a sequence. -/
structure BenchNode where
  state : SessionState := .idle
  peerSourceId : UInt32 := 0
  sequence : UInt32 := 1
  deriving DecidableEq, Repr

def BenchNode.receive (n : BenchNode) (frame : DecodedFrame) :
    BenchNode × NodeRx × Option Bytes :=
  let control (objectId : UInt16) : Bool :=
    frame.header.type = .control && frame.header.objectId = objectId
  match n.state with
  | .idle => (n, .droppedFrame, none)
  | .awaitingHello =>
    if control kHelloObjectId then
      ({ n with state := .active, peerSourceId := frame.header.sourceId },
        .sessionHandled .helloAccepted, none)
    else (n, .droppedFrame, none)
  | .active =>
    if control kSessionCloseObjectId then
      ({ n with state := .idle }, .sessionHandled .sessionClosed, none)
    else (n, .complete frame.header, none)

/-- The bench node times a session out at 30 s of the clock. -/
def benchNode : NodeApi where
  Node := BenchNode
  state := BenchNode.state
  peerSourceId := BenchNode.peerSourceId
  receive n frame _ := n.receive frame
  tick n nowMs :=
    if n.state ≠ .idle ∧ 30000 ≤ nowMs then ({ n with state := .idle }, .timedOut) else (n, .none)
  reset n := ({ n with state := .idle }, if n.state = .idle then .none else .abandoned)
  armSession n _ := if n.state = .idle then { n with state := .awaitingHello } else n
  setLocalConfigRevision n _ := n
  reserveSequence n := ({ n with sequence := n.sequence + 1 }, some n.sequence)

theorem BenchNode.receive_cases (n : BenchNode) (f : DecodedFrame) :
    (n.state = .awaitingHello ∧
      n.receive f = ({ n with state := .active, peerSourceId := f.header.sourceId },
        .sessionHandled .helloAccepted, none)) ∨
    (n.state = .active ∧
      n.receive f = ({ n with state := .idle }, .sessionHandled .sessionClosed, none)) ∨
    (n.state = .active ∧ n.receive f = (n, .complete f.header, none)) ∨
    (n.state ≠ .active ∧ n.receive f = (n, .droppedFrame, none)) := by
  unfold BenchNode.receive
  cases hs : n.state <;> dsimp only
  · exact .inr (.inr (.inr ⟨by decide, rfl⟩))
  · split
    · exact .inl ⟨rfl, rfl⟩
    · exact .inr (.inr (.inr ⟨by decide, rfl⟩))
  · split
    · exact .inr (.inl ⟨rfl, rfl⟩)
    · exact .inr (.inr (.inl ⟨rfl, rfl⟩))

theorem benchNode_laws : NodeLaws benchNode where
  receive_peer n f _ := by
    obtain ⟨hs, e⟩ | ⟨hs, e⟩ | ⟨hs, e⟩ | ⟨hs, e⟩ := BenchNode.receive_cases n f <;>
      simp [benchNode, e, hs]
  receive_awaiting n f _ := by
    obtain ⟨hs, e⟩ | ⟨hs, e⟩ | ⟨hs, e⟩ | ⟨hs, e⟩ := BenchNode.receive_cases n f <;>
      simp [benchNode, e, hs]
  receive_idle n f _ := by
    obtain ⟨hs, e⟩ | ⟨hs, e⟩ | ⟨hs, e⟩ | ⟨hs, e⟩ := BenchNode.receive_cases n f <;>
      simp [benchNode, e, hs]
  receive_timedOut n f _ := by
    obtain ⟨hs, e⟩ | ⟨hs, e⟩ | ⟨hs, e⟩ | ⟨hs, e⟩ := BenchNode.receive_cases n f <;>
      simp [benchNode, e]
  receive_accepted n f _ := by
    obtain ⟨hs, e⟩ | ⟨hs, e⟩ | ⟨hs, e⟩ | ⟨hs, e⟩ := BenchNode.receive_cases n f <;>
      simp [benchNode, e]
  receive_complete n f _ header := by
    obtain ⟨hs, e⟩ | ⟨hs, e⟩ | ⟨hs, e⟩ | ⟨hs, e⟩ := BenchNode.receive_cases n f <;>
      simp [benchNode, e, hs]
  tick_peer n t := by
    simp only [benchNode]
    split <;> rfl
  tick_awaiting n t := by
    simp only [benchNode]
    split
    · exact nofun
    · exact id
  tick_idle n t := by
    simp only [benchNode]
    split
    · exact fun _ _ => rfl
    · exact fun hn hi => absurd hi hn
  reset_idle _ := rfl
  reset_peer _ := rfl
  reset_abandoned n := by
    simp only [benchNode]
    split <;> simp_all
  setLocal_state _ _ := rfl
  setLocal_peer _ _ := rfl
  reserve_state _ := rfl
  reserve_peer _ := rfl

/-- An editor that keeps nothing and never completes a line. -/
def benchEditor : LineEditor where
  Editor := Unit
  buffered _ := 0
  reset _ := ()
  feed _ _ := ()
  poll _ := ((), [], none)
  writeResponse _ text := ((), text)
  refreshLine _ := ((), [])
  poll_lt := nofun
  writeResponse_le _ _ := Nat.le_refl _
  refreshLine_le _ := Nat.le_refl _

/-- Frames of the right length, refused past the transport's largest payload. -/
def benchEncode (transport : Transport) (frame : DecodedFrame) (outCapacity : Nat) :
    Option Bytes :=
  let largest :=
    match transport with
    | .espNow => kEspNowMaxPayloadSize
    | .serial => kSerialMaxPayloadSize
  let encoded := List.replicate 36 0 ++ frame.payload ++ List.replicate 4 0
  if largest < frame.payload.length ∨ outCapacity < encoded.length then none else some encoded

/-- The prefix rules of a `COMMAND_REQUEST`: 20 octets, then the parameters. -/
def benchDecodeCommandRequest (payload : Bytes) : Except MessageError CommandRequest :=
  match readU32 payload 0, readU32 payload 4, readU16 payload 8, readU16 payload 10,
    readU32 payload 12, readU32 payload 16 with
  | some target, some boot, some action, some version, some reserved, some size =>
    if reserved ≠ 0 then .error .reservedNotZero
    else if target = 0 ∨ boot = 0 ∨ action = 0 ∨ version = 0 then .error .zeroField
    else if (payload.drop 20).length ≠ size.toNat then .error .trailingBytes
    else .ok ⟨target, boot, action, version, payload.drop 20⟩
  | _, _, _, _, _, _ => .error .payloadTooShort

def benchMessages : Messages where
  decodeCommandRequest := benchDecodeCommandRequest
  decodeCommandResult _ := .error .payloadTooShort
  decodeManifestRequest _ := .error .payloadTooShort
  decodeSubscribe _ := .error .payloadTooShort
  encodeCommandResult res _ := some (List.replicate 22 0 ++ res.message ++ List.replicate 4 0)
  encodeSubscribeResult _ _ := some (List.replicate 28 0)
  encodeUnsubscribeResult _ _ := some (List.replicate 16 0)
  encodeStatusV1 _ _ := some (List.replicate 92 0)
  encodeStatusV2 _ _ _ := none

/-- A dongle with source id 7 whose host takes every octet and whose radio
delivers every datagram. -/
def bench : Platform where
  node := benchNode
  editor := benchEditor
  codec :=
    { decode _ _ := .error .other
      encode := benchEncode
      cobsEncode data outCapacity :=
        if (Cobs.encode data).length ≤ outCapacity then some (Cobs.encode data) else none }
  messages := benchMessages
  World := Unit
  Decoder := Unit
  sourceId := ⟨7, by decide⟩
  bootId := 1
  millis _ := 0
  random64 _ := ((), 0)
  write _ data := ((), data.length)
  read _ := ((), none)
  printTagged _ _ _ := ()
  decoderReset _ := ()
  decoderPush _ _ := ((), .none)
  renderResponse text := text
  runShellLine := some fun shared _ => (shared, [])
  relayToRadio := some fun _ _ _ => ((), true)
  linkCounters _ := ⟨0, 0, 0, 0, 0, 0, 0, 0, 0, 0, 0, 0⟩
  peerRecords _ _ := []
  manifestWriter := Layout.writer

/-- The bench's multiplexer at boot, with these tables. -/
def benchMux (hub : HubRegistry.Bindings) (peers : PeerTable) : Mux bench :=
  { session := { node := ({} : BenchNode) }, decoder := (), terminalShell := ()
    shared := { world := (), hub, peers } }

end BallyDongle.SerialMux
