import BallyDongle.SerialMux.Handlers

/-!
# The multiplexer's entry points

What the main loop and the radio side call: `tick`, the two ways a session
starts, the loss of the cable, and the two relays from the radio. Each call is
one step.
-/

namespace BallyDongle.SerialMux.Mux

open Btp SerialSession

variable {P : Platform}

def kMaxBytesPerTick : Nat := 512
def kStatusIntervalMs : UInt32 := 2000

/-! ## Reception -/

/-- What the decoder reported, other than a bad configuration. -/
def onDecodeEvent (m : Mux P) (nowMs : UInt32) : SerialDecodeEvent → Mux P
  | .none | .invalidConfiguration => m
  | .frame decoded =>
    dispatchFrame { m with rx := { m.rx with framesRx := m.rx.framesRx + 1 } } decoded nowMs
  | .crcMismatch => { m with rx := { m.rx with crcErrors := m.rx.crcErrors + 1 } }
  | .frameError | .cobsError | .overflow =>
    { m with rx := { m.rx with decodeErrors := m.rx.decodeErrors + 1 } }

/-- Read at most `budget` octets; a session that ended leaves the rest to the console. -/
def pumpRxLoop (nowMs : UInt32) : (budget : Nat) → Mux P → Mux P
  | 0, m => m
  | budget + 1, m =>
    match P.read m.shared.world with
    | (world, none) => { m with shared := { m.shared with world } }
    | (world, some value) =>
      let (decoder, event) := P.decoderPush m.decoder value
      let m := { m with decoder, shared := { m.shared with world } }
      if event = .invalidConfiguration then m
      else
        let m := m.onDecodeEvent nowMs event
        if m.isConsoleOwned then m else pumpRxLoop nowMs budget m

def pumpRx (m : Mux P) (nowMs : UInt32) : Mux P := pumpRxLoop nowMs kMaxBytesPerTick m

/-! ## Periodic work -/

def totalDropped (m : Mux P) : UInt64 :=
  m.telemetryDropped + m.egress.droppedByClass .session + m.egress.droppedByClass .terminal +
    m.egress.droppedByClass .logStatus + m.egress.droppedByClass .telemetry

def statusCounters (m : Mux P) : StatusCounters :=
  { uptimeUs := m.millis.toUInt64 * 1000
    framesRx := m.rx.framesRx
    framesTx := m.egress.framesTx
    framesDropped := m.totalDropped
    crcErrors := m.rx.crcErrors
    decodeErrors := m.rx.decodeErrors
    reassemblyRejected := m.rx.reassemblyRejected
    telemetryDropped := m.telemetryDropped }

/-- Version 2 when there is a topic to report and it fits, else version 1. -/
def statusPayload (m : Mux P) : Option Bytes :=
  let capacity :=
    kStatusPayloadSize + 2 + SubscriptionRegistry.kMaxTopics * kTopicStatusRecordSize
  let topics :=
    SubscriptionRegistry.topicStatusSnapshot m.topics.registry SubscriptionRegistry.kMaxTopics
  let version2 :=
    if topics = [] then none else buildStatusV2 P.messages m.statusCounters topics capacity
  version2.orElse fun _ => buildStatus P.messages m.statusCounters capacity

def maybeSendStatusHeartbeat (m : Mux P) (nowMs : UInt32) : Mux P :=
  if nowMs - m.lastStatusMs < kStatusIntervalMs then m
  else
    let m := { m with lastStatusMs := nowMs }
    match m.statusPayload with
    | none => m
    | some payload => (m.enqueueOwn .control kStatusObjectId payload).1

def sweepLeases (m : Mux P) (nowMs : UInt32) : Mux P :=
  { m with topics := m.topics.sweep P.sourceId nowMs }

/-- `peekTxCounters`, as `hub.usb` publishes it. -/
def usbCounters (m : Mux P) : DonglePublisher.UsbCounters :=
  { framesRx := m.rx.framesRx
    framesTx := m.egress.framesTx
    crcErrors := m.rx.crcErrors
    decodeErrors := m.rx.decodeErrors
    reassemblyRejected := m.rx.reassemblyRejected
    telemetryDropped := m.telemetryDropped
    droppedByClass := #v[m.egress.droppedByClass .session, m.egress.droppedByClass .terminal,
      m.egress.droppedByClass .logStatus, m.egress.droppedByClass .telemetry]
    relayDownOk := m.relay.ok
    relayDownUnbound := m.relay.unbound
    relayDownNoPeer := m.relay.noPeer
    relayDownOversized := m.relay.oversized
    relayDownSendFailed := m.relay.sendFailed }

def snapshot (m : Mux P) : DonglePublisher.Snapshot :=
  { link := P.linkCounters m.shared.world
    usb := m.usbCounters
    peers := P.peerRecords m.shared.world m.shared.peers }

def recordSample (m : Mux P) (queued : Bool) (sourceId : UInt32) (objectId : UInt16)
    (payloadSize : Nat) : Mux P :=
  { m with topics := m.topics.recordSample queued sourceId objectId payloadSize }

/-- Emit a sample of the dongle's own. -/
def publish (m : Mux P) (sample : UInt16 × Bytes) : Mux P :=
  let (m, queued) := m.enqueueOwn .telemetry sample.1 sample.2
  m.recordSample queued P.sourceId sample.1 sample.2.length

def publishOwnTopics (m : Mux P) (nowMs : UInt32) : Mux P :=
  let (publisher, samples) := DonglePublisher.tick m.topics.publisher nowMs m.snapshot
  samples.foldl publish { m with topics := { m.topics with publisher } }

def drain (m : Mux P) : Mux P :=
  let (egress, io) := drainTx P.codec P.write m.egress m.io
  { m with egress }.setIo io

/-- The periodic work of a protocolled session. -/
def serve (m : Mux P) (nowMs : UInt32) : Mux P :=
  ((((m.pumpTerminalShell).maybeSendStatusHeartbeat nowMs).sweepLeases nowMs).publishOwnTopics
    nowMs).drain

/-- The watchdog took the session. -/
def expire (m : Mux P) (nowMs : UInt32) (wasProtocolled : Bool) : Mux P :=
  let m := ((m.releaseClient nowMs).resetOutbound).writeConsoleText consoleLine
  let text :=
    if wasProtocolled then "sessao expirou (watchdog de inatividade) -> console"
    else "HELLO nao chegou a tempo -> console"
  discardInput
    { m with shared := { m.shared with world := P.printTagged m.shared.world "btp" text } }

def tick (m : Mux P) (nowMs : UInt32) : Mux P :=
  if m.isConsoleOwned then m
  else
    let session := m.session.setLocalConfigRevision (m.shared.manifest.catalogRevision)
    let m := pumpRx { m with session } nowMs
    if m.isConsoleOwned then m
    else
      match m.session.pollTimeout nowMs.toUInt64 with
      | (session, true) => expire { m with session } nowMs m.isProtocolled
      | (session, false) =>
        let m := { m with session }
        if m.isProtocolled then m.serve nowMs else m

/-! ## Starting and losing a session -/

def beginNegotiation (m : Mux P) (readyLine : List Char) (nowMs : UInt32) : Mux P :=
  let m := m.writeConsoleText readyLine
  { m with
    session := m.session.beginNegotiation nowMs.toUInt64
    decoder := P.decoderReset m.decoder }

def tryEnterFromConsoleLine (m : Mux P) (line : List Char) (nowMs : UInt32) : Mux P × Bool :=
  if !m.isConsoleOwned then (m, false)
  else
    match tryParseEnterLine line with
    | none => (m, false)
    | some readyLine => (m.beginNegotiation readyLine nowMs, true)

def enterFromCommand (m : Mux P) (nowMs : UInt32) : Mux P × Bool :=
  if !m.isConsoleOwned then (m, false)
  else
    let (world, nonce) := P.random64 m.shared.world
    let m := { m with shared := { m.shared with world } }
    (m.beginNegotiation (buildReadyLineFromNonce nonce) nowMs, true)

def onTransportLost (m : Mux P) (nowMs : UInt32) : Mux P :=
  match m.session.onTransportLost with
  | (session, false) => { m with session }
  | (session, true) => ((releaseClient { m with session } nowMs).resetOutbound).discardInput

/-! ## From the radio -/

def countTelemetryDropped (m : Mux P) (header : Header) : Mux P :=
  if header.type = .telemetry then { m with telemetryDropped := m.telemetryDropped + 1 } else m

/-- A telemetry frame of a topic whose clients all left. -/
def unwanted (m : Mux P) (header : Header) : Bool :=
  header.type = .telemetry &&
    SubscriptionRegistry.isKnownUnwanted m.topics.registry header.sourceId header.objectId.toUInt32

/-- Queue a frame from the radio and, for telemetry, count its sample. -/
def forward (m : Mux P) (header : Header) (frame : Bytes) (payloadSize : Nat) : Mux P × Bool :=
  let (m, queued) := m.enqueueFrame (classify header.type header.objectId) frame
  if header.type = .telemetry then
    (m.recordSample queued header.sourceId header.objectId payloadSize, queued)
  else (m, queued)

def refuseUnwanted (m : Mux P) (header : Header) : Mux P :=
  (m.countTelemetryDropped header).recordSample false header.sourceId header.objectId 0

/-- A reassembled message, encoded again for the cable. -/
def forwardRelay (m : Mux P) (header : Header) (payload : Bytes) : Mux P × Bool :=
  if !m.isProtocolled then (m.countTelemetryDropped header, false)
  else if m.unwanted header then (m.refuseUnwanted header, false)
  else if kOutboundPayloadCap < payload.length then (m, false)
  else
    match P.codec.encode .serial { header, payload } kMaxFrameBytes with
    | none => (m, false)
    | some frame => m.forward header frame payload.length

/-- A datagram of the radio, octet for octet; one that decoded has a header and
a CRC. -/
def relayUp (m : Mux P) (header : Header) (frame : Bytes) : Mux P × Bool :=
  if !m.isProtocolled then (m.countTelemetryDropped header, false)
  else if frame = [] then (m, false)
  else if m.unwanted header then (m.refuseUnwanted header, false)
  else m.forward header frame (frame.length - kV1MinimumFrameSize)

/-- Asynchronous text for the terminal of the session. -/
def writeTerminalResponse (m : Mux P) (text : Bytes) : Mux P :=
  if !m.isProtocolled ∨ text = [] then m else m.enqueueTerminal (P.renderResponse text)

end BallyDongle.SerialMux.Mux
