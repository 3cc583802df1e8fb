import BallyDongle.Lib.Hex
import BallyDongle.EspNowConfig.Retention
import BallyDongle.SerialMux.Tick

/-!
# Radio ingress

`processRxDatagramInternal` of `EspNowConfig.cpp` and what it calls. A frame
that cannot be for the dongle goes up at once; a candidate is retained,
reassembled and tried under key L, and only then consumed or relayed.
-/

namespace BallyDongle.EspNowConfig

open Btp BtpTransport BtpCommand ProtocolRouter SerialMux

def kQueuedPayloadCap : Nat := 616
/-- `RX_LOG_QUEUE_DEPTH`, `RX_TELEMETRY_QUEUE_DEPTH` and `RX_TERMINAL_QUEUE_DEPTH`. -/
def kRoutedQueueDepth : Nat := 16

/-- What a command line run for a peer can reach. -/
structure Dongle (S : SerialMux.Platform) (Manager : Type) where
  mux : Mux S
  manager : Option Manager
  keyL : Option Bytes

structure Platform where
  serial : SerialMux.Platform
  receiver : ReceiverApi
  aeadOpen : RadioSeal.AeadOpen
  Manager : Type
  deviceIndexByMac : Manager → Mac → Option Nat
  addDevice : Manager → Mac → (name description : String) → Manager
  runLine : Dongle serial Manager → Bytes → (userId : String) → Dongle serial Manager × Bytes
  sendLogical : Mux serial → Mac → MessageType → (objectId : UInt16) → Bytes →
    (timestampUs : UInt64) → Mux serial × Bool
  buildRequest : (targetSourceId targetBootId knownRevision : UInt32) → Option Bytes
  manifestReader : ManifestReader

/-- The item of the LOG, TELEMETRY and TERMINAL queues. -/
structure QueuedRoutedMessage where
  mac : Mac
  header : Header
  payload : Bytes
  arrivalMs : UInt64
  size_le : payload.length ≤ kQueuedPayloadCap

inductive QueueId
  | log | telemetry | terminal
  deriving DecidableEq, Repr

structure RxTotals where
  rxDatagram : UInt32 := 0
  fragmentAccepted : UInt32 := 0
  droppedDecode : UInt32 := 0
  droppedCrc : UInt32 := 0
  droppedReassembly : UInt32 := 0
  droppedQueueFull : UInt32 := 0
  droppedAuth : UInt32 := 0
  routedTelemetry : UInt32 := 0
  routedLog : UInt32 := 0
  routedCommand : UInt32 := 0
  routedControl : UInt32 := 0
  routedTerminal : UInt32 := 0
  deriving DecidableEq, Repr

/-- A datagram, and the clock its processing reads. -/
structure Datagram where
  mac : Mac
  data : Bytes
  rssi : Int8
  nowMs : UInt32

/-- What a call did that others can see. -/
inductive RxCall
  | opened (message : RoutedMessage) (plaintext : Bytes)
  | remembered (mac : Mac) (sourceId bootId : UInt32)
  | executed (mac : Mac) (line : Bytes)
  | answered (mac : Mac) (request : Header)
  | resultHandled (mac : Mac) (result : CommandResult)
  | ingested (payload : Bytes)
  | relayedUp (header : Header) (frame : Bytes)

/-- The globals of `EspNowConfig.cpp` and what it works on. `calls` records what
was done; no function reads it. -/
structure State (E : Platform) extends Dongle E.serial E.Manager where
  router : E.receiver.Node
  pending : PendingRelays := fun _ => {}
  queues : QueueId → BoundedQueue QueuedRoutedMessage kRoutedQueueDepth := fun _ => .empty
  totals : RxTotals := {}
  calls : List RxCall := []

namespace State

variable {E : Platform}

def note (s : State E) (call : RxCall) : State E := { s with calls := s.calls ++ [call] }

def setShared (s : State E) (shared : Shared E.serial.World) : State E :=
  { s with mux := { s.mux with shared } }

def countRouted (s : State E) (type : MessageType) : State E :=
  { s with totals :=
      match type with
      | .telemetry => { s.totals with routedTelemetry := s.totals.routedTelemetry + 1 }
      | .log => { s.totals with routedLog := s.totals.routedLog + 1 }
      | .command => { s.totals with routedCommand := s.totals.routedCommand + 1 }
      | .control => { s.totals with routedControl := s.totals.routedControl + 1 }
      | .terminal => { s.totals with routedTerminal := s.totals.routedTerminal + 1 }
      | .invalid => s.totals }

def countDatagram (s : State E) : State E :=
  { s with totals := { s.totals with rxDatagram := s.totals.rxDatagram + 1 } }

def countFragment (s : State E) : State E :=
  { s with totals := { s.totals with fragmentAccepted := s.totals.fragmentAccepted + 1 } }

def dropDecode (s : State E) : State E :=
  { s with totals := { s.totals with droppedDecode := s.totals.droppedDecode + 1 } }

def dropCrc (s : State E) : State E :=
  { s with totals := { s.totals with droppedCrc := s.totals.droppedCrc + 1 } }

def dropReassembly (s : State E) : State E :=
  { s with totals := { s.totals with droppedReassembly := s.totals.droppedReassembly + 1 } }

def dropQueueFull (s : State E) : State E :=
  { s with totals := { s.totals with droppedQueueFull := s.totals.droppedQueueFull + 1 } }

/-! ## Relays -/

/-- Count a datagram and hand it to `SerialMux::relayUp`. -/
def relayUp (s : State E) (header : Header) (frame : Bytes) : State E :=
  let s := s.countRouted header.type
  { s with mux := (s.mux.relayUp header frame).1, calls := s.calls ++ [.relayedUp header frame] }

/-- The datagrams of a message, in fragment order, when none is missing. -/
def datagrams (pending : PendingRelay) : Option (List Bytes) :=
  let indices := List.range pending.fragmentCount.toNat
  if indices.all fun index => (pending.frames index).isSome then
    some (indices.filterMap pending.frames)
  else none

def relayAll (s : State E) (header : Header) (frames : List Bytes) : State E :=
  frames.foldl (fun s frame => s.relayUp header frame) s

def resetSlot (s : State E) (i : Fin kPendingRelaySlots) : State E :=
  { s with pending := Function.update s.pending i {} }

/-- Relay the fragments retained of a message and forget them. -/
def relayPendingUp (s : State E) (header : Header) : State E × Bool :=
  match SlotTable.find PendingRelay.key header.identity s.pending with
  | none => (s, false)
  | some i =>
    match datagrams (s.pending i) with
    | none => (s.resetSlot i, false)
    | some frames => ((s.relayAll header frames).resetSlot i, true)

/-! ## Commands -/

/-- Answer the requester with a `COMMAND_RESULT`. -/
def replyCommandResult (s : State E) (mac : Mac) (requestHeader : Header)
    (actionId actionVersion : UInt16) (status : Status) (errorCode : ErrorCode)
    (message : Bytes) : State E :=
  let res : CommandResult :=
    { request := Mux.requestRef requestHeader, actionId, actionVersion, status := status.code
      errorCode := errorCode.code, message := Mux.cStr (message.take kMaxResultMessageSize)
      result := [] }
  match s.manager, buildResult E.serial.messages res (kResultPrefixSize + kMaxResultMessageSize) with
  | some _, some payload =>
    let (mux, _) := E.sendLogical s.mux mac .command Channels.kCommandResultObjectId payload
      (s.mux.millis.toUInt64 * 1000)
    { s with mux }.note (.answered mac requestHeader)
  | _, _ => s

def macToText (mac : Mac) : List Char :=
  List.intercalate [':'] (mac.toList.map fun octet => Hex.digits 2 octet.toNat)

/-- Octets as the text of a console line. -/
def octetsText (octets : Bytes) : List Char := octets.map fun octet => Char.ofNat octet.toNat

def printTagged (s : State E) (tag : String) (text : List Char) : State E :=
  s.setShared { s.mux.shared with
    world := E.serial.printTagged s.mux.shared.world tag (String.ofList text) }

/-- A peer answered a command of the dongle. -/
def handleRoutedCommandResult (s : State E) (mac : Mac) (routed : RoutedMessage) : State E :=
  match parseResult E.serial.messages routed.header routed.payload with
  | .error _ => s
  | .ok result =>
    let s := s.note (.resultHandled mac result)
    if result.actionId = kPingActionId then
      s.setShared { s.mux.shared with
        peers :=
          notePingReply s.mux.shared.peers mac result.request.replyToSequence s.mux.millis }
    else if !s.mux.isConsoleOwned then
      if s.mux.isProtocolled then
        let terminalText :=
          Mux.kTextOctets ("cmd_result status=" ++ statusString result.status).toList ++
            if result.message = [] then [] else 0x0A :: result.message
        { s with mux := s.mux.writeTerminalResponse terminalText }
      else s
    else
      let s := s.printTagged "cmd_result"
        (macToText mac ++ (" status=" ++ statusString result.status).toList)
      if result.message = [] then s
      else s.printTagged "cmd_result"
        (octetsText (Mux.cStr (result.message.take kMaxResultMessageSize)))

/-- Run a shell line under the identity of a peer. -/
def runLine (s : State E) (mac : Mac) (commandText : Bytes) : State E × Bytes :=
  let userId := String.ofList ("espnow:".toList ++ macToText mac)
  let (dongle, fullOutput) := E.runLine s.toDongle commandText userId
  ({ s with toDongle := dongle }.note (.executed mac commandText), fullOutput)

/-- Run a shell line for a registered peer and answer. -/
def handleRoutedCommandRequest (s : State E) (mac : Mac) (routed : RoutedMessage) : State E :=
  if ((s.manager.bind (E.deviceIndexByMac · mac)).isNone) then s
  else
    match parseRequest E.serial.messages routed.header routed.payload E.serial.sourceId
        E.serial.bootId with
    | .error .wrongTarget => s
    | .error parseError =>
      s.replyCommandResult mac routed.header 0 0 .rejected .malformedPayload
        (Mux.kTextOctets (parseErrorString parseError).toList)
    | .ok request =>
      match copyShellCommand request (kMaxShellCommandSize + 1) with
      | .error copyError =>
        s.replyCommandResult mac routed.header request.actionId request.actionVersion .rejected
          (if copyError = .unsupportedAction then .unsupportedVersion else .invalidArgument)
          (Mux.kTextOctets (parseErrorString copyError).toList)
      | .ok commandText =>
        let (s, fullOutput) := s.runLine mac commandText
        s.replyCommandResult mac routed.header request.actionId request.actionVersion .success
          .none fullOutput

def handleRoutedCommand (s : State E) (mac : Mac) (routed : RoutedMessage) : State E :=
  if routed.header.objectId = Channels.kCommandResultObjectId then
    s.handleRoutedCommandResult mac routed
  else if routed.header.objectId = Channels.kCommandRequestObjectId then
    s.handleRoutedCommandRequest mac routed
  else s

/-! ## Other messages -/

def handleControlItem (s : State E) (routed : RoutedMessage) : State E :=
  if routed.header.objectId = ManifestCache.kManifestDataObjectId then
    let shared := s.mux.shared
    let (manifest, _) :=
      ManifestCache.ingestManifestData E.manifestReader shared.manifest routed.payload s.mux.millis
    (s.setShared { shared with manifest }).note (.ingested routed.payload)
  else s

def queueForType : MessageType → Option QueueId
  | .log => some .log
  | .telemetry => some .telemetry
  | .terminal => some .terminal
  | .control | .command | .invalid => none

def enqueueRouted (s : State E) (queue : Option QueueId) (routed : RoutedMessage) : State E :=
  match queue with
  | none => s
  | some queue =>
    if h : routed.payload.length ≤ kQueuedPayloadCap then
      match (s.queues queue).send
          ⟨routed.mac, routed.header, routed.payload, routed.arrivalMs, h⟩ with
      | some items => { s with queues := Function.update s.queues queue items }
      | none => s.dropQueueFull
    else s.dropQueueFull

def dispatchRouted (s : State E) (mac : Mac) (routed : RoutedMessage) : State E :=
  let s := s.countRouted routed.header.type
  match routed.header.type with
  | .command => s.handleRoutedCommand mac routed
  | .control => s.handleControlItem routed
  | type => s.enqueueRouted (queueForType type) routed

/-- Ask a robot that has no manifest here for its own. -/
def primeManifestIfNeeded (s : State E) (mac : Mac) (header : Header) : State E :=
  if s.manager.isNone then s
  else
    let nowMs := s.mux.millis
    let (manifest, wanted) :=
      ManifestCache.shouldRequestManifest s.mux.shared.manifest header.sourceId header.bootId nowMs
    let s := s.setShared { s.mux.shared with manifest }
    match wanted, E.buildRequest header.sourceId header.bootId 0 with
    | true, some payload =>
      let (mux, _) := E.sendLogical s.mux mac .control SerialSession.kManifestRequestObjectId
        payload (nowMs.toUInt64 * 1000)
      { s with mux := { mux with shared :=
          { mux.shared with manifest := ManifestCache.notePrimeSent mux.shared.manifest } } }
    | _, _ => s

def deliver (s : State E) (mac : Mac) (routed : RoutedMessage) : State E :=
  (s.primeManifestIfNeeded mac routed.header).dispatchRouted mac routed

/-! ## A datagram -/

def hasReference (header : Header) : Bool :=
  (header.type = .command && (header.objectId = Channels.kCommandRequestObjectId ||
    header.objectId = Channels.kCommandResultObjectId)) ||
  (header.type = .control && header.objectId = Channels.kManifestDataObjectId)

def referenceSourceId (header : Header) (plaintext : Bytes) : UInt32 :=
  if hasReference header then (readU32 plaintext 0).getD 0 else 0

/-- Channel B traffic goes up as it came, when there is a desktop to take it. -/
def relayUnopened (s : State E) (ingress : HubRelay.RadioIngress) (data : Bytes)
    (routed : RoutedMessage) : State E :=
  if !s.mux.isProtocolled then s
  else if ingress.header.flags.fragmented then
    match s.relayPendingUp routed.header with
    | (s, true) => s
    | (s, false) => s.dropReassembly
  else s.relayUp ingress.header data

/-- A STATUS that does not open is no endpoint traffic. -/
def countUnauthenticated (s : State E) (header : Header) : State E :=
  if header.type = .control ∧ header.objectId = Channels.kStatusObjectId then
    { s with totals := { s.totals with droppedAuth := s.totals.droppedAuth + 1 } }
  else s

def unopened (s : State E) (ingress : HubRelay.RadioIngress) (data : Bytes)
    (routed : RoutedMessage) : State E :=
  (s.relayUnopened ingress data routed).countUnauthenticated ingress.header

/-- Only a frame that opened makes a peer known. -/
def remember (s : State E) (d : Datagram) (header : Header) : State E :=
  let peers := rememberAuthenticatedPeer s.mux.shared.peers d.mac header.sourceId header.bootId
    d.nowMs d.rssi
  let s := (s.setShared { s.mux.shared with peers := notePeerLinkResult peers d.mac true }).note
    (.remembered d.mac header.sourceId header.bootId)
  match s.manager with
  | none => s
  | some manager =>
    if (E.deviceIndexByMac manager d.mac).isSome then s
    else
      { s with manager := some (E.addDevice manager d.mac (String.ofList (autoName d.mac))
          "adicionado automaticamente por RX ESP-NOW") }

def noteConsumeRejected (s : State E) (header : Header) : State E :=
  if header.type = .control ∧ header.objectId = ManifestCache.kManifestDataObjectId then
    s.setShared { s.mux.shared with
      manifest := ManifestCache.noteConsumeRejected s.mux.shared.manifest }
  else s

def clearPending (s : State E) (header : Header) : State E :=
  { s with pending := clearPendingRelay s.pending header }

/-- The authenticated half: a message that opened is consumed when it names the
dongle, and goes nowhere else otherwise. -/
def opened (s : State E) (d : Datagram) (routed : RoutedMessage) (plaintext : Bytes) : State E :=
  let s := (s.note (.opened routed plaintext)).remember d routed.header
  if Channels.dongleConsumes routed.header.type routed.header.objectId
      (referenceSourceId routed.header plaintext) E.serial.sourceId then
    (s.clearPending routed.header).deliver d.mac { routed with payload := plaintext }
  else (s.noteConsumeRejected routed.header).clearPending routed.header

/-- A candidate that was completed. -/
def tryOpen (s : State E) (routed : RoutedMessage) : Option Bytes :=
  if RadioSeal.kTagSize ≤ routed.payload.length then
    RadioSeal.openL E.aeadOpen s.keyL routed.header routed.payload
  else none

/-- What the reassembler made of the datagram. -/
def onOutcome (s : State E) (d : Datagram) (ingress : HubRelay.RadioIngress) : Outcome → State E
  | .droppedDecode => s.dropDecode
  | .droppedCrc => s.dropCrc
  | .droppedReassembly =>
    (if ingress.mayConsume then s.clearPending ingress.header else s).dropReassembly
  | .fragmentAccepted => s.countFragment
  | .droppedInvalidArgument | .duplicateFragment => s
  | .routed routed =>
    if ingress.mayConsume then
      match s.tryOpen routed with
      | none => s.unopened ingress d.data routed
      | some plaintext => s.opened d routed plaintext
    else s.deliver d.mac routed

/-- A candidate is retained before the reassembler is asked. -/
def retain (s : State E) (d : Datagram) (ingress : HubRelay.RadioIngress) : State E × Bool :=
  if ingress.mayConsume then
    let (pending, kept) := retainPendingRelay s.pending ingress.header d.data d.nowMs
    ({ s with pending }, kept)
  else (s, true)

/-- The candidates, and the console's fallback for the rest. -/
def reassemble (s : State E) (d : Datagram) (ingress : HubRelay.RadioIngress) : State E :=
  match s.retain d ingress with
  | (s, false) => s.dropReassembly
  | (s, true) =>
    let (router, outcome) := submit E.receiver s.router d.mac d.data d.nowMs.toUInt64
    { s with router }.onOutcome d ingress outcome

/-- Retaining touches the table only. -/
theorem retain_frame (s : State E) (d : Datagram) (ingress : HubRelay.RadioIngress) :
    (s.retain d ingress).1 = { s with pending := (s.retain d ingress).1.pending } := by
  unfold retain
  split <;> rfl

def processRxDatagram (s : State E) (d : Datagram) : State E :=
  let s := s.countDatagram
  match HubRelay.classifyRadio E.serial.codec d.data with
  | .error .crcMismatch => s.dropCrc
  | .error .other => s.dropDecode
  | .ok ingress =>
    if !ingress.mayConsume && s.mux.isProtocolled then s.relayUp ingress.header d.data
    else s.reassemble d ingress

end State

/-! ## A bench to run on -/

def benchType : UInt8 → MessageType
  | 1 => .control | 2 => .command | 3 => .terminal | 4 => .log | 5 => .telemetry | _ => .invalid

/-- A radio frame of one octet a field: the type, flags, object, source, boot,
sequence, fragment index and count, then the payload and the room the real header
and its CRC take. -/
def benchFrame (fields payload : Bytes) : Bytes :=
  fields ++ payload ++ List.replicate 32 0

def benchDecode (_ : Transport) (frame : Bytes) : Except DecodeError DecodedFrame :=
  if frame.length < kV1MinimumFrameSize ∨ kEspNowMaxFrameSize < frame.length then .error .other
  else
    match frame with
    | type :: flags :: object :: source :: boot :: sequence :: index :: count :: rest =>
      .ok
        { header :=
            { type := benchType type
              flags :=
                { fragmented := flags &&& 1 != 0, encrypted := flags &&& 2 != 0
                  cipherId := if flags &&& 2 != 0 then .aesGcm else .other 0 }
              sourceId := source.toUInt32, bootId := boot.toUInt32
              sequence := sequence.toUInt32, objectId := object.toUInt16
              fragmentIndex := index, fragmentCount := count }
          payload := rest.take (frame.length - kV1MinimumFrameSize) }
    | _ => .error .other

theorem benchDecode_sized (codec : Codec) (h : codec.decode = benchDecode) : RadioSized codec := by
  intro datagram decoded hd
  rw [h] at hd
  unfold benchDecode at hd
  split at hd
  · cases hd
  · rename_i hsize
    exact ⟨Nat.not_lt.1 fun hlt => hsize (.inl hlt), Nat.not_lt.1 fun hlt => hsize (.inr hlt)⟩

/-- Opens what ends in a tag of the key's octets. -/
def benchAeadOpen : RadioSeal.AeadOpen := fun key _ ciphertextAndTag =>
  let size := ciphertextAndTag.length - RadioSeal.kTagSize
  if ciphertextAndTag.drop size = key then some (ciphertextAndTag.take size) else none

/-- A radio side over the bench of the cable, every peer registered. -/
def bench : Platform where
  serial := { SerialMux.bench with codec := { SerialMux.bench.codec with decode := benchDecode } }
  receiver := benchReceiver { SerialMux.bench.codec with decode := benchDecode }
  aeadOpen := benchAeadOpen
  Manager := Unit
  deviceIndexByMac _ _ := some 0
  addDevice _ _ _ _ := ()
  runLine dongle _ _ := (dongle, [])
  sendLogical mux _ _ _ _ _ := (mux, true)
  buildRequest _ _ _ := none
  manifestReader := Layout.reader

/-- The bench with its session in this state and a key loaded. -/
def benchState (session : SerialSession.SessionState) : State bench where
  mux :=
    { session := { node := ({ state := session } : BenchNode) }, decoder := ()
      terminalShell := (), shared := { world := () } }
  manager := some ()
  keyL := some (List.replicate RadioSeal.kTagSize 0xA5)
  router := fun _ => none

def benchMac : Mac := ⟨#[1, 2, 3, 4, 5, 6], rfl⟩

def benchDatagram (data : Bytes) (nowMs : UInt32) : Datagram :=
  { mac := benchMac, data, rssi := 0, nowMs }

/-- A MANIFEST_DATA of robot 9, sealed under no key of the dongle, in `count`
fragments. -/
def benchFragment (count index : Nat) : Bytes :=
  benchFrame [1, 3, 4, 9, 1, 1, UInt8.ofNat index, UInt8.ofNat count] [UInt8.ofNat index, 0, 0]

def benchFragments (count : Nat) : List Bytes := (List.range count).map (benchFragment count)

end BallyDongle.EspNowConfig
