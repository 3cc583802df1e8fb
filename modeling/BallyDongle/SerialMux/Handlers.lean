import BallyDongle.SerialMux.State

/-!
# Frames from the desktop

The handlers of `SerialMux.cpp`, one for each object the session delivers, and
`dispatchFrame`, which asks the session what a frame is. A frame whose
`source_id` is bound to a robot goes to `relayDown`; the handlers differ in how
soon they look.
-/

namespace BallyDongle.SerialMux.Mux

open Btp SerialSession BtpTransport BtpCommand

variable {P : Platform}

/-! ## Shell -/

/-- Run a line under the "serial" identity. -/
def runShell (m : Mux P) (run : Shared P.World → Bytes → Shared P.World × Bytes) (line : Bytes) :
    Mux P × Bytes :=
  let (shared, fullOutput) := run m.shared line
  ({ m with shared, shellLines := m.shellLines ++ [line] }, fullOutput)

/-- The text a `const char*` stands for. -/
def cStr (text : Bytes) : Bytes := text.takeWhile (· != 0)

def requestRef (header : Header) : RequestRef :=
  { requestSourceId := header.sourceId, requestBootId := header.bootId
    replyToSequence := header.sequence }

def replyCommandResult (m : Mux P) (requestHeader : Header) (actionId actionVersion : UInt16)
    (status : Status) (errorCode : ErrorCode) (message : Bytes) : Mux P :=
  let res : CommandResult :=
    { request := requestRef requestHeader, actionId, actionVersion, status := status.code
      errorCode := errorCode.code, message := cStr (message.take kMaxResultMessageSize)
      result := [] }
  match buildResult P.messages res (kResultPrefixSize + kMaxResultMessageSize) with
  | none => m
  | some payload => (m.enqueueOwn .command Channels.kCommandResultObjectId payload).1

def handleCommandRequest (m : Mux P) (decoded : DecodedFrame) : Mux P :=
  match parseRequest P.messages decoded.header decoded.payload P.sourceId P.bootId with
  | .error .wrongTarget => (m.relayDown decoded).1
  | .error parseError =>
    m.replyCommandResult decoded.header 0 0 .rejected .malformedPayload
      (kTextOctets (parseErrorString parseError).toList)
  | .ok request =>
    match copyShellCommand request (kMaxShellCommandSize + 1) with
    | .error copyError =>
      m.replyCommandResult decoded.header request.actionId request.actionVersion .rejected
        (if copyError = .unsupportedAction then .unsupportedVersion else .invalidArgument)
        (kTextOctets (parseErrorString copyError).toList)
    | .ok commandText =>
      match P.runShellLine with
      | none =>
        m.replyCommandResult decoded.header request.actionId request.actionVersion .failed
          .internalError (kTextOctets "shell indisponivel".toList)
      | some run =>
        let (m, fullOutput) := m.runShell run commandText
        m.replyCommandResult decoded.header request.actionId request.actionVersion .success .none
          fullOutput

/-! ## Terminal -/

/-- A bound child types at its robot, whether or not the radio can reach it. -/
def handleTerminalIn (m : Mux P) (decoded : DecodedFrame) : Mux P :=
  if decoded.payload = [] then m
  else
    match HubRegistry.lookup m.shared.hub decoded.header.sourceId with
    | some _ => (m.relayDown decoded).1
    | none => { m with terminalShell := P.editor.feed m.terminalShell decoded.payload }

/-- Pieces of at most `kOutboundPayloadCap` octets. -/
def chunks (text : Bytes) : List Bytes :=
  if text = [] then []
  else text.take kOutboundPayloadCap :: chunks (text.drop kOutboundPayloadCap)
termination_by text.length
decreasing_by
  rename_i h
  have := List.length_pos_of_ne_nil h
  rw [List.length_drop, kOutboundPayloadCap]
  omega

def enqueueTerminal (m : Mux P) (text : Bytes) : Mux P :=
  (chunks text).foldl (fun m chunk => (m.enqueueOwn .terminal kTerminalOutObjectId chunk).1) m

def flushTerminalPtyOutput (m : Mux P) : Mux P :=
  { m.enqueueTerminal m.terminalOut with terminalOut := [] }

/-- Run a line completed in the editor and write its response. -/
def answerLine (m : Mux P) (line : Bytes) : Mux P :=
  let (m, fullOutput) :=
    match P.runShellLine with
    | none => (m, [])
    | some run => m.runShell run (cStr line)
  let (ed, text) :=
    if fullOutput = [] then P.editor.refreshLine m.terminalShell
    else P.editor.writeResponse m.terminalShell (P.renderResponse fullOutput)
  { m with terminalShell := ed, terminalOut := m.terminalOut ++ text }

theorem answerLine_buffered (m : Mux P) (line : Bytes) :
    P.editor.buffered (m.answerLine line).terminalShell ≤ P.editor.buffered m.terminalShell := by
  unfold answerLine
  cases P.runShellLine with
  | none => exact P.editor.refreshLine_le _
  | some run =>
    dsimp only [runShell]
    split
    · exact P.editor.refreshLine_le _
    · exact P.editor.writeResponse_le _ _

/-- Poll the lines the editor completed, answering each. -/
def pollLines (m : Mux P) : Mux P :=
  match _h : P.editor.poll m.terminalShell with
  | (ed, echo, none) => { m with terminalShell := ed, terminalOut := m.terminalOut ++ echo }
  | (ed, echo, some line) =>
    pollLines
      (answerLine { m with terminalShell := ed, terminalOut := m.terminalOut ++ echo } line)
termination_by P.editor.buffered m.terminalShell
decreasing_by
  exact Nat.lt_of_le_of_lt (answerLine_buffered _ _) (P.editor.poll_lt _ _ _ _ _h)

def pumpTerminalShell (m : Mux P) : Mux P := m.pollLines.flushTerminalPtyOutput

/-! ## Catalog -/

/-- The response about a robot wears the robot's id; the dongle's own do not. -/
def handleManifestRequest (m : Mux P) (decoded : DecodedFrame) : Mux P :=
  match P.messages.decodeManifestRequest decoded.payload with
  | .error _ => m
  | .ok request =>
    let enqueue (m : Mux P) (payload : Option Bytes) (stampAs : UInt32) : Mux P :=
      match payload with
      | none => m
      | some payload =>
        (m.enqueueOwn .control ManifestCache.kManifestDataObjectId payload stampAs).1
    if request.targetSourceId = 0 then
      (List.range (ManifestCache.enumerationCount m.shared.manifest)).foldl
        (fun m index =>
          enqueue m
            (ManifestCache.buildEnumerationResponse P.manifestWriter P.identity m.shared.manifest
              index decoded.header kOutboundPayloadCap) 0) m
    else
      let (manifest, payload) :=
        ManifestCache.buildTargetedResponse P.manifestWriter P.identity m.shared.manifest request
          decoded.header kOutboundPayloadCap
      enqueue { m with shared := { m.shared with manifest } } payload
        (if request.targetSourceId ≠ P.sourceId then request.targetSourceId else 0)

/-! ## Subscriptions -/

/-- The session's client, as the registry names it. -/
def currentClientId (m : Mux P) : UInt32 := m.session.peerSourceId

def replySubscribe (m : Mux P) (header : Header) (reply : SubscribeReply) : Mux P :=
  let result : SubscribeResult :=
    { request := requestRef header, status := reply.status, errorCode := reply.errorCode
      subscriptionId := reply.subscriptionId, effectiveRateMillihz := reply.effectiveRateMillihz
      grantedLeaseMs := reply.grantedLeaseMs }
  match P.messages.encodeSubscribeResult result 28 with
  | none => m
  | some payload => (m.enqueueOwn .control kSubscribeResultObjectId payload).1

def handleSubscribeRequest (m : Mux P) (decoded : DecodedFrame) : Mux P :=
  match HubRegistry.lookup m.shared.hub decoded.header.sourceId with
  | some _ => (m.relayDown decoded).1
  | none =>
    match P.messages.decodeSubscribe decoded.payload with
    | .ok sub =>
      let (topics, reply) :=
        m.topics.subscribe P.sourceId m.shared.manifest m.currentClientId sub m.millis
      replySubscribe { m with topics } decoded.header reply
    | .error .zeroField =>
      m.replySubscribe decoded.header { status := 0x01, errorCode := 0x0003 }
    | .error _ => m

def replyUnsubscribe (m : Mux P) (header : Header) : Mux P :=
  let result : ControlResult := { request := requestRef header, status := 0, errorCode := 0 }
  match P.messages.encodeUnsubscribeResult result 16 with
  | none => m
  | some payload => (m.enqueueOwn .control kUnsubscribeResultObjectId payload).1

def handleUnsubscribeRequest (m : Mux P) (decoded : DecodedFrame) : Mux P :=
  match HubRegistry.lookup m.shared.hub decoded.header.sourceId with
  | some _ => (m.relayDown decoded).1
  | none =>
    match readU32 decoded.payload 8 with
    | none => m
    | some subscriptionId =>
      let topics := m.topics.unsubscribe P.sourceId m.currentClientId subscriptionId m.millis
      replyUnsubscribe { m with topics } decoded.header

/-! ## Dispatch -/

/-- The handler of an object the session delivered. -/
def handleObject (m : Mux P) (decoded : DecodedFrame) : FrameOutcome → Mux P
  | .commandRequest => m.handleCommandRequest decoded
  | .terminalIn => m.handleTerminalIn decoded
  | .manifestRequest => m.handleManifestRequest decoded
  | .subscribeRequest => m.handleSubscribeRequest decoded
  | .unsubscribeRequest => m.handleUnsubscribeRequest decoded
  | _ => m

/-- A fresh session: its HELLO_RESULT, and a terminal with nothing left in it. -/
def acceptHello (m : Mux P) (helloResult : Bytes) (nowMs : UInt32) : Mux P :=
  let m := (m.enqueueFrame (classify .control kHelloResultObjectId) helloResult).1
  let (ed, prompt) := P.editor.refreshLine (P.editor.reset m.terminalShell)
  flushTerminalPtyOutput { m with lastStatusMs := nowMs, terminalShell := ed, terminalOut := prompt }

/-- One decoded frame. A fragment is refused: the cable carries whole messages. -/
def dispatchFrame (m : Mux P) (decoded : DecodedFrame) (nowMs : UInt32) : Mux P :=
  if decoded.header.flags.fragmented then
    { m with rx := { m.rx with reassemblyRejected := m.rx.reassemblyRejected + 1 } }
  else
    let (session, outcome, pendingFrame) := m.session.onFrame decoded nowMs.toUInt64
    let m := { m with session }
    match outcome with
    | .ignored => m
    | .helloAccepted => m.acceptHello pendingFrame nowMs
    | .helloRejected | .sessionClosed => m.finalizeToConsole pendingFrame consoleLine
    | outcome => m.handleObject decoded outcome

end BallyDongle.SerialMux.Mux
