import BallyDongle.Btp.CommandLayout
import BallyDongle.BtpTransport.BtpCommand
import BallyDongle.BtpTransport.PeerTable

/-!
# Commands for peers

`sendShellCommandRequest` of `EspNowCommands.cpp`, with the addressed peer's side: the
request is parsed and its text copied out. What arrives is the text that was given, cut to
`kMaxShellCommandSize` octets (`receive_sent`).
-/

namespace BallyDongle.BtpTransport

open Btp

def kMaxLogicalPayloadSize : Nat := 600

/-- A message given to the endpoint. -/
structure LogicalMessage where
  type : MessageType
  objectId : UInt16
  timestampUs : UInt64
  payload : Bytes
  deriving DecidableEq, Repr

/-- `sendLogicalWithStatus`: the message sent and whether all of it was delivered. The
endpoint's `send_logical` seals, cuts and sends a message, or refuses it. -/
def sendLogicalWithStatus (endpoint : Mac → LogicalMessage → Option Bool) (mac : Mac)
    (message : LogicalMessage) : Option (LogicalMessage × Bool) :=
  if kMaxLogicalPayloadSize < message.payload.length then none
  else (endpoint mac message).map fun allDelivered => (message, allDelivered)

end BallyDongle.BtpTransport

namespace BallyDongle.EspNowCommands

open Btp Channels BtpTransport BtpTransport.BtpCommand

def shellCommandPayload (targetSourceId targetBootId : UInt32) (commandText : Bytes) : Bytes :=
  let textLen :=
    if commandText.length < kMaxShellCommandSize then commandText.length else kMaxShellCommandSize
  le32 targetSourceId ++ (le32 targetBootId ++ (le16 kShellActionId ++ (le16 kShellActionVersion ++
    ([0, 0] ++ ([0, 0] ++ (le32 (UInt32.ofNat textLen) ++ commandText.take textLen))))))

def sendShellCommandRequest (endpoint : Mac → LogicalMessage → Option Bool) (peers : PeerTable)
    (millis : UInt32) (mac : Mac) (commandText : Bytes) : Option (LogicalMessage × Bool) :=
  match lookupPeer peers mac with
  | none => none
  | some (targetSourceId, targetBootId) =>
    sendLogicalWithStatus endpoint mac
      { type := .command, objectId := kCommandRequestObjectId
        timestampUs := millis.toUInt64 * 1000
        payload := shellCommandPayload targetSourceId targetBootId commandText }

/-- The peer's side: `parse_request`, then `copy_shell_command`. -/
def receiveShellCommand (msgs : Messages) (header : Header) (payload : Bytes)
    (localSourceId localBootId : UInt32) (outputCapacity : Nat) : Except ParseError Bytes :=
  match parseRequest msgs header payload localSourceId localBootId with
  | .error err => .error err
  | .ok request => copyShellCommand request outputCapacity

/-! ## What arrives -/

section sent

variable {msgs : Messages} {header : Header} {source boot : UInt32} {text : Bytes} {capacity : Nat}

theorem shellCommandPayload_eq (source boot : UInt32) (text : Bytes) :
    shellCommandPayload source boot text =
      putCommandRequest ⟨source, boot, kShellActionId, kShellActionVersion,
        text.take kMaxShellCommandSize⟩ := by
  rw [shellCommandPayload, putCommandRequest]
  split
  case isTrue hshort =>
    have htake : text.take kMaxShellCommandSize = text := List.take_of_length_le (by omega)
    simp [htake, le16]
  case isFalse hlong =>
    have hlength : (text.take kMaxShellCommandSize).length = kMaxShellCommandSize := by
      rw [List.length_take]
      omega
    simp [hlength, le16]

theorem copyShellCommand_eq_ok {request : CommandRequest} {received : Bytes} :
    copyShellCommand request capacity = .ok received ↔
      request.actionId = kShellActionId ∧ request.actionVersion = kShellActionVersion ∧
        request.parameters ≠ [] ∧ request.parameters.length ≤ kMaxShellCommandSize ∧
        request.parameters.length < capacity ∧ request.parameters.all isShellByte = true ∧
        request.parameters = received := by
  rw [copyShellCommand]
  constructor
  · intro h
    split_ifs at h with haction hsize hroom hall
    cases h
    obtain ⟨hid, hversion⟩ := not_or.mp haction
    obtain ⟨hempty, hlong⟩ := not_or.mp hsize
    exact ⟨not_not.mp hid, not_not.mp hversion, hempty, Nat.not_lt.mp hlong, Nat.not_le.mp hroom,
      hall, rfl⟩
  · rintro ⟨hid, hversion, hempty, hshort, hroom, hall, rfl⟩
    rw [if_neg (by simp [hid, hversion]), if_neg (not_or.mpr ⟨hempty, Nat.not_lt.mpr hshort⟩),
      if_neg (Nat.not_le.mpr hroom), if_pos hall]

theorem sent_message {endpoint : Mac → LogicalMessage → Option Bool} {peers : PeerTable}
    {millis : UInt32} {mac : Mac} {message : LogicalMessage} {delivered : Bool}
    (hpeer : lookupPeer peers mac = some (source, boot))
    (hsent : sendShellCommandRequest endpoint peers millis mac text = some (message, delivered)) :
    message =
        { type := .command, objectId := kCommandRequestObjectId
          timestampUs := millis.toUInt64 * 1000, payload := shellCommandPayload source boot text } ∧
      endpoint mac message = some delivered := by
  rw [sendShellCommandRequest, hpeer] at hsent
  simp only [sendLogicalWithStatus] at hsent
  split_ifs at hsent
  obtain ⟨allDelivered, hendpoint, heq⟩ := Option.map_eq_some_iff.mp hsent
  cases heq
  exact ⟨rfl, hendpoint⟩

/-- The peer gets the head of the text, when that is a line it accepts. -/
theorem receive_sent (laws : CommandRequestLaws msgs) (htype : header.type = .command)
    (hobject : header.objectId = kCommandRequestObjectId) {received : Bytes} :
    receiveShellCommand msgs header (shellCommandPayload source boot text) source boot capacity =
        .ok received ↔
      source ≠ 0 ∧ boot ≠ 0 ∧ text ≠ [] ∧ min kMaxShellCommandSize text.length < capacity ∧
        (text.take kMaxShellCommandSize).all isShellByte = true ∧
        text.take kMaxShellCommandSize = received := by
  have hsize : (text.take kMaxShellCommandSize).length ≤ kMaxShellCommandSize := by
    rw [List.length_take]
    omega
  rw [shellCommandPayload_eq, receiveShellCommand, parseRequest, if_neg (not_not.mpr htype),
    if_neg (not_not.mpr hobject)]
  by_cases hzero : source = 0 ∨ boot = 0
  case pos =>
    -- no request has a zero id, so the peer parsed nothing
    have hnone : ∀ r, msgs.decodeCommandRequest (putCommandRequest ⟨source, boot, kShellActionId,
        kShellActionVersion, text.take kMaxShellCommandSize⟩) ≠ .ok r := by
      intro r hr
      obtain ⟨hput, hsource, hboot⟩ := laws.of_decode _ r hr
      rw [← Layout.putCommandRequest_injective hput] at hsource hboot
      exact hzero.elim hsource hboot
    refine ⟨fun hreceived => ?_, fun h => absurd hzero (not_or.mpr ⟨h.1, h.2.1⟩)⟩
    split at hreceived
    · cases hreceived
    · rename_i request hparsed
      split at hparsed
      · cases hparsed
      · exact absurd ‹_› (hnone _)
  case neg =>
    obtain ⟨hsource, hboot⟩ := not_or.mp hzero
    have hfits : (text.take kMaxShellCommandSize).length ≤ kMaxParameterSize := by
      simp only [kMaxShellCommandSize, kMaxParameterSize] at hsize ⊢
      omega
    have haction : kShellActionId ≠ 0 := by decide
    have hversion : kShellActionVersion ≠ 0 := by decide
    have hempty : text.take kMaxShellCommandSize = [] ↔ text = [] := by simp [kMaxShellCommandSize]
    rw [laws.decodes _ hsource hboot haction hversion hfits]
    have hshort := Nat.not_lt.mpr hsize
    simp only [ne_eq, not_true_eq_false, or_self, if_false, hshort, copyShellCommand_eq_ok, hempty,
      hsize, true_and]
    simp only [List.length_take, hsource, hboot, not_false_eq_true, true_and]

/-- What was sent to a known peer runs there as it was typed or not at all, unless it was cut
and its head is a line of its own. -/
theorem runs_as_typed_iff (laws : CommandRequestLaws msgs)
    {endpoint : Mac → LogicalMessage → Option Bool} {peers : PeerTable} {millis : UInt32} {mac : Mac}
    {message : LogicalMessage} {delivered : Bool}
    (hpeer : lookupPeer peers mac = some (source, boot))
    (hsent : sendShellCommandRequest endpoint peers millis mac text = some (message, delivered))
    (htype : header.type = message.type) (hobject : header.objectId = message.objectId) :
    (∀ received,
        receiveShellCommand msgs header message.payload source boot capacity = .ok received →
          received = text) ↔
      text.length ≤ kMaxShellCommandSize ∨
        (text.take kMaxShellCommandSize).all isShellByte = false ∨
        capacity ≤ kMaxShellCommandSize ∨ source = 0 ∨ boot = 0 := by
  obtain ⟨rfl, -⟩ := sent_message hpeer hsent
  simp only [receive_sent laws htype hobject]
  constructor
  · intro htyped
    by_contra hcut
    obtain ⟨hlong, hall, hroom, hsource, hboot⟩ : kMaxShellCommandSize < text.length ∧
        (text.take kMaxShellCommandSize).all isShellByte = true ∧ kMaxShellCommandSize < capacity ∧
        source ≠ 0 ∧ boot ≠ 0 := by
      simpa using hcut
    have hne : text ≠ [] := List.ne_nil_of_length_pos (by omega)
    have hhead := htyped _ ⟨hsource, hboot, hne, by omega, hall, rfl⟩
    have := congrArg List.length hhead
    rw [List.length_take] at this
    omega
  · rintro hcond received ⟨hsource, hboot, hne, hroom, hall, rfl⟩
    rcases hcond with hshort | hbad | hsmall | hzero | hzero
    · exact List.take_of_length_le hshort
    · rw [hall] at hbad
      cases hbad
    · exact List.take_of_length_le (by omega)
    · exact absurd hzero hsource
    · exact absurd hzero hboot

/-- A dongle that has heard one peer. -/
def heardPeer : PeerTable := rememberAuthenticatedPeer PeerTable.init (Vector.replicate 6 1) 7 9 0 0

def commandHeader : Header where
  type := .command
  sourceId := 2
  bootId := 1
  sequence := 5
  objectId := kCommandRequestObjectId

theorem runs_as_typed_iff_help :
    (∀ received,
        receiveShellCommand Layout.layoutMessages commandHeader
            (shellCommandPayload 7 9 (literal "help")) 7 9 513 = .ok received →
          received = literal "help") ↔
      (literal "help").length ≤ kMaxShellCommandSize ∨
        ((literal "help").take kMaxShellCommandSize).all isShellByte = false ∨
        513 ≤ kMaxShellCommandSize ∨ (7 : UInt32) = 0 ∨ (9 : UInt32) = 0 := by
  have hpeer : lookupPeer heardPeer (Vector.replicate 6 1) = some (7, 9) := by decide +kernel
  have hsent : sendShellCommandRequest (fun _ _ => some true) heardPeer 0 (Vector.replicate 6 1)
      (literal "help") =
        some (⟨.command, kCommandRequestObjectId, 0, shellCommandPayload 7 9 (literal "help")⟩, true) := by
    decide +kernel
  exact runs_as_typed_iff (Layout.decodeCommandRequest_laws rfl) hpeer hsent rfl rfl

/-- A text of 513 octets is sent, and another one runs. -/
theorem long_text_is_cut :
    ∃ message received,
      sendShellCommandRequest (fun _ _ => some true) heardPeer 0 (Vector.replicate 6 1)
          (List.replicate 513 0x61) = some (message, true) ∧
        lookupPeer heardPeer (Vector.replicate 6 1) = some (7, 9) ∧
        receiveShellCommand Layout.layoutMessages commandHeader message.payload 7 9
          (kMaxShellCommandSize + 1) = .ok received ∧ received ≠ List.replicate 513 0x61 := by
  refine ⟨⟨.command, kCommandRequestObjectId, 0, shellCommandPayload 7 9 (List.replicate 513 0x61)⟩,
    List.replicate 512 0x61, by decide +kernel, by decide +kernel, ?_, by decide +kernel⟩
  rw [receive_sent (Layout.decodeCommandRequest_laws rfl) rfl rfl]
  decide +kernel

end sent

end BallyDongle.EspNowCommands
