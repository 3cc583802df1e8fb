import BallyDongle.Channels

/-!
# Command envelopes

`BtpTransport::btp_command`: a `COMMAND_REQUEST` is parsed the same way whether
it came over the cable or the radio. `wrongTarget` means "not for us"; every
other error means "addressed to us but malformed".
-/

namespace BallyDongle.BtpTransport.BtpCommand

open Btp Channels

def kShellActionId : UInt16 := 0x0001
def kShellActionVersion : UInt16 := 0x0001
def kPingActionId : UInt16 := 0x0002
def kMaxShellCommandSize : Nat := 512
def kResultPrefixSize : Nat := 26
def kMaxResultMessageSize : Nat := 400

inductive Status
  | success | rejected | failed | timeout | cancelled | unsupported | busy
  deriving DecidableEq, Repr

def Status.code : Status → UInt8
  | .success => 0 | .rejected => 1 | .failed => 2 | .timeout => 3
  | .cancelled => 4 | .unsupported => 5 | .busy => 6

/-- The status of a received result, by its code. -/
def statusString (code : UInt8) : String :=
  match code with
  | 0 => "success" | 1 => "rejected" | 2 => "failed" | 3 => "timeout"
  | 4 => "cancelled" | 5 => "unsupported" | 6 => "busy"
  | _ => "unknown"

inductive ErrorCode
  | none | malformedPayload | invalidArgument | internalError | unsupportedVersion
  deriving DecidableEq, Repr

def ErrorCode.code : ErrorCode → UInt16
  | .none => 0x0000 | .malformedPayload => 0x0001 | .invalidArgument => 0x0003
  | .internalError => 0x0007 | .unsupportedVersion => 0x0008

inductive ParseError
  | wrongType | wrongObject | invalidEnvelope | payloadTooShort | wrongTarget | invalidAction
  | invalidFlags | sizeMismatch | parametersTooLarge | unsupportedAction | invalidShellText
  | outputTooSmall
  deriving DecidableEq, Repr

def parseErrorString : ParseError → String
  | .wrongType => "not a COMMAND message"
  | .wrongObject => "unexpected command object_id"
  | .invalidEnvelope => "invalid logical envelope"
  | .payloadTooShort => "command payload too short"
  | .wrongTarget => "command target does not match this dongle"
  | .invalidAction => "invalid action identity"
  | .invalidFlags => "command reserved field is nonzero"
  | .sizeMismatch => "command parameter size mismatch"
  | .parametersTooLarge => "command parameters too large"
  | .unsupportedAction => "unsupported action"
  | .invalidShellText => "invalid shell command bytes"
  | .outputTooSmall => "shell output buffer too small"

/-- The parse error a decode error of a request is reported as. -/
def requestError : MessageError → ParseError
  | .payloadTooShort => .payloadTooShort
  | .reservedNotZero => .invalidFlags
  | .trailingBytes | .lengthOverflow => .sizeMismatch
  | .countTooLarge => .parametersTooLarge
  | _ => .invalidEnvelope

def parseRequest (msgs : Messages) (header : Header) (payload : Bytes)
    (localSourceId localBootId : UInt32) : Except ParseError CommandRequest :=
  if header.type ≠ .command then .error .wrongType
  else if header.objectId ≠ kCommandRequestObjectId then .error .wrongObject
  else
    match msgs.decodeCommandRequest payload with
    | .error err => .error (requestError err)
    | .ok cmd =>
      if cmd.targetSourceId ≠ localSourceId ∨ cmd.targetBootId ≠ localBootId then
        .error .wrongTarget
      else if kMaxShellCommandSize < cmd.parameters.length then .error .parametersTooLarge
      else .ok cmd

/-- Octets a shell line may not carry: it is one line, never a batch. -/
def isShellByte (byte : UInt8) : Bool :=
  byte != 0 && byte != 0x0D && byte != 0x0A && byte != 0x7F && (0x20 ≤ byte || byte == 0x09)

def copyShellCommand (request : CommandRequest) (outputCapacity : Nat) :
    Except ParseError Bytes :=
  if request.actionId ≠ kShellActionId ∨ request.actionVersion ≠ kShellActionVersion then
    .error .unsupportedAction
  else if request.parameters = [] ∨ kMaxShellCommandSize < request.parameters.length then
    .error .invalidShellText
  else if outputCapacity ≤ request.parameters.length then .error .outputTooSmall
  else if request.parameters.all isShellByte then .ok request.parameters
  else .error .invalidShellText

def parseResult (msgs : Messages) (header : Header) (payload : Bytes) :
    Except ParseError CommandResult :=
  if header.type ≠ .command then .error .wrongType
  else if header.objectId ≠ kCommandResultObjectId then .error .wrongObject
  else
    match msgs.decodeCommandResult payload with
    | .error .payloadTooShort => .error .payloadTooShort
    | .error _ => .error .sizeMismatch
    | .ok res => .ok res

/-- A `COMMAND_RESULT` payload; `none` when it does not fit. -/
def buildResult (msgs : Messages) (res : CommandResult) (outputCapacity : Nat) : Option Bytes :=
  if kMaxResultMessageSize < res.message.length then none
  else msgs.encodeCommandResult res outputCapacity

end BallyDongle.BtpTransport.BtpCommand
