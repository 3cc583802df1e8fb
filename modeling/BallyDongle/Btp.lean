import Mathlib.Data.List.Basic

/-!
# The `btp` library as the firmware sees it

`components/btp` is fetched by the build, so only its interface is here: the
header, frame and message types with the fields the firmware reads, the wire
constants it names, and the functions it calls, as the fields of `Codec` and
`Messages`. Octet strings are lists of `UInt8`; a call that writes into a
caller's buffer takes the buffer's capacity and returns the octets written, or
`none` for any error other than `Ok`.
-/

namespace BallyDongle.Btp

abbrev Bytes := List UInt8

inductive MessageType
  | control | command | terminal | log | telemetry | invalid
  deriving DecidableEq, Repr

/-- `btp::cipher_id`: the cipher named by the flag word of a frame. -/
inductive CipherId
  | aesGcm
  | other (code : UInt8)
  deriving DecidableEq, Repr

/-- The flag word: `kFlagFragmented`, `kFlagEncrypted` and the `CIPHER_ID` bits. -/
structure Flags where
  fragmented : Bool := false
  encrypted : Bool := false
  cipherId : CipherId := .other 0
  deriving DecidableEq, Repr

structure Header where
  type : MessageType
  flags : Flags := {}
  sourceId : UInt32
  bootId : UInt32
  sequence : UInt32
  timestampUs : UInt64 := 0
  objectId : UInt16
  fragmentIndex : UInt8 := 0
  fragmentCount : UInt8 := 1
  deriving DecidableEq, Repr

/-- What the fragments of one message share; `btp::Reassembler` keys on it. -/
structure Identity where
  sourceId : UInt32
  bootId : UInt32
  sequence : UInt32
  deriving DecidableEq, Repr

def Header.identity (header : Header) : Identity :=
  { sourceId := header.sourceId, bootId := header.bootId, sequence := header.sequence }

structure DecodedFrame where
  header : Header
  payload : Bytes
  deriving DecidableEq, Repr

/-- The two `TransportLimits` the firmware encodes and decodes on. -/
inductive Transport
  | espNow | serial
  deriving DecidableEq, Repr

def kEspNowMaxPayloadSize : Nat := 210
def kEspNowMaxFrameSize : Nat := 250
def kV1MinimumFrameSize : Nat := 40
def kSerialMaxPayloadSize : Nat := 4056

/-- The errors of `btp::decode` the firmware tells apart. -/
inductive DecodeError
  | crcMismatch | other
  deriving DecidableEq, Repr

/-- The codec entry points. -/
structure Codec where
  decode : Transport → Bytes → Except DecodeError DecodedFrame
  encode : Transport → DecodedFrame → (outCapacity : Nat) → Option Bytes
  cobsEncode : Bytes → (outCapacity : Nat) → Option Bytes

/-- What the firmware relies on of the COBS encoder: it succeeds when the buffer
has the documented room, and never emits the delimiter. -/
structure CobsLaws (codec : Codec) : Prop where
  succeeds : ∀ data outCapacity, data ≠ [] → data.length + data.length / 254 + 1 ≤ outCapacity →
    (codec.cobsEncode data outCapacity).isSome = true
  no_zero : ∀ data outCapacity encoded, codec.cobsEncode data outCapacity = some encoded →
    0 ∉ encoded

/-- A datagram that decodes has the size of a radio frame. -/
def RadioSized (codec : Codec) : Prop :=
  ∀ datagram decoded, codec.decode .espNow datagram = .ok decoded →
    kV1MinimumFrameSize ≤ datagram.length ∧ datagram.length ≤ kEspNowMaxFrameSize

/-! ## Messages -/

/-- The decode errors the firmware tells apart. -/
inductive MessageError
  | payloadTooShort | reservedNotZero | trailingBytes | lengthOverflow | countTooLarge
  | zeroField | invalidValue | notAscending | other
  deriving DecidableEq, Repr

/-- The request a result answers. -/
structure RequestRef where
  requestSourceId : UInt32
  requestBootId : UInt32
  replyToSequence : UInt32
  deriving DecidableEq, Repr

structure CommandRequest where
  targetSourceId : UInt32
  targetBootId : UInt32
  actionId : UInt16
  actionVersion : UInt16
  parameters : Bytes
  deriving DecidableEq, Repr

structure CommandResult where
  request : RequestRef
  actionId : UInt16
  actionVersion : UInt16
  status : UInt8
  errorCode : UInt16
  message : Bytes
  result : Bytes
  deriving DecidableEq, Repr

structure ManifestRequest where
  targetSourceId : UInt32
  targetBootId : UInt32
  knownConfigRevision : UInt32
  deriving DecidableEq, Repr

structure Subscribe where
  targetSourceId : UInt32
  topicId : UInt32
  requestedRateMillihz : UInt32
  requestedLeaseMs : UInt32
  deriving DecidableEq, Repr

structure SubscribeResult where
  request : RequestRef
  status : UInt8
  errorCode : UInt16
  subscriptionId : UInt32
  effectiveRateMillihz : UInt32
  grantedLeaseMs : UInt32
  deriving DecidableEq, Repr

structure ControlResult where
  request : RequestRef
  status : UInt8
  errorCode : UInt16
  deriving DecidableEq, Repr

/-- The counters of a `STATUS` message that the firmware fills in. -/
structure StatusCounters where
  uptimeUs : UInt64
  framesRx : UInt64
  framesTx : UInt64
  framesDropped : UInt64
  crcErrors : UInt64
  decodeErrors : UInt64
  reassemblyRejected : UInt64
  telemetryDropped : UInt64
  deriving DecidableEq, Repr

structure TopicStatusRecord where
  sourceId : UInt32
  topicId : UInt16
  subscriberCount : UInt16
  effectiveRateMillihz : UInt32
  bytesTotal : UInt64
  samplesDroppedTotal : UInt64
  deriving DecidableEq, Repr

/-- `btp/messages.hpp`: the payload layouts. -/
structure Messages where
  decodeCommandRequest : Bytes → Except MessageError CommandRequest
  decodeCommandResult : Bytes → Except MessageError CommandResult
  decodeManifestRequest : Bytes → Except MessageError ManifestRequest
  decodeSubscribe : Bytes → Except MessageError Subscribe
  encodeCommandResult : CommandResult → (outCapacity : Nat) → Option Bytes
  encodeSubscribeResult : SubscribeResult → (outCapacity : Nat) → Option Bytes
  encodeUnsubscribeResult : ControlResult → (outCapacity : Nat) → Option Bytes
  encodeStatusV1 : StatusCounters → (outCapacity : Nat) → Option Bytes
  encodeStatusV2 : StatusCounters → List TopicStatusRecord → (outCapacity : Nat) → Option Bytes

/-! ## Little-endian reads -/

/-- The little-endian `u32` at `offset`, when the octets are there. -/
def readU32 (data : Bytes) (offset : Nat) : Option UInt32 :=
  match data.drop offset with
  | b0 :: b1 :: b2 :: b3 :: _ =>
    some (b0.toUInt32 ||| b1.toUInt32 <<< 8 ||| b2.toUInt32 <<< 16 ||| b3.toUInt32 <<< 24)
  | _ => none

/-- The little-endian `u16` at `offset`, when the octets are there. -/
def readU16 (data : Bytes) (offset : Nat) : Option UInt16 :=
  match data.drop offset with
  | b0 :: b1 :: _ => some (b0.toUInt16 ||| b1.toUInt16 <<< 8)
  | _ => none

def le16 (v : UInt16) : Bytes := [v.toUInt8, (v >>> 8).toUInt8]

def le32 (v : UInt32) : Bytes :=
  [v.toUInt8, (v >>> 8).toUInt8, (v >>> 16).toUInt8, (v >>> 24).toUInt8]

/-- Bit `i` of a word, found in the octet that starts at bit `k`. -/
theorem getLsbD_add_sub {w : Nat} (v : BitVec w) {i : Nat} (hi : i < w) (k : Nat) (hk : k ≤ i) :
    v.getLsbD (k + (i - k)) = v[i] := by
  rw [Nat.add_sub_cancel' hk, BitVec.getLsbD_eq_getElem hi]

theorem readU16_le16 (v : UInt16) (rest : Bytes) : readU16 (le16 v ++ rest) 0 = some v := by
  have hv : v.toUInt8.toUInt16 ||| (v >>> 8).toUInt8.toUInt16 <<< 8 = v := by
    apply UInt16.eq_of_toBitVec_eq
    simp only [UInt16.toBitVec_or, UInt16.toBitVec_shiftLeft, UInt8.toBitVec_toUInt16,
      UInt16.toBitVec_toUInt8, UInt16.toBitVec_shiftRight]
    ext i hi
    have hbit := fun k => getLsbD_add_sub v.toBitVec hi k
    simp
    grind
  exact congrArg some hv

theorem readU32_le32 (v : UInt32) (rest : Bytes) : readU32 (le32 v ++ rest) 0 = some v := by
  have hv : v.toUInt8.toUInt32 ||| (v >>> 8).toUInt8.toUInt32 <<< 8 |||
      (v >>> 16).toUInt8.toUInt32 <<< 16 ||| (v >>> 24).toUInt8.toUInt32 <<< 24 = v := by
    apply UInt32.eq_of_toBitVec_eq
    simp only [UInt32.toBitVec_or, UInt32.toBitVec_shiftLeft, UInt8.toBitVec_toUInt32,
      UInt32.toBitVec_toUInt8, UInt32.toBitVec_shiftRight]
    ext i hi
    have hbit := fun k => getLsbD_add_sub v.toBitVec hi k
    simp
    grind
  exact congrArg some hv

end BallyDongle.Btp
