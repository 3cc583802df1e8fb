import BallyDongle.Btp.ManifestLayout

/-!
# The layout of COMMAND_REQUEST

A prefix of twenty octets (the target, the action, two zero words, the size of the
parameters), then the parameters. `CommandRequestLaws` is what the firmware relies on:
decoding undoes this layout and accepts nothing else.
-/

namespace BallyDongle.Btp

/-- The largest parameters on the wire. -/
def kMaxParameterSize : Nat := 32768

def putCommandRequest (r : CommandRequest) : Bytes :=
  le32 r.targetSourceId ++ (le32 r.targetBootId ++ (le16 r.actionId ++ (le16 r.actionVersion ++
    (le16 0 ++ (le16 0 ++ (le32 (UInt32.ofNat r.parameters.length) ++ r.parameters))))))

structure CommandRequestLaws (msgs : Messages) : Prop where
  decodes : ∀ r : CommandRequest, r.targetSourceId ≠ 0 → r.targetBootId ≠ 0 → r.actionId ≠ 0 →
    r.actionVersion ≠ 0 → r.parameters.length ≤ kMaxParameterSize →
      msgs.decodeCommandRequest (putCommandRequest r) = .ok r
  of_decode : ∀ payload r, msgs.decodeCommandRequest payload = .ok r →
    payload = putCommandRequest r ∧ r.targetSourceId ≠ 0 ∧ r.targetBootId ≠ 0

namespace Layout

def takeCommandRequest (data : Bytes) : Option CommandRequest := do
  let (targetSourceId, data) ← take32 data
  let (targetBootId, data) ← take32 data
  let (actionId, data) ← take16 data
  let (actionVersion, data) ← take16 data
  let (_, data) ← take16 data
  let (_, data) ← take16 data
  let (_, data) ← take32 data
  return { targetSourceId, targetBootId, actionId, actionVersion, parameters := data }

theorem takeCommandRequest_put (r : CommandRequest) :
    takeCommandRequest (putCommandRequest r) = some r := by
  rw [takeCommandRequest, putCommandRequest]
  simp only [↓bind_take32, ↓bind_take16]
  rfl

theorem putCommandRequest_injective : Function.Injective putCommandRequest := by
  intro r r' h
  have hread := congrArg takeCommandRequest h
  rw [takeCommandRequest_put, takeCommandRequest_put] at hread
  exact Option.some.inj hread

/-- A decoder of the layout. -/
def decodeCommandRequest (payload : Bytes) : Except MessageError CommandRequest :=
  match takeCommandRequest payload with
  | none => .error .payloadTooShort
  | some r =>
    if payload ≠ putCommandRequest r then .error .trailingBytes
    else if r.targetSourceId = 0 ∨ r.targetBootId = 0 ∨ r.actionId = 0 ∨ r.actionVersion = 0 then
      .error .zeroField
    else if kMaxParameterSize < r.parameters.length then .error .countTooLarge
    else .ok r

theorem decodeCommandRequest_laws {msgs : Messages}
    (h : msgs.decodeCommandRequest = decodeCommandRequest) : CommandRequestLaws msgs where
  decodes := by
    intro r hsource hboot haction hversion hsize
    rw [h, decodeCommandRequest, takeCommandRequest_put]
    simp [hsource, hboot, haction, hversion, hsize]
  of_decode := by
    intro payload r hr
    rw [h, decodeCommandRequest] at hr
    split at hr
    · cases hr
    · split_ifs at hr with hput hzero hsize
      cases hr
      exact ⟨not_not.mp hput, fun hs => hzero (.inl hs), fun hb => hzero (.inr (.inl hb))⟩

/-- A library that knows this message only. -/
def layoutMessages : Messages where
  decodeCommandRequest := decodeCommandRequest
  decodeCommandResult _ := .error .other
  decodeManifestRequest _ := .error .other
  decodeSubscribe _ := .error .other
  encodeCommandResult _ _ := none
  encodeSubscribeResult _ _ := none
  encodeUnsubscribeResult _ _ := none
  encodeStatusV1 _ _ := none
  encodeStatusV2 _ _ _ := none

end Layout

end BallyDongle.Btp
