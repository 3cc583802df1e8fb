import BallyDongle.SerialMux.RelayDown
import BallyDongle.SerialMux.Replies

/-!
# The payload of a bound child

A child bound to a robot talks to the robot under a key the dongle does not
hold. The handlers of TERMINAL_IN, SUBSCRIBE and UNSUBSCRIBE look at the binding
first and hand the frame to `relayDown` unread; the handler of COMMAND_REQUEST
parses the payload before it looks, and relays only what parses as a request
addressed to somebody else.
-/

namespace BallyDongle.SerialMux.Mux

open Btp SerialSession BtpTransport BtpCommand

variable {P : Platform} {m : Mux P} {header : Header} {payload : Bytes}

/-- What the desktop side does with a frame the session delivered. -/
def handle (m : Mux P) (decoded : DecodedFrame) : Mux P :=
  m.handleObject decoded (Session.classifyProtocolObject decoded.header)

/-- A whole, sealed frame of one of the four kinds from a bound child. -/
structure FromBoundChild (m : Mux P) (header : Header) : Prop where
  kind : Session.classifyProtocolObject header = .commandRequest ∨
    Session.classifyProtocolObject header = .terminalIn ∨
    Session.classifyProtocolObject header = .subscribeRequest ∨
    Session.classifyProtocolObject header = .unsubscribeRequest
  encrypted : header.flags.encrypted = true
  whole : header.flags.fragmented = false
  bound : (HubRegistry.lookup m.shared.hub header.sourceId).isSome = true

/-- The frame goes to `relayDown` unchanged and nothing else happens: no line is
run, no subscription moves and no reply is queued. -/
structure Opaque (m : Mux P) (decoded : DecodedFrame) : Prop where
  relayed : m.handle decoded = (m.relayDown decoded).1
  executes : (m.handle decoded).shellLines = m.shellLines
  subscriptions : (m.handle decoded).topics = m.topics
  replies : (m.handle decoded).egress = m.egress

theorem Opaque.of_relayed {decoded : DecodedFrame}
    (h : m.handle decoded = (m.relayDown decoded).1) : Opaque m decoded := by
  have hframe := (relayDown_relayed m decoded).frame
  refine ⟨h, ?_, ?_, ?_⟩ <;> rw [h, hframe]

/-- The payload reads as a COMMAND_REQUEST for another dongle or another boot. -/
def AddressedElsewhere (P : Platform) (payload : Bytes) : Prop :=
  ∃ request, P.messages.decodeCommandRequest payload = .ok request ∧
    (request.targetSourceId ≠ P.sourceId ∨ request.targetBootId ≠ P.bootId)

/-! ## The handlers that look first -/

theorem handleTerminalIn_bound (hb : (HubRegistry.lookup m.shared.hub header.sourceId).isSome = true)
    (hne : payload ≠ []) :
    m.handleTerminalIn ⟨header, payload⟩ = (m.relayDown ⟨header, payload⟩).1 := by
  obtain ⟨peer, hp⟩ := Option.isSome_iff_exists.1 hb
  rw [handleTerminalIn, if_neg hne]
  simp only [hp]

theorem handleSubscribeRequest_bound
    (hb : (HubRegistry.lookup m.shared.hub header.sourceId).isSome = true) :
    m.handleSubscribeRequest ⟨header, payload⟩ = (m.relayDown ⟨header, payload⟩).1 := by
  obtain ⟨peer, hp⟩ := Option.isSome_iff_exists.1 hb
  simp only [handleSubscribeRequest, hp]

theorem handleUnsubscribeRequest_bound
    (hb : (HubRegistry.lookup m.shared.hub header.sourceId).isSome = true) :
    m.handleUnsubscribeRequest ⟨header, payload⟩ = (m.relayDown ⟨header, payload⟩).1 := by
  obtain ⟨peer, hp⟩ := Option.isSome_iff_exists.1 hb
  simp only [handleUnsubscribeRequest, hp]

/-! ## The handler that reads first -/

theorem classify_command (h : Session.classifyProtocolObject header = .commandRequest) :
    header.type = .command ∧ header.objectId = Channels.kCommandRequestObjectId := by
  unfold Session.classifyProtocolObject at h
  split_ifs at h
  assumption

theorem parseRequest_wrongTarget (ht : header.type = .command)
    (ho : header.objectId = Channels.kCommandRequestObjectId) :
    parseRequest P.messages header payload P.sourceId P.bootId = .error .wrongTarget ↔
      AddressedElsewhere P payload := by
  unfold parseRequest AddressedElsewhere
  rw [if_neg (not_not.2 ht), if_neg (not_not.2 ho)]
  cases hd : P.messages.decodeCommandRequest payload with
  | error err => cases err <;> simp [requestError]
  | ok request =>
    simp only [Except.ok.injEq, exists_eq_left']
    split_ifs <;> simp_all

/-- A request that is not for somebody else never reaches the relay. -/
theorem handleCommandRequest_relay
    (hparse : parseRequest P.messages header payload P.sourceId P.bootId ≠ .error .wrongTarget) :
    (m.handleCommandRequest ⟨header, payload⟩).relay = m.relay := by
  unfold handleCommandRequest
  split
  · rename_i heq
    exact absurd heq hparse
  · exact (replyCommandResult_queued _ _ _ _ _ _ _).relay
  · split
    · exact (replyCommandResult_queued _ _ _ _ _ _ _).relay
    · split
      · exact (replyCommandResult_queued _ _ _ _ _ _ _).relay
      · exact (replyCommandResult_queued _ _ _ _ _ _ _).relay

theorem handleCommandRequest_relayed_iff
    (h : Session.classifyProtocolObject header = .commandRequest) :
    m.handleCommandRequest ⟨header, payload⟩ = (m.relayDown ⟨header, payload⟩).1 ↔
      AddressedElsewhere P payload := by
  obtain ⟨ht, ho⟩ := classify_command h
  rw [← parseRequest_wrongTarget ht ho]
  refine ⟨fun heq => ?_, fun hparse => by simp only [handleCommandRequest, hparse]⟩
  by_contra hparse
  -- the relay counts every frame it is given, and the handler counted none
  obtain ⟨o, hbump, -⟩ := (relayDown_relayed m ⟨header, payload⟩).counter
  rw [← heq, handleCommandRequest_relay hparse] at hbump
  exact RelayDownCounters.bump_ne m.relay o hbump.symm

/-! ## Two payloads -/

theorem opaque_iff (hf : FromBoundChild m header) (hne : payload ≠ []) :
    Opaque m ⟨header, payload⟩ ↔ (header.type = .command → AddressedElsewhere P payload) := by
  obtain hk | hk | hk | hk := hf.kind
  · have hhandle : m.handle ⟨header, payload⟩ = m.handleCommandRequest ⟨header, payload⟩ := by
      simp only [handle, hk, handleObject]
    rw [forall_prop_of_true (classify_command hk).1, ← handleCommandRequest_relayed_iff (m := m) hk,
      ← hhandle]
    exact ⟨Opaque.relayed, .of_relayed⟩
  all_goals
    have hnot : header.type ≠ .command := by
      intro ht
      unfold Session.classifyProtocolObject at hk
      split_ifs at hk
      simp_all
    refine ⟨fun _ ht => absurd ht hnot, fun _ => .of_relayed ?_⟩
    simp only [handle, hk, handleObject]
  · exact handleTerminalIn_bound hf.bound hne
  · exact handleSubscribeRequest_bound hf.bound
  · exact handleUnsubscribeRequest_bound hf.bound

/-- Whatever is bound, both of two payloads of a bound child stay unread exactly
when the frame is no COMMAND_REQUEST, or both read as requests for somebody
else. -/
theorem opaque_pair_iff (m : Mux P) (hf : FromBoundChild m header) {p q : Bytes} (hp : p ≠ [])
    (hq : q ≠ []) :
    (Opaque m ⟨header, p⟩ ∧ Opaque m ⟨header, q⟩) ↔
      (header.type = .command → AddressedElsewhere P p ∧ AddressedElsewhere P q) := by
  rw [opaque_iff hf hp, opaque_iff hf hq]
  tauto

/-- A sealed COMMAND_REQUEST of child 9, which is bound to robot 5. -/
def sealedCommand : Header :=
  { type := .command, flags := { encrypted := true, cipherId := .aesGcm }, sourceId := 9
    bootId := 1, sequence := 3, objectId := 1 }

def boundBench : Mux bench :=
  benchMux (HubRegistry.run HubRegistry.init [.bind 9 5]) PeerTable.init

theorem boundBench_fromBoundChild : FromBoundChild boundBench sealedCommand :=
  ⟨.inl (by decide), rfl, rfl, by decide⟩

/-- One octet of ciphertext is answered instead of relayed. -/
theorem sealedCommand_answered :
    FromBoundChild boundBench sealedCommand ∧
    ¬ (Opaque boundBench ⟨sealedCommand, [0xA7]⟩ ∧ Opaque boundBench ⟨sealedCommand, [0x5C]⟩) := by
  refine ⟨boundBench_fromBoundChild, fun h => ?_⟩
  have hreplies := congrArg (fun e => (e.queues.frames .session).length) h.1.replies
  exact absurd hreplies (by decide)

/-- Two ciphertexts that happen to read as requests for robots 5 and 6. -/
theorem sealedCommand_relayed :
    let payload (target : UInt8) : Bytes :=
      [target, 0, 0, 0, 1, 0, 0, 0, 1, 0, 1, 0, 0, 0, 0, 0, 0, 0, 0, 0]
    Opaque boundBench ⟨sealedCommand, payload 5⟩ ∧ Opaque boundBench ⟨sealedCommand, payload 6⟩ :=
  (opaque_pair_iff boundBench boundBench_fromBoundChild (by decide) (by decide)).2 fun _ =>
    ⟨⟨⟨5, 1, 1, 1, []⟩, by rfl, .inl (by decide)⟩, ⟨6, 1, 1, 1, []⟩, by rfl, .inl (by decide)⟩

end BallyDongle.SerialMux.Mux
