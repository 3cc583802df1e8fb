import BallyDongle.EspNowConfig.Ingress

/-!
# Authentication before action

What one datagram makes the ingress do, as the calls it adds: it relays, or it
opens a message and handles that message only.
-/

namespace BallyDongle.EspNowConfig

open Btp BtpTransport BtpCommand ProtocolRouter SerialMux

variable {E : Platform} {s s' s'' : State E} {Q R : RxCall → Prop}

/-- `s'` did what `s` did and then some calls, each of which satisfies `Q`. -/
def Adds (Q : RxCall → Prop) (s s' : State E) : Prop :=
  ∃ extra, s'.calls = s.calls ++ extra ∧ ∀ call ∈ extra, Q call

theorem Adds.none (h : s'.calls = s.calls) : Adds Q s s' :=
  ⟨[], by rw [h, List.append_nil], fun _ hc => absurd hc List.not_mem_nil⟩

theorem Adds.trans (h : Adds Q s s') (h' : Adds Q s' s'') : Adds Q s s'' := by
  obtain ⟨extra, he, hq⟩ := h
  obtain ⟨extra', he', hq'⟩ := h'
  refine ⟨extra ++ extra', by rw [he', he, List.append_assoc], fun call hc => ?_⟩
  exact (List.mem_append.1 hc).elim (hq call) (hq' call)

/-- Before calls of its own, a state did nothing. -/
theorem Adds.of_calls (h : s'.calls = s.calls) (h' : Adds Q s' s'') : Adds Q s s'' :=
  (Adds.none h).trans h'

theorem Adds.note {call : RxCall} (h : Q call) : Adds Q s (s.note call) :=
  ⟨[call], rfl, fun _ hc => List.mem_singleton.1 hc ▸ h⟩

/-- Handling the message `message`, opened to `plaintext`, of a datagram from `mac`. -/
inductive Handles (E : Platform) (mac : Mac) (message : RoutedMessage) (plaintext : Bytes) :
    RxCall → Prop
  | executed {request line}
      (parsed : parseRequest E.serial.messages message.header plaintext E.serial.sourceId
        E.serial.bootId = .ok request)
      (copied : copyShellCommand request (kMaxShellCommandSize + 1) = .ok line) :
      Handles E mac message plaintext (.executed mac line)
  | answered (type : message.header.type = .command)
      (object : message.header.objectId = Channels.kCommandRequestObjectId) :
      Handles E mac message plaintext (.answered mac message.header)
  | resultHandled {result}
      (parsed : parseResult E.serial.messages message.header plaintext = .ok result) :
      Handles E mac message plaintext (.resultHandled mac result)
  | ingested (type : message.header.type = .control)
      (object : message.header.objectId = Channels.kManifestDataObjectId) :
      Handles E mac message plaintext (.ingested plaintext)

/-! ## The handlers -/

section handlers

variable {mac : Mac} {message : RoutedMessage} {plaintext : Bytes}

theorem replyCommandResult_adds (s : State E) (actionId version : UInt16) (status : Status)
    (errorCode : ErrorCode) (text : Bytes) (htype : message.header.type = .command)
    (hobject : message.header.objectId = Channels.kCommandRequestObjectId) :
    Adds (Handles E mac message plaintext) s
      (s.replyCommandResult mac message.header actionId version status errorCode text) := by
  unfold State.replyCommandResult
  dsimp only
  split
  · exact Adds.of_calls rfl (Adds.note (.answered htype hobject))
  · exact .none rfl

theorem handleRoutedCommandRequest_adds (s : State E)
    (htype : message.header.type = .command)
    (hobject : message.header.objectId = Channels.kCommandRequestObjectId) :
    Adds (Handles E mac message plaintext) s
      (s.handleRoutedCommandRequest mac { message with payload := plaintext }) := by
  unfold State.handleRoutedCommandRequest
  split
  · exact .none rfl
  dsimp only
  split
  · exact .none rfl
  · exact replyCommandResult_adds s 0 0 _ _ _ htype hobject
  · rename_i request hparsed
    split
    · exact replyCommandResult_adds s _ _ _ _ _ htype hobject
    · rename_i line hcopied
      have hran : Adds (Handles E mac message plaintext) s (s.runLine mac line).1 :=
        Adds.of_calls rfl (Adds.note (.executed hparsed hcopied))
      exact hran.trans (replyCommandResult_adds _ _ _ _ _ _ htype hobject)

theorem handleRoutedCommandResult_adds (s : State E) :
    Adds (Handles E mac message plaintext) s
      (s.handleRoutedCommandResult mac { message with payload := plaintext }) := by
  unfold State.handleRoutedCommandResult
  dsimp only
  split
  · exact .none rfl
  · rename_i result hparsed
    refine Adds.trans (Adds.note (.resultHandled hparsed)) (.none ?_)
    split
    · rfl
    split
    · split <;> rfl
    · split <;> rfl

theorem handleControlItem_adds (s : State E) (htype : message.header.type = .control) :
    Adds (Handles E mac message plaintext) s
      (s.handleControlItem { message with payload := plaintext }) := by
  unfold State.handleControlItem
  split
  · rename_i hobject
    exact Adds.of_calls rfl (Adds.note (.ingested htype hobject))
  · exact .none rfl

theorem primeManifestIfNeeded_calls (s : State E) (mac : Mac) (header : Header) :
    (s.primeManifestIfNeeded mac header).calls = s.calls := by
  unfold State.primeManifestIfNeeded
  split
  · rfl
  · dsimp only
    split <;> rfl

theorem enqueueRouted_calls (s : State E) (queue : Option QueueId) (routed : RoutedMessage) :
    (s.enqueueRouted queue routed).calls = s.calls := by
  unfold State.enqueueRouted
  split
  · rfl
  · split
    · split <;> rfl
    · rfl

theorem deliver_adds (s : State E) (mac : Mac) (message : RoutedMessage) (plaintext : Bytes) :
    Adds (Handles E mac message plaintext) s
      (s.deliver mac { message with payload := plaintext }) := by
  refine Adds.of_calls (primeManifestIfNeeded_calls s mac message.header) ?_
  unfold State.deliver State.dispatchRouted
  generalize s.primeManifestIfNeeded mac message.header = s
  have hcount : (s.countRouted message.header.type).calls = s.calls := rfl
  refine Adds.of_calls hcount ?_
  dsimp only
  split
  · rename_i htype
    unfold State.handleRoutedCommand
    split
    · exact handleRoutedCommandResult_adds _
    split
    · rename_i hobject
      exact handleRoutedCommandRequest_adds _ htype hobject
    · exact .none rfl
  · rename_i htype
    exact handleControlItem_adds _ htype
  · exact .none (enqueueRouted_calls _ _ _)

/-- A message that was no candidate is neither run nor ingested. -/
theorem deliver_calls (s : State E)
    (hno : Channels.dongleMayConsume message.header.type message.header.objectId = false) :
    (s.deliver mac message).calls = s.calls := by
  unfold State.deliver State.dispatchRouted
  refine Eq.trans ?_ (primeManifestIfNeeded_calls s mac message.header)
  generalize s.primeManifestIfNeeded mac message.header = s
  dsimp only
  split
  · rename_i htype
    simp [Channels.dongleMayConsume, htype] at hno
    unfold State.handleRoutedCommand
    rw [if_neg hno.2, if_neg hno.1]
    rfl
  · rename_i htype
    simp [Channels.dongleMayConsume, htype] at hno
    have hobject : message.header.objectId ≠ ManifestCache.kManifestDataObjectId := hno.2
    unfold State.handleControlItem
    rw [if_neg hobject]
    rfl
  · exact enqueueRouted_calls _ _ _

end handlers

/-! ## Relays -/

/-- A call of `SerialMux::relayUp`. -/
def Relays (call : RxCall) : Prop := ∃ header frame, call = .relayedUp header frame

theorem relayUp_adds (s : State E) (header : Header) (frame : Bytes) :
    Adds Relays s (s.relayUp header frame) :=
  ⟨[.relayedUp header frame], rfl, fun _ hc => ⟨_, _, List.mem_singleton.1 hc⟩⟩

theorem relayAll_adds (header : Header) (frames : List Bytes) (s : State E) :
    Adds Relays s (s.relayAll header frames) := by
  induction frames generalizing s with
  | nil => exact .none rfl
  | cons frame frames ih => exact (relayUp_adds s header frame).trans (ih _)

theorem relayPendingUp_adds (s : State E) (header : Header) :
    Adds Relays s (s.relayPendingUp header).1 := by
  unfold State.relayPendingUp
  split
  · exact .none rfl
  · split
    · exact .none rfl
    · exact (relayAll_adds header _ s).trans (.none rfl)

theorem unopened_adds (s : State E) (ingress : HubRelay.RadioIngress) (data : Bytes)
    (routed : RoutedMessage) : Adds Relays s (s.unopened ingress data routed) := by
  have hrelay : Adds Relays s (s.relayUnopened ingress data routed) := by
    unfold State.relayUnopened
    split
    · exact .none rfl
    split
    · have h := relayPendingUp_adds s routed.header
      generalize s.relayPendingUp routed.header = out at h ⊢
      obtain ⟨s', complete⟩ := out
      cases complete
      · exact h.trans (.none rfl)
      · exact h
    · exact relayUp_adds s _ _
  refine hrelay.trans (.none ?_)
  unfold State.unopened State.countUnauthenticated
  split <;> rfl

/-! ## A datagram -/

/-- The message the datagram `d` completes in `s`. -/
def Completes (s : State E) (d : Datagram) (message : RoutedMessage) : Prop :=
  (submit E.receiver s.router d.mac d.data d.nowMs.toUInt64).2 = .routed message

/-- What a datagram makes the ingress do: relay, or open the message it completes
and handle that one when it names the dongle. -/
inductive Ingress (s : State E) (d : Datagram) (calls : List RxCall) : Prop
  | relays (only : ∀ call ∈ calls, Relays call)
  | opens {message plaintext rest} (completes : Completes s d message)
      (sealed : RadioSeal.Sealed E.aeadOpen s.keyL message.header message.payload plaintext)
      (added : calls = .opened message plaintext ::
        .remembered d.mac message.header.sourceId message.header.bootId :: rest)
      (names : rest = [] ∨ Channels.dongleConsumes message.header.type message.header.objectId
        (State.referenceSourceId message.header plaintext) E.serial.sourceId = true)
      (handles : ∀ call ∈ rest, Handles E d.mac message plaintext call)

theorem remember_calls (s : State E) (d : Datagram) (header : Header) :
    (s.remember d header).calls =
      s.calls ++ [.remembered d.mac header.sourceId header.bootId] := by
  unfold State.remember
  dsimp only
  split
  · rfl
  · split <;> rfl

/-- The calls of `s'` are those of `s`, then those of one datagram. -/
def Took (s : State E) (d : Datagram) (s' : State E) : Prop :=
  ∃ calls, s'.calls = s.calls ++ calls ∧ Ingress s d calls

theorem Adds.took {d : Datagram} (h : Adds Relays s s') : Took s d s' := by
  obtain ⟨calls, he, hr⟩ := h
  exact ⟨calls, he, .relays hr⟩

theorem noteConsumeRejected_calls (s : State E) (header : Header) :
    (s.noteConsumeRejected header).calls = s.calls := by
  unfold State.noteConsumeRejected
  split <;> rfl

/-- A message that opened, seen from the state `s₀` before its datagram. -/
theorem opened_took {s₀ : State E} {d : Datagram} {message : RoutedMessage} {plaintext : Bytes}
    (hcalls : s.calls = s₀.calls) (hcompletes : Completes s₀ d message)
    (hsealed : RadioSeal.Sealed E.aeadOpen s₀.keyL message.header message.payload plaintext) :
    Took s₀ d (s.opened d message plaintext) := by
  have hhead : ((s.note (.opened message plaintext)).remember d message.header).calls =
      s₀.calls ++ [.opened message plaintext,
        .remembered d.mac message.header.sourceId message.header.bootId] := by
    rw [remember_calls, State.note, hcalls, List.append_assoc]
    rfl
  unfold State.opened
  dsimp only
  split
  · rename_i hnames
    obtain ⟨rest, he, hrest⟩ := deliver_adds
      (((s.note (.opened message plaintext)).remember d message.header).clearPending message.header)
      d.mac message plaintext
    refine ⟨_ :: _ :: rest, ?_, .opens hcompletes hsealed rfl (.inr hnames) hrest⟩
    rw [he, State.clearPending, hhead, List.append_assoc]
    rfl
  · refine ⟨_, ?_, .opens hcompletes hsealed rfl (.inl rfl) fun _ hc => absurd hc List.not_mem_nil⟩
    rw [State.clearPending, noteConsumeRejected_calls, hhead]

theorem classifyRadio_ok {codec : Codec} {data : Bytes} {ingress : HubRelay.RadioIngress}
    (h : HubRelay.classifyRadio codec data = .ok ingress) :
    ∃ decoded, codec.decode .espNow data = .ok decoded ∧ ingress.header = decoded.header ∧
      ingress.mayConsume =
        Channels.dongleMayConsume decoded.header.type decoded.header.objectId := by
  unfold HubRelay.classifyRadio at h
  cases hd : codec.decode .espNow data with
  | error e => rw [hd] at h; cases h
  | ok decoded =>
    rw [hd] at h
    cases h
    exact ⟨decoded, rfl, rfl, rfl⟩

theorem tryOpen_sealed {routed : RoutedMessage} {plaintext : Bytes}
    (h : s.tryOpen routed = some plaintext) :
    RadioSeal.Sealed E.aeadOpen s.keyL routed.header routed.payload plaintext := by
  unfold State.tryOpen at h
  split at h
  · exact RadioSeal.open_sealed h
  · cases h

theorem Took.none {d : Datagram} (h : s'.calls = s.calls) : Took s d s' := (Adds.none h).took

/-- The outcome of the reassembler, seen from the state `s₀` before the datagram. -/
theorem onOutcome_took {s₀ : State E} {d : Datagram} {ingress : HubRelay.RadioIngress}
    {outcome : Outcome} (hcalls : s.calls = s₀.calls) (hkey : s.keyL = s₀.keyL)
    (hcompletes : ∀ message, outcome = .routed message → Completes s₀ d message ∧
      ingress.mayConsume = Channels.dongleMayConsume message.header.type message.header.objectId) :
    Took s₀ d (s.onOutcome d ingress outcome) := by
  unfold State.onOutcome
  split
  · exact .none hcalls
  · exact .none hcalls
  · split <;> exact .none hcalls
  · exact .none hcalls
  · exact .none hcalls
  · exact .none hcalls
  · rename_i message
    obtain ⟨hc, hmay⟩ := hcompletes message rfl
    split
    · split
      · exact (Adds.of_calls hcalls (unopened_adds s ingress d.data message)).took
      · rename_i plaintext hopened
        exact opened_took hcalls hc (hkey ▸ tryOpen_sealed hopened)
    · rename_i hno
      exact .none ((deliver_calls s (by rw [← hmay]; exact Bool.eq_false_iff.2 hno)).trans hcalls)

/-- Everything one datagram can make the ingress do. -/
theorem processRxDatagram_took (hR : Agreeing E.serial.codec E.receiver) (s : State E)
    (d : Datagram) : Took s d (s.processRxDatagram d) := by
  unfold State.processRxDatagram
  dsimp only
  split
  · exact .none rfl
  · exact .none rfl
  · rename_i ingress hingress
    obtain ⟨decoded, hdecoded, -, hmay⟩ := classifyRadio_ok hingress
    split
    · have hcount : s.countDatagram.calls = s.calls := rfl
      exact (Adds.of_calls hcount (relayUp_adds _ ingress.header d.data)).took
    · have hframe := s.countDatagram.retain_frame d ingress
      unfold State.reassemble
      generalize s.countDatagram.retain d ingress = out at hframe ⊢
      obtain ⟨s₁, kept⟩ := out
      dsimp only at hframe ⊢
      cases kept with
      | false => exact .none (by rw [hframe]; rfl)
      | true =>
        refine onOutcome_took (by rw [hframe]; rfl) (by rw [hframe]; rfl)
          fun message hrouted => ?_
        have hrouted : Completes s d message := by rw [hframe] at hrouted; exact hrouted
        refine ⟨hrouted, ?_⟩
        -- the completed message has the header fields the prefilter read
        obtain ⟨-, htype, hobject⟩ := hR.submit_routed hdecoded hrouted
        rw [hmay, htype, hobject]

/-! ## Runs -/

/-- What reaches the ingress. `elsewhere` is what other tasks do to the session,
the tables, the key and the queues between two datagrams. -/
inductive Input (E : Platform)
  | received (d : Datagram)
  | elsewhere (dongle : Dongle E.serial E.Manager)
      (queues : QueueId → BoundedQueue QueuedRoutedMessage kRoutedQueueDepth)

def State.step (s : State E) : Input E → State E
  | .received d => s.processRxDatagram d
  | .elsewhere dongle queues => { s with toDongle := dongle, queues }

def State.run (s : State E) (inputs : List (Input E)) : State E := inputs.foldl State.step s

/-- The datagrams among the inputs, in order. -/
def datagramsOf (inputs : List (Input E)) : List Datagram :=
  inputs.filterMap fun
    | .received d => some d
    | .elsewhere _ _ => none

/-- Every step of a run meets `P`, in the state it starts from. -/
def AllSteps (P : State E → Input E → Prop) : State E → List (Input E) → Prop
  | _, [] => True
  | s, input :: inputs => P s input ∧ AllSteps P (s.step input) inputs

/-- Acting on a message. -/
def RxCall.Acts : RxCall → Prop
  | .opened _ _ | .relayedUp _ _ => False
  | .remembered _ _ _ | .executed _ _ | .answered _ _ | .resultHandled _ _ | .ingested _ => True

/-- Acting on a COMMAND or a MANIFEST_DATA. -/
def RxCall.Consumes : RxCall → Prop
  | .opened _ _ | .relayedUp _ _ | .remembered _ _ _ => False
  | .executed _ _ | .answered _ _ | .resultHandled _ _ | .ingested _ => True

theorem Handles.not_status {mac : Mac} {message : RoutedMessage} {plaintext : Bytes}
    {call : RxCall} (h : Handles E mac message plaintext call) :
    ¬ (message.header.type = .control ∧ message.header.objectId = Channels.kStatusObjectId) := by
  rintro ⟨htype, hobject⟩
  cases h with
  | executed parsed copied =>
    rw [parseRequest, if_pos (by rw [htype]; decide)] at parsed
    cases parsed
  | answered type _ => rw [htype] at type; cases type
  | resultHandled parsed =>
    rw [parseResult, if_pos (by rw [htype]; decide)] at parsed
    cases parsed
  | ingested _ object => rw [hobject] at object; exact absurd object (by decide)

theorem readU32_of_reference {header : Header} {plaintext : Bytes} {id : UInt32}
    (h : State.referenceSourceId header plaintext = id) (h0 : id ≠ 0) :
    readU32 plaintext 0 = some id := by
  unfold State.referenceSourceId at h
  split at h
  · cases hr : readU32 plaintext 0 with
    | none => rw [hr] at h; exact absurd h.symm h0
    | some ref => rw [hr] at h; exact congrArg some h
  · exact absurd h.symm h0

/-- In every call of a run, nothing is acted on but the message the datagram
completes, sealed under the key loaded; a command or a manifest only when it names
this dongle; and what opened is not relayed. -/
theorem run_authenticated (hR : Agreeing E.serial.codec E.receiver) (s₀ : State E)
    (inputs : List (Input E)) (d : Datagram) :
    let s := s₀.run inputs
    ∃ calls, (s.processRxDatagram d).calls = s.calls ++ calls ∧
      (∀ call ∈ calls, call.Acts → ∃ message plaintext, Completes s d message ∧
        RxCall.opened message plaintext ∈ calls ∧
        RadioSeal.Sealed E.aeadOpen s.keyL message.header message.payload plaintext ∧
        (call.Consumes → Handles E d.mac message plaintext call ∧
          readU32 plaintext 0 = some E.serial.sourceId.1 ∧ E.serial.sourceId.1 ≠ 0)) ∧
      (∀ message plaintext, RxCall.opened message plaintext ∈ calls →
        ∀ header frame, RxCall.relayedUp header frame ∉ calls) := by
  obtain ⟨calls, he, hin⟩ := processRxDatagram_took hR (s₀.run inputs) d
  refine ⟨calls, he, ?_⟩
  cases hin with
  | relays only =>
    refine ⟨fun call hc hacts => ?_, fun message plaintext hc => ?_⟩
    · obtain ⟨header, frame, rfl⟩ := only call hc
      exact hacts.elim
    · obtain ⟨header, frame, hbad⟩ := only _ hc
      cases hbad
  | opens completes hsealed added names handles =>
    rename_i message plaintext rest
    subst added
    refine ⟨fun call hc hacts => ⟨message, plaintext, completes, .head _, hsealed,
      fun hconsumes => ?_⟩, fun _ _ _ header frame hc => ?_⟩
    · obtain rfl | hc := List.mem_cons.1 hc
      · exact hconsumes.elim
      obtain rfl | hc := List.mem_cons.1 hc
      · exact hconsumes.elim
      have hhandles := handles call hc
      have hnames := names.resolve_left (List.ne_nil_of_mem hc)
      obtain ⟨href, h0⟩ := Channels.reference_of_consumes hnames hhandles.not_status
      exact ⟨hhandles, readU32_of_reference href h0, h0⟩
    · obtain hbad | hc := List.mem_cons.1 hc
      · cases hbad
      obtain hbad | hc := List.mem_cons.1 hc
      · cases hbad
      cases handles _ hc

/-- A sealed COMMAND_REQUEST for the dongle, source 7, from robot 9. -/
def sealedCommand : Datagram :=
  benchDatagram
    (benchFrame [2, 2, 1, 9, 1, 1, 0, 1]
      ([7, 0, 0, 0, 1, 0, 0, 0, 1, 0, 1, 0, 0, 0, 0, 0, 1, 0, 0, 0, 0x77] ++
        List.replicate RadioSeal.kTagSize 0xA5)) 0

theorem run_authenticated_sealedCommand :
    let s := (benchState .idle).run []
    ∃ calls, (s.processRxDatagram sealedCommand).calls = s.calls ++ calls ∧
      RxCall.executed benchMac [0x77] ∈ calls ∧
      (∀ call ∈ calls, call.Acts → ∃ message plaintext, Completes s sealedCommand message ∧
        RxCall.opened message plaintext ∈ calls) := by
  obtain ⟨calls, he, hacts, -⟩ :=
    run_authenticated (benchReceiver_laws bench.serial.codec).agreeing (benchState .idle) []
      sealedCommand
  refine ⟨calls, he, ?_, fun call hc h => ?_⟩
  · have hexecuted : (((benchState .idle).run []).processRxDatagram sealedCommand).calls[2]? =
        some (.executed benchMac [0x77]) := rfl
    rw [he] at hexecuted
    exact List.mem_of_getElem? hexecuted
  · obtain ⟨message, plaintext, hc, ho, -⟩ := hacts call hc h
    exact ⟨message, plaintext, hc, ho⟩

/-- The fragments of the bench's message, one after the other. -/
def benchReceived (count : Nat) : List (Input bench) :=
  (benchFragments count).map fun data => .received (benchDatagram data 0)

end BallyDongle.EspNowConfig
