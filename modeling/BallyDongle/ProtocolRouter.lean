import BallyDongle.BtpTransport.PeerTable
import BallyDongle.Btp

/-!
# The radio's reassembler

`ProtocolRouter.cpp` wraps a receive-only `btp::Node`, which is external:
`ReceiverApi` is the call the wrapper makes, with a view of the messages the
reassembler still holds, and `ReceiverLaws` what the firmware relies on.
`RadioSeal.cpp` opens what it completes under key L.
-/

namespace BallyDongle.ProtocolRouter

open Btp BtpTransport

def kMaxPayloadSize : Nat := 2000
def kSlotCount : Nat := 4
def kReassemblyTimeoutMs : Nat := 4000

/-! ## `btp::Receiver` -/

/-- `btp::ReceiveOutcome`, with the message it completed. -/
inductive ReceiveOutcome
  | complete (message : DecodedFrame)
  | fragmentAccepted | duplicateFragment
  | droppedCrc | droppedDecode | droppedReassembly | invalidArgument
  deriving DecidableEq, Repr

/-- The fragments held of an incomplete message. -/
structure Partial where
  fragmentCount : UInt8
  present : UInt8 → Bool
  lastArrivalMs : UInt64

/-- A fragment more. -/
def Partial.add (p : Partial) (index : UInt8) (nowMs : UInt64) : Partial :=
  { p with present := Function.update p.present index true, lastArrivalMs := nowMs }

theorem Partial.add_present (p : Partial) (index other : UInt8) (nowMs : UInt64) :
    (p.add index nowMs).present other = if other = index then true else p.present other :=
  Function.update_apply ..

structure ReceiverApi where
  Node : Type
  receive : Node → Bytes → (nowMs : UInt64) → Node × ReceiveOutcome
  held : Node → Identity → Option Partial

/-- A completed message has the identity, the type and the object of the
datagram that completed it. -/
def Agreeing (codec : Codec) (R : ReceiverApi) : Prop :=
  ∀ n datagram t n' message, R.receive n datagram t = (n', .complete message) →
    ∃ decoded, codec.decode .espNow datagram = .ok decoded ∧
      decoded.header.identity = message.header.identity ∧
      decoded.header.type = message.header.type ∧
      decoded.header.objectId = message.header.objectId

/-- A partial message may take the fragment: it has as many, and it has not timed
out since its last one. -/
structure Partial.Takes (p : Partial) (header : Header) (nowMs : UInt64) : Prop where
  count : p.fragmentCount = header.fragmentCount
  recent : nowMs - p.lastArrivalMs < kReassemblyTimeoutMs.toUInt64

/-- What a datagram may do to a message held: nothing, drop it, or store a
fragment of it. A fragmented message completes only with all its other fragments
held, and is released then; a fragment that is dropped drops its message. -/
structure ReceiverLaws (codec : Codec) (R : ReceiverApi) : Prop where
  agreeing : Agreeing codec R
  released : ∀ n datagram t n' message decoded, R.receive n datagram t = (n', .complete message) →
    codec.decode .espNow datagram = .ok decoded → decoded.header.flags.fragmented = true →
    R.held n' decoded.header.identity = none
  dropped : ∀ n datagram t n' decoded, R.receive n datagram t = (n', .droppedReassembly) →
    codec.decode .espNow datagram = .ok decoded → R.held n' decoded.header.identity = none
  held_step : ∀ n datagram t id p,
    R.held (R.receive n datagram t).1 id = some p → R.held n id ≠ some p →
    ∃ decoded, codec.decode .espNow datagram = .ok decoded ∧
      decoded.header.identity = id ∧
      ∃ before : Partial, before.fragmentCount = decoded.header.fragmentCount ∧
        (R.held n id = some before ∧ before.Takes decoded.header t ∨
          before.present = fun _ => false) ∧
        p = before.add decoded.header.fragmentIndex t
  complete_held : ∀ n datagram t n' message decoded,
    R.receive n datagram t = (n', .complete message) →
    codec.decode .espNow datagram = .ok decoded → decoded.header.flags.fragmented = true →
    2 ≤ decoded.header.fragmentCount →
    ∃ p, R.held n decoded.header.identity = some p ∧ p.Takes decoded.header t ∧
      ∀ index < p.fragmentCount, index ≠ decoded.header.fragmentIndex → p.present index = true

/-- A message held stays so until one of its fragments comes or it times out; a
fragment stored or already there is its last one. -/
structure SlotLaws (codec : Codec) (R : ReceiverApi) : Prop where
  decodes : ∀ n datagram t decoded, codec.decode .espNow datagram = .ok decoded →
    (R.receive n datagram t).2 ∉ [.droppedCrc, .droppedDecode, .invalidArgument]
  stored : ∀ n datagram t decoded, codec.decode .espNow datagram = .ok decoded →
    (R.receive n datagram t).2 ∈ [.fragmentAccepted, .duplicateFragment] →
    ∃ p, R.held (R.receive n datagram t).1 decoded.header.identity = some p ∧
      p.lastArrivalMs = t
  keeps : ∀ n datagram t id p, R.held n id = some p →
    t - p.lastArrivalMs < kReassemblyTimeoutMs.toUInt64 →
    (∀ decoded, codec.decode .espNow datagram = .ok decoded →
      decoded.header.flags.fragmented = true → decoded.header.identity ≠ id) →
    R.held (R.receive n datagram t).1 id = some p

/-! ## The wrapper -/

structure RoutedMessage where
  mac : Mac
  header : Header
  payload : Bytes
  arrivalMs : UInt64
  deriving DecidableEq

inductive Outcome
  | routed (message : RoutedMessage)
  | fragmentAccepted | duplicateFragment
  | droppedDecode | droppedCrc | droppedReassembly | droppedInvalidArgument
  deriving DecidableEq

def mapOutcome (mac : Mac) (nowMs : UInt64) : ReceiveOutcome → Outcome
  | .complete message =>
    .routed { mac, header := message.header, payload := message.payload, arrivalMs := nowMs }
  | .fragmentAccepted => .fragmentAccepted
  | .duplicateFragment => .duplicateFragment
  | .droppedCrc => .droppedCrc
  | .droppedDecode => .droppedDecode
  | .droppedReassembly => .droppedReassembly
  | .invalidArgument => .droppedInvalidArgument

def submit (R : ReceiverApi) (n : R.Node) (mac : Mac) (data : Bytes) (nowMs : UInt64) :
    R.Node × Outcome :=
  if data = [] then (n, .droppedInvalidArgument)
  else
    let (n, outcome) := R.receive n data nowMs
    (n, mapOutcome mac nowMs outcome)

theorem submit_routed {R : ReceiverApi} {n n' : R.Node} {mac : Mac} {data : Bytes} {nowMs : UInt64}
    {message : RoutedMessage} (h : submit R n mac data nowMs = (n', .routed message)) :
    R.receive n data nowMs = (n', .complete { header := message.header, payload := message.payload }) ∧
      message.mac = mac := by
  unfold submit at h
  split at h
  · cases h
  · generalize R.receive n data nowMs = out at h ⊢
    obtain ⟨n', outcome⟩ := out
    cases outcome <;> cases h
    exact ⟨rfl, rfl⟩

theorem submit_of_ne_nil (R : ReceiverApi) (n : R.Node) (mac : Mac) {data : Bytes} (nowMs : UInt64)
    (h : data ≠ []) :
    submit R n mac data nowMs =
      ((R.receive n data nowMs).1, mapOutcome mac nowMs (R.receive n data nowMs).2) :=
  if_neg h

theorem submit_cases (R : ReceiverApi) (n : R.Node) (mac : Mac) (data : Bytes) (nowMs : UInt64) :
    submit R n mac data nowMs = (n, .droppedInvalidArgument) ∨
      submit R n mac data nowMs =
        ((R.receive n data nowMs).1, mapOutcome mac nowMs (R.receive n data nowMs).2) := by
  by_cases h : data = []
  · exact .inl (if_pos h)
  · exact .inr (submit_of_ne_nil R n mac nowMs h)

/-- A completed message is the one whose fragment completed it. -/
theorem Agreeing.submit_routed {codec : Codec} {R : ReceiverApi} (h : Agreeing codec R) {n : R.Node}
    {mac : Mac} {data : Bytes} {nowMs : UInt64} {decoded : DecodedFrame} {message : RoutedMessage}
    (hd : codec.decode .espNow data = .ok decoded)
    (hrouted : (submit R n mac data nowMs).2 = .routed message) :
    message.header.identity = decoded.header.identity ∧
      message.header.type = decoded.header.type ∧
      message.header.objectId = decoded.header.objectId := by
  obtain ⟨hreceived, -⟩ := ProtocolRouter.submit_routed (Prod.ext rfl hrouted)
  obtain ⟨decoded', hd', hid, htype, hobject⟩ := h _ _ _ _ _ hreceived
  rw [hd] at hd'
  cases hd'
  exact ⟨hid.symm, htype.symm, hobject.symm⟩

/-- What is held of a message was held before, or a fragment of it was stored. -/
theorem ReceiverLaws.submit_held {codec : Codec} {R : ReceiverApi} (h : ReceiverLaws codec R)
    {n : R.Node} {mac : Mac} {data : Bytes} {nowMs : UInt64} {id : Identity} {p : Partial}
    (hp : R.held (submit R n mac data nowMs).1 id = some p) :
    R.held n id = some p ∨
    ∃ decoded, codec.decode .espNow data = .ok decoded ∧ decoded.header.identity = id ∧
      ∃ before : Partial, before.fragmentCount = decoded.header.fragmentCount ∧
        (R.held n id = some before ∧ before.Takes decoded.header nowMs ∨
          before.present = fun _ => false) ∧
        p = before.add decoded.header.fragmentIndex nowMs := by
  obtain e | e := submit_cases R n mac data nowMs
  · rw [e] at hp
    exact .inl hp
  · rw [e] at hp
    by_cases hold : R.held n id = some p
    · exact .inl hold
    · exact .inr (h.held_step n data nowMs id p hp hold)

/-- The end of a fragmented message, completed or dropped, is the end of what was
held of it. -/
theorem ReceiverLaws.submit_ended {codec : Codec} {R : ReceiverApi} (h : ReceiverLaws codec R)
    {n : R.Node} {mac : Mac} {data : Bytes} {nowMs : UInt64} {decoded : DecodedFrame}
    (hd : codec.decode .espNow data = .ok decoded) (hf : decoded.header.flags.fragmented = true)
    (hend : (submit R n mac data nowMs).2 = .droppedReassembly ∨
      ∃ message, (submit R n mac data nowMs).2 = .routed message) :
    R.held (submit R n mac data nowMs).1 decoded.header.identity = none := by
  obtain e | e := submit_cases R n mac data nowMs
  · rw [e] at hend
    obtain hdrop | ⟨_, hrouted⟩ := hend
    · cases hdrop
    · cases hrouted
  · rw [e] at hend ⊢
    cases hout : (R.receive n data nowMs).2 with
    | droppedReassembly => exact h.dropped n data nowMs _ decoded (Prod.ext rfl hout) hd
    | complete message =>
      exact h.released n data nowMs _ message decoded (Prod.ext rfl hout) hd hf
    | fragmentAccepted | duplicateFragment | droppedCrc | droppedDecode | invalidArgument =>
      rw [hout] at hend
      obtain hdrop | ⟨_, hrouted⟩ := hend
      · cases hdrop
      · cases hrouted

/-! ## A receiver to run on -/

namespace BenchReceiver

/-- What is held of each message: its fragments and their payloads. -/
abbrev Node := Identity → Option (Partial × (UInt8 → Bytes))

/-- The fragment joins its message, or starts it again. -/
def before (n : Node) (header : Header) (nowMs : UInt64) : Partial × (UInt8 → Bytes) :=
  let fresh : Partial × (UInt8 → Bytes) :=
    ({ fragmentCount := header.fragmentCount, present := fun _ => false, lastArrivalMs := nowMs },
      fun _ => [])
  match n header.identity with
  | none => fresh
  | some held =>
    if held.1.fragmentCount = header.fragmentCount ∧
        nowMs - held.1.lastArrivalMs < kReassemblyTimeoutMs.toUInt64 then held
    else fresh

def indices (header : Header) : List UInt8 :=
  (List.range header.fragmentCount.toNat).map Nat.toUInt8

def receive (codec : Codec) (n : Node) (datagram : Bytes) (nowMs : UInt64) :
    Node × ReceiveOutcome :=
  match codec.decode .espNow datagram with
  | .error .crcMismatch => (n, .droppedCrc)
  | .error .other => (n, .droppedDecode)
  | .ok decoded =>
    let header := decoded.header
    if header.flags.fragmented = false then (n, .complete decoded)
    else
      let held := (before n header nowMs).1.add header.fragmentIndex nowMs
      let payloads :=
        Function.update (before n header nowMs).2 header.fragmentIndex decoded.payload
      if (indices header).all held.present then
        (Function.update n header.identity none,
          .complete { header, payload := (indices header).flatMap payloads })
      else (Function.update n header.identity (some (held, payloads)), .fragmentAccepted)

def held (n : Node) (id : Identity) : Option Partial := (n id).map Prod.fst

theorem held_update (n : Node) (id other : Identity) (v : Option (Partial × (UInt8 → Bytes))) :
    held (Function.update n id v) other = if other = id then v.map Prod.fst else held n other := by
  unfold held
  split
  · rename_i h
    rw [h, Function.update_self]
  · rename_i h
    rw [Function.update_of_ne h]

end BenchReceiver

/-- A reassembler without a bound on the messages it holds. -/
def benchReceiver (codec : Codec) : ReceiverApi where
  Node := BenchReceiver.Node
  receive := BenchReceiver.receive codec
  held := BenchReceiver.held

theorem BenchReceiver.mem_indices {header : Header} {index : UInt8}
    (h : index < header.fragmentCount) : index ∈ indices header := by
  refine List.mem_map.2 ⟨index.toNat, List.mem_range.2 (UInt8.lt_iff_toNat_lt.1 h), ?_⟩
  exact UInt8.ofNat_toNat

/-- What a datagram does to the bench: nothing to what it holds, or it completes
the message of a fragment or stores the fragment. -/
theorem BenchReceiver.receive_cases (codec : Codec) (n : Node) (datagram : Bytes) (t : UInt64) :
    (receive codec n datagram t).1 = n ∧ (∀ message,
      (receive codec n datagram t).2 = .complete message →
        codec.decode .espNow datagram = .ok message ∧ message.header.flags.fragmented = false) ∨
    ∃ decoded, codec.decode .espNow datagram = .ok decoded ∧
      decoded.header.flags.fragmented = true ∧
      let held := (before n decoded.header t).1.add decoded.header.fragmentIndex t
      (receive codec n datagram t).2 ≠ .droppedReassembly ∧
      ((∃ payload, receive codec n datagram t =
          (Function.update n decoded.header.identity none,
            .complete { header := decoded.header, payload })) ∧
        (∀ index < decoded.header.fragmentCount, held.present index = true) ∨
      ∃ payloads, receive codec n datagram t =
        (Function.update n decoded.header.identity (some (held, payloads)), .fragmentAccepted)) := by
  unfold receive
  cases hd : codec.decode .espNow datagram with
  | error e =>
    left
    cases e <;> exact ⟨rfl, fun _ h => nomatch h⟩
  | ok decoded =>
    dsimp only
    split
    · rename_i hf
      refine .inl ⟨rfl, fun message h => ?_⟩
      cases h
      exact ⟨rfl, hf⟩
    · rename_i hf
      refine .inr ⟨decoded, rfl, by simpa using hf, ?_⟩
      split
      · rename_i hall
        refine ⟨nofun, .inl ⟨⟨_, rfl⟩, fun index hi => ?_⟩⟩
        exact List.all_eq_true.1 hall index (mem_indices hi)
      · exact ⟨nofun, .inr ⟨_, rfl⟩⟩

/-- The fragment joins what was held and can take it, or starts afresh. -/
theorem BenchReceiver.before_cases (n : Node) (header : Header) (t : UInt64) :
    (before n header t).1.fragmentCount = header.fragmentCount ∧
      ((∃ held, n header.identity = some held ∧ (before n header t) = held ∧
        held.1.Takes header t) ∨ (before n header t).1.present = fun _ => false) := by
  unfold before
  cases n header.identity with
  | none => exact ⟨rfl, .inr rfl⟩
  | some held =>
    dsimp only
    split
    · rename_i htakes
      exact ⟨htakes.1, .inl ⟨held, rfl, rfl, htakes.1, htakes.2⟩⟩
    · exact ⟨rfl, .inr rfl⟩

namespace BenchReceiver

section laws

variable {codec : Codec} {n n' : Node} {datagram : Bytes} {t : UInt64} {message decoded : DecodedFrame}

theorem agreeing (h : receive codec n datagram t = (n', .complete message)) :
    ∃ decoded, codec.decode .espNow datagram = .ok decoded ∧
      decoded.header.identity = message.header.identity ∧
      decoded.header.type = message.header.type ∧
      decoded.header.objectId = message.header.objectId := by
  obtain ⟨-, hc⟩ | ⟨decoded, hd, -, -, ⟨⟨payload, e⟩, -⟩ | ⟨payloads, e⟩⟩ :=
    receive_cases codec n datagram t
  · exact ⟨message, (hc message (by rw [h])).1, rfl, rfl, rfl⟩
  · rw [e] at h
    cases h
    exact ⟨decoded, hd, rfl, rfl, rfl⟩
  · rw [e] at h
    cases h

theorem released (h : receive codec n datagram t = (n', .complete message))
    (hd : codec.decode .espNow datagram = .ok decoded)
    (hf : decoded.header.flags.fragmented = true) : held n' decoded.header.identity = none := by
  obtain ⟨-, hc⟩ | ⟨decoded', hd', -, -, ⟨⟨payload, e⟩, -⟩ | ⟨payloads, e⟩⟩ :=
    receive_cases codec n datagram t
  · obtain ⟨hd', hf'⟩ := hc message (by rw [h])
    rw [hd] at hd'
    cases hd'
    rw [hf] at hf'
    cases hf'
  · rw [hd] at hd'
    cases hd'
    rw [e] at h
    cases h
    exact (held_update n decoded.header.identity _ none).trans (if_pos rfl)
  · rw [e] at h
    cases h

theorem not_droppedReassembly (hd : codec.decode .espNow datagram = .ok decoded) :
    receive codec n datagram t ≠ (n', .droppedReassembly) := by
  intro h
  obtain ⟨-, -⟩ | ⟨-, -, -, hne, -⟩ := receive_cases codec n datagram t
  · unfold receive at h
    rw [hd] at h
    dsimp only at h
    split at h
    · cases h
    · split at h <;> cases h
  · rw [h] at hne
    exact absurd rfl hne

theorem held_step {id : Identity} {p : Partial}
    (h : held (receive codec n datagram t).1 id = some p) (hne : held n id ≠ some p) :
    ∃ decoded, codec.decode .espNow datagram = .ok decoded ∧
      decoded.header.identity = id ∧
      ∃ before : Partial, before.fragmentCount = decoded.header.fragmentCount ∧
        (held n id = some before ∧ before.Takes decoded.header t ∨
          before.present = fun _ => false) ∧
        p = before.add decoded.header.fragmentIndex t := by
  obtain ⟨e, -⟩ | ⟨decoded, hd, -, -, ⟨⟨payload, e⟩, -⟩ | ⟨payloads, e⟩⟩ :=
    receive_cases codec n datagram t
  · rw [e] at h
    exact absurd h hne
  · simp only [e, held_update] at h
    split at h
    · cases h
    · exact absurd h hne
  · simp only [e, held_update] at h
    split at h
    · rename_i hid
      cases h
      obtain ⟨hcount, ⟨before', hheld, hbefore, htakes⟩ | hfresh⟩ :=
        before_cases n decoded.header t
      · refine ⟨decoded, hd, hid.symm, _, hcount, .inl ⟨?_, ?_⟩, rfl⟩
        · rw [hbefore, hid]
          exact congrArg (Option.map Prod.fst) hheld
        · rw [hbefore]
          exact htakes
      · exact ⟨decoded, hd, hid.symm, _, hcount, .inr hfresh, rfl⟩
    · exact absurd h hne

theorem complete_held (h : receive codec n datagram t = (n', .complete message))
    (hd : codec.decode .espNow datagram = .ok decoded)
    (hf : decoded.header.flags.fragmented = true) (hcount : 2 ≤ decoded.header.fragmentCount) :
    ∃ p, held n decoded.header.identity = some p ∧ p.Takes decoded.header t ∧
      ∀ index < p.fragmentCount, index ≠ decoded.header.fragmentIndex → p.present index = true := by
  obtain ⟨-, hc⟩ | ⟨decoded', hd', -, -, ⟨⟨payload, e⟩, hall⟩ | ⟨payloads, e⟩⟩ :=
    receive_cases codec n datagram t
  · obtain ⟨hd', hf'⟩ := hc message (by rw [h])
    rw [hd] at hd'
    cases hd'
    rw [hf] at hf'
    cases hf'
  · rw [hd] at hd'
    cases hd'
    have hother : ∀ index < decoded.header.fragmentCount,
        index ≠ decoded.header.fragmentIndex →
        (before n decoded.header t).1.present index = true := by
      intro index hi hne
      have hp := hall index hi
      rwa [Partial.add_present, if_neg hne] at hp
    obtain ⟨hcount', ⟨held, hheld, hbefore, htakes⟩ | hfresh⟩ := before_cases n decoded.header t
    · refine ⟨held.1, congrArg (Option.map Prod.fst) hheld, htakes, fun index hi hne => ?_⟩
      rw [htakes.count] at hi
      rw [← hbefore]
      exact hother index hi hne
    · -- a message of several fragments cannot complete from one
      rw [hfresh] at hother
      have hzero : (0 : UInt8) < decoded.header.fragmentCount :=
        UInt8.lt_of_lt_of_le (by decide) hcount
      have hone : (1 : UInt8) < decoded.header.fragmentCount :=
        UInt8.lt_of_lt_of_le (by decide) hcount
      by_cases h0 : (0 : UInt8) = decoded.header.fragmentIndex
      · exact absurd (hother 1 hone (h0 ▸ by decide)) (by decide)
      · exact absurd (hother 0 hzero h0) (by decide)
  · rw [e] at h
    cases h

end laws

end BenchReceiver

theorem benchReceiver_laws (codec : Codec) : ReceiverLaws codec (benchReceiver codec) where
  agreeing _ _ _ _ _ h := BenchReceiver.agreeing h
  released _ _ _ _ _ _ h hd hf := BenchReceiver.released h hd hf
  dropped _ _ _ _ _ h hd := absurd h (BenchReceiver.not_droppedReassembly hd)
  held_step _ _ _ _ _ h hne := BenchReceiver.held_step h hne
  complete_held _ _ _ _ _ _ h hd hf hcount := BenchReceiver.complete_held h hd hf hcount

open BenchReceiver in
theorem benchReceiver_slotLaws (codec : Codec) : SlotLaws codec (benchReceiver codec) where
  decodes := by
    intro (n : Node) datagram t decoded hd
    change (receive codec n datagram t).2 ∉ _
    unfold receive
    rw [hd]
    dsimp only
    split
    · simp
    · split <;> simp
  stored := by
    intro (n : Node) datagram t decoded hd h
    change (receive codec n datagram t).2 ∈ _ at h
    change ∃ p, held (receive codec n datagram t).1 decoded.header.identity = some p ∧ _
    unfold receive at h ⊢
    rw [hd] at h ⊢
    dsimp only at h ⊢
    split
    · rename_i hf
      simp [hf] at h
    · split
      · rename_i hf hall
        simp [hf, hall] at h
      · exact ⟨_, (held_update ..).trans (if_pos rfl), rfl⟩
  keeps := by
    intro (n : Node) datagram t id p h _ hother
    change held n id = some p at h
    change held (receive codec n datagram t).1 id = some p
    obtain ⟨e, -⟩ | ⟨decoded, hd, hf, -, ⟨⟨payload, e⟩, -⟩ | ⟨payloads, e⟩⟩ :=
      receive_cases codec n datagram t
    · rw [e, h]
    · rw [e, held_update, if_neg (hother decoded hd hf).symm, h]
    · rw [e, held_update, if_neg (hother decoded hd hf).symm, h]

end BallyDongle.ProtocolRouter

/-! ## `RadioSeal` -/

namespace BallyDongle.RadioSeal

open Btp

def kTagSize : Nat := 16

/-- AES-GCM open under a key: the plaintext, or a failure. -/
abbrev AeadOpen := (key : Bytes) → Header → (ciphertextAndTag : Bytes) → Option Bytes

/-- `RadioSeal::open` under the key loaded: the plaintext, when it returns true. -/
def openL (aead : AeadOpen) (keyL : Option Bytes) (header : Header) (ciphertextAndTag : Bytes) :
    Option Bytes :=
  match keyL with
  | none => none
  | some key =>
    if header.flags.encrypted = false then none
    else if header.flags.cipherId ≠ .aesGcm then none
    else aead key header ciphertextAndTag

/-- The frame was sealed under the key loaded, and `plaintext` is what it says. -/
structure Sealed (aead : AeadOpen) (keyL : Option Bytes) (header : Header)
    (ciphertextAndTag plaintext : Bytes) : Prop where
  encrypted : header.flags.encrypted = true
  cipher : header.flags.cipherId = .aesGcm
  opens : ∃ key, keyL = some key ∧ aead key header ciphertextAndTag = some plaintext

theorem open_sealed {aead : AeadOpen} {keyL : Option Bytes} {header : Header}
    {ciphertextAndTag plaintext : Bytes}
    (h : openL aead keyL header ciphertextAndTag = some plaintext) :
    Sealed aead keyL header ciphertextAndTag plaintext := by
  unfold openL at h
  split at h
  · cases h
  · rename_i key
    split at h
    · cases h
    split at h
    · cases h
    · rename_i henc hcipher
      exact ⟨Bool.not_eq_false _ ▸ henc, not_not.1 hcipher, key, rfl, h⟩

end BallyDongle.RadioSeal
