import BallyDongle.BtpTransport.PeerTable
import BallyDongle.Btp

/-!
# The dongle's own topics

`DonglePublisher.cpp`: `hub.link`, `hub.usb` and `hub.peers`, each with its own
publication schedule. `tick` returns the samples to emit, in order, beside the
new schedule: no part of the schedule depends on whether an emit succeeds.
-/

namespace BallyDongle.DonglePublisher

open Btp BtpTransport

def kLinkTopicId : UInt16 := 0x0F01
def kUsbTopicId : UInt16 := 0x0F02
def kPeersTopicId : UInt16 := 0x0F03
def kSchemaVersion : UInt16 := 4
def kMaxPeers : Nat := 16
def kPeersKeepAliveMs : UInt32 := 1000
def kLinkMaxRateMillihz : UInt32 := 5000
def kUsbMaxRateMillihz : UInt32 := 5000
def kPeersMaxRateMillihz : UInt32 := 2000

/-- The topic ids with their declared ceilings, in `kTopics` order. -/
def kTopics : List (UInt16 × UInt32) :=
  [(kLinkTopicId, kLinkMaxRateMillihz), (kUsbTopicId, kUsbMaxRateMillihz),
    (kPeersTopicId, kPeersMaxRateMillihz)]

def lookupTopicMaxRateMillihz (topicId : UInt16) : Option UInt32 :=
  (kTopics.find? fun t => t.1 == topicId).map Prod.snd

def schemaMaxRateFor (topicId : UInt16) : UInt32 := (lookupTopicMaxRateMillihz topicId).getD 0

/-! ## Samples -/

structure LinkCounters where
  datagrams : UInt32
  fragmentsAccepted : UInt32
  routedTelemetry : UInt32
  routedLog : UInt32
  routedCommand : UInt32
  routedControl : UInt32
  routedTerminal : UInt32
  droppedRx : UInt32
  droppedDecode : UInt32
  droppedCrc : UInt32
  droppedReassembly : UInt32
  droppedQueueFull : UInt32

structure UsbCounters where
  framesRx : UInt64
  framesTx : UInt64
  crcErrors : UInt64
  decodeErrors : UInt64
  reassemblyRejected : UInt64
  telemetryDropped : UInt64
  /-- session, terminal, log and status, telemetry -/
  droppedByClass : Vector UInt64 4
  relayDownOk : UInt64
  relayDownUnbound : UInt64
  relayDownNoPeer : UInt64
  relayDownOversized : UInt64
  relayDownSendFailed : UInt64

structure PeerRecord where
  sourceId : UInt32
  bootId : UInt32
  mac : Mac
  lastSeenAgeMs : UInt32
  online : Bool
  rssi : Int8
  rttMs : UInt32

/-- What one publication reads; `peers` is the filled part of the array. -/
structure Snapshot where
  link : LinkCounters
  usb : UsbCounters
  peers : List PeerRecord

def u8 (v : UInt8) : Bytes := [v]
def u16 (v : UInt16) : Bytes := [v.toUInt8, (v >>> 8).toUInt8]
def u32 (v : UInt32) : Bytes :=
  [v.toUInt8, (v >>> 8).toUInt8, (v >>> 16).toUInt8, (v >>> 24).toUInt8]
def u64 (v : UInt64) : Bytes := (List.range 8).map fun i => (v >>> (8 * i).toUInt64).toUInt8

def packLink (c : LinkCounters) : Bytes :=
  u16 kSchemaVersion ++ [c.datagrams, c.fragmentsAccepted, c.routedTelemetry, c.routedLog,
    c.routedCommand, c.routedControl, c.routedTerminal, c.droppedRx, c.droppedDecode, c.droppedCrc,
    c.droppedReassembly, c.droppedQueueFull].flatMap u32

def packUsb (c : UsbCounters) : Bytes :=
  u16 kSchemaVersion ++ ([c.framesRx, c.framesTx, c.crcErrors, c.decodeErrors,
    c.reassemblyRejected, c.telemetryDropped] ++ c.droppedByClass.toList ++
    [c.relayDownOk, c.relayDownUnbound, c.relayDownNoPeer, c.relayDownOversized,
      c.relayDownSendFailed]).flatMap u64

/-- One variable array: its element count, then the elements. -/
def column (count : Nat) (elements : Bytes) : Bytes := u16 count.toUInt16 ++ elements

/-- `hub.peers`: one array per column, read across at the same index. -/
def packPeers (allPeers : List PeerRecord) : Bytes :=
  let peers := allPeers.take kMaxPeers
  let count := peers.length
  u16 kSchemaVersion ++
    column count ((List.range count).flatMap fun i => u8 i.toUInt8) ++
    column count (peers.flatMap fun p => u32 p.sourceId) ++
    column count (peers.flatMap fun p => u32 p.bootId) ++
    column (count * 6) (peers.flatMap fun p => p.mac.toList) ++
    column count (peers.flatMap fun p => u32 p.lastSeenAgeMs) ++
    column count (peers.flatMap fun p => u8 (if p.online then 1 else 0)) ++
    column count (peers.flatMap fun p => u8 p.rssi.toUInt8) ++
    column count (peers.flatMap fun p => u32 p.rttMs)

/-- FNV-1a over the membership of the list; ages and signal levels are left out. -/
def peersFingerprint (peers : List PeerRecord) : UInt32 :=
  let mix (hash : UInt32) (byte : UInt8) : UInt32 := (hash ^^^ byte.toUInt32) * 16777619
  let octets := u8 peers.length.toUInt8 ++ peers.flatMap fun p =>
    (List.zip (u32 p.sourceId) (u32 p.bootId)).flatMap (fun b => [b.1, b.2]) ++ p.mac.toList ++
      u8 (if p.online then 1 else 0)
  octets.foldl mix 2166136261

/-! ## Schedules -/

structure TopicState where
  subscribed : Bool := false
  periodMs : UInt32 := 0
  lastPublishMs : UInt32 := 0
  published : Bool := false
  deriving DecidableEq, Repr

structure Publisher where
  link : TopicState := {}
  usb : TopicState := {}
  peers : TopicState := {}
  peersFingerprint : UInt32 := 0
  peersFingerprintValid : Bool := false
  deriving DecidableEq, Repr

/-- `stateFor`: the state of a topic of the dongle. -/
def stateFor (g : Publisher) (topicId : UInt16) : Option TopicState :=
  if topicId = kLinkTopicId then some g.link
  else if topicId = kUsbTopicId then some g.usb
  else if topicId = kPeersTopicId then some g.peers
  else none

/-- Write through the pointer `stateFor` returns. -/
def setStateFor (g : Publisher) (topicId : UInt16) (state : TopicState) : Publisher :=
  if topicId = kLinkTopicId then { g with link := state }
  else if topicId = kUsbTopicId then { g with usb := state }
  else if topicId = kPeersTopicId then { g with peers := state }
  else g

/-- Milliseconds between samples at a rate; never 0 for a rate that is not. -/
def periodMsFromRate (rateMillihz : UInt32) : UInt32 :=
  if rateMillihz = 0 then 0
  else if 1000000 / rateMillihz = 0 then 1
  else 1000000 / rateMillihz

/-- The period of a topic at a requested rate, 0 asking for its own maximum. -/
def periodFor (topicId : UInt16) (rateMillihz : UInt32) : UInt32 :=
  let effective := if rateMillihz ≠ 0 then rateMillihz else schemaMaxRateFor topicId
  let period := periodMsFromRate effective
  if period = 0 then 1000 else period

def onLocalSubscribe (g : Publisher) (topicId : UInt16) (rateMillihz : UInt32) : Publisher :=
  match stateFor g topicId with
  | none => g
  | some state =>
    setStateFor g topicId { state with subscribed := true, periodMs := periodFor topicId rateMillihz }

def onLocalUnsubscribe (g : Publisher) (topicId : UInt16) : Publisher :=
  match stateFor g topicId with
  | none => g
  | some state =>
    let g := setStateFor g topicId { state with subscribed := false, published := false }
    if topicId = kPeersTopicId then { g with peersFingerprintValid := false } else g

def hasSubscribers (g : Publisher) : Bool :=
  g.link.subscribed || g.usb.subscribed || g.peers.subscribed

def duePeriodic (state : TopicState) (nowMs : UInt32) : Bool :=
  state.subscribed && (!state.published || state.periodMs ≤ nowMs - state.lastPublishMs)

/-- The state of a topic whose sample was just emitted. -/
def TopicState.stamp (state : TopicState) (nowMs : UInt32) : TopicState :=
  { state with lastPublishMs := nowMs, published := true }

def duePeers (g : Publisher) (nowMs fingerprint : UInt32) : Bool :=
  let changed := !g.peersFingerprintValid || fingerprint != g.peersFingerprint
  let elapsed := nowMs - g.peers.lastPublishMs
  g.peers.subscribed && (!g.peers.published ||
    (decide (g.peers.periodMs ≤ elapsed) && (changed || decide (kPeersKeepAliveMs ≤ elapsed))))

/-- The three topics in turn; each is due by its own state alone. -/
def tick (g : Publisher) (nowMs : UInt32) (snapshot : Snapshot) :
    Publisher × List (UInt16 × Bytes) :=
  if !hasSubscribers g then (g, [])
  else
    let link := duePeriodic g.link nowMs
    let usb := duePeriodic g.usb nowMs
    let fingerprint := peersFingerprint (snapshot.peers.take kMaxPeers)
    let peers := duePeers g nowMs fingerprint
    ({ link := if link then g.link.stamp nowMs else g.link
       usb := if usb then g.usb.stamp nowMs else g.usb
       peers := if peers then g.peers.stamp nowMs else g.peers
       peersFingerprint := if peers then fingerprint else g.peersFingerprint
       peersFingerprintValid := peers || g.peersFingerprintValid },
      (if link then [(kLinkTopicId, packLink snapshot.link)] else []) ++
        (if usb then [(kUsbTopicId, packUsb snapshot.usb)] else []) ++
        (if peers then [(kPeersTopicId, packPeers snapshot.peers)] else []))

/-! ## What is published -/

/-- The period of a topic in this state, while it is subscribed. -/
def TopicState.period (state : TopicState) : Option UInt32 :=
  if state.subscribed then some state.periodMs else none

def published (g : Publisher) (topicId : UInt16) : Option UInt32 :=
  (stateFor g topicId).bind TopicState.period

/-- The publisher has subscribers only for a topic it publishes. -/
theorem hasSubscribers_of_published {g : Publisher} (h : ∀ topicId, published g topicId = none) :
    hasSubscribers g = false := by
  have hlink := h kLinkTopicId
  have husb := h kUsbTopicId
  have hpeers := h kPeersTopicId
  simp [published, stateFor, TopicState.period, kUsbTopicId, kLinkTopicId, kPeersTopicId]
    at hlink husb hpeers
  simp [hasSubscribers, hlink, husb, hpeers]

theorem periodMsFromRate_ne_zero {rateMillihz : UInt32} (h : rateMillihz ≠ 0) :
    periodMsFromRate rateMillihz ≠ 0 := by
  rw [periodMsFromRate, if_neg h]
  split
  · decide
  · assumption

theorem periodFor_of_ne_zero {rateMillihz : UInt32} (topicId : UInt16) (h : rateMillihz ≠ 0) :
    periodFor topicId rateMillihz = periodMsFromRate rateMillihz := by
  simp only [periodFor, if_pos h, if_neg (periodMsFromRate_ne_zero h)]

/-- A topic of the dongle has a state of its own. -/
theorem stateFor_setStateFor (g : Publisher) {topicId : UInt16}
    (h : (stateFor g topicId).isSome = true) (state : TopicState) (other : UInt16) :
    stateFor (setStateFor g topicId state) other =
      if other = topicId then some state else stateFor g other := by
  have husb : kUsbTopicId ≠ kLinkTopicId := by decide
  have hpeers : kPeersTopicId ≠ kLinkTopicId ∧ kPeersTopicId ≠ kUsbTopicId := by decide
  rw [stateFor] at h
  split at h
  · rename_i hl
    subst hl
    rw [setStateFor, if_pos rfl]
    unfold stateFor
    split_ifs <;> rfl
  split at h
  · rename_i hu
    subst hu
    rw [setStateFor, if_neg husb, if_pos rfl]
    by_cases ho : other = kUsbTopicId
    · rw [if_pos ho, ho, stateFor, if_neg husb, if_pos rfl]
    · rw [if_neg ho, stateFor, stateFor, if_neg ho, if_neg ho]
  split at h
  · rename_i hp
    subst hp
    rw [setStateFor, if_neg hpeers.1, if_neg hpeers.2, if_pos rfl]
    by_cases ho : other = kPeersTopicId
    · rw [if_pos ho, ho, stateFor, if_neg hpeers.1, if_neg hpeers.2, if_pos rfl]
    · rw [if_neg ho, stateFor, stateFor, if_neg ho, if_neg ho]
  · cases h

theorem published_onLocalSubscribe {g : Publisher} {topicId : UInt16}
    (h : (stateFor g topicId).isSome = true) (rateMillihz : UInt32) (other : UInt16) :
    published (onLocalSubscribe g topicId rateMillihz) other =
      if other = topicId then some (periodFor topicId rateMillihz) else published g other := by
  obtain ⟨state, hs⟩ := Option.isSome_iff_exists.1 h
  simp only [published, onLocalSubscribe, hs, stateFor_setStateFor g h]
  split <;> rfl

theorem published_onLocalUnsubscribe {g : Publisher} {topicId : UInt16}
    (h : (stateFor g topicId).isSome = true) (other : UInt16) :
    published (onLocalUnsubscribe g topicId) other =
      if other = topicId then none else published g other := by
  obtain ⟨state, hs⟩ := Option.isSome_iff_exists.1 h
  have hstate : stateFor (onLocalUnsubscribe g topicId) other = stateFor
      (setStateFor g topicId { state with subscribed := false, published := false }) other := by
    simp only [onLocalUnsubscribe, hs]
    split <;> rfl
  rw [published, hstate, stateFor_setStateFor g h, published]
  split <;> rfl

/-- The topics with a state are the same whatever the schedule. -/
theorem isSome_stateFor (g g' : Publisher) (topicId : UInt16) :
    (stateFor g topicId).isSome = (stateFor g' topicId).isSome := by
  unfold stateFor
  split_ifs <;> rfl

/-- A request about another topic, known or not. -/
theorem published_onLocalSubscribe_of_ne (g : Publisher) {topicId other : UInt16}
    (hne : other ≠ topicId) (rateMillihz : UInt32) :
    published (onLocalSubscribe g topicId rateMillihz) other = published g other := by
  cases h : stateFor g topicId with
  | some state => rw [published_onLocalSubscribe (by rw [h]; rfl), if_neg hne]
  | none => rw [onLocalSubscribe, h]

theorem published_onLocalUnsubscribe_of_ne (g : Publisher) {topicId other : UInt16}
    (hne : other ≠ topicId) :
    published (onLocalUnsubscribe g topicId) other = published g other := by
  cases h : stateFor g topicId with
  | some state => rw [published_onLocalUnsubscribe (by rw [h]; rfl), if_neg hne]
  | none => rw [onLocalUnsubscribe, h]

theorem period_stamp (due : Bool) (state : TopicState) (nowMs : UInt32) :
    (if due then state.stamp nowMs else state).period = state.period := by
  cases due <;> rfl

/-- Emitting samples changes no subscription. -/
theorem published_tick (g : Publisher) (nowMs : UInt32) (snapshot : Snapshot) (topicId : UInt16) :
    published (tick g nowMs snapshot).1 topicId = published g topicId := by
  unfold tick
  split
  · rfl
  · simp only [published, stateFor]
    by_cases hl : topicId = kLinkTopicId
    · simp only [if_pos hl, Option.bind_some, period_stamp]
    by_cases hu : topicId = kUsbTopicId
    · simp only [if_neg hl, if_pos hu, Option.bind_some, period_stamp]
    by_cases hp : topicId = kPeersTopicId
    · simp only [if_neg hl, if_neg hu, if_pos hp, Option.bind_some, period_stamp]
    · simp only [if_neg hl, if_neg hu, if_neg hp, Option.bind_none]

end BallyDongle.DonglePublisher
