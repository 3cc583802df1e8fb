import BallyDongle.DonglePublisher.Samples
import BallyDongle.Lib.Run
import BallyDongle.SubscriptionRegistry

/-!
# The calls of a tick

`tick` once more, with the calls it makes: the snapshot provider, the emit function
and the accountings of `SubscriptionRegistry`. The publisher becomes what `tick` makes of
it, and the calls are those for the topics that are due, in the order of `kTopics`
(`Hub.tick_eq`).
-/

namespace BallyDongle.DonglePublisher

open Btp

inductive Call
  | provider
  | emit (topicId : UInt16) (payload : Bytes) (accepted : Bool)
  | forwarded (topicId : UInt16) (payloadBytes : Nat)
  | dropped (topicId : UInt16)
  deriving DecidableEq, Repr

abbrev EmitFn := UInt16 → Bytes → Bool

/-- The publisher, the registry it accounts to, and the calls made so far. -/
structure Hub where
  publisher : Publisher := {}
  registry : SubscriptionRegistry.Registry := {}
  calls : List Call := []

namespace Hub

variable (selfSourceId : UInt32)

def publish (hub : Hub) (topicId : UInt16) (payload : Bytes) (emit : EmitFn) : Hub × Bool :=
  if emit topicId payload then
    ({ hub with
        registry := SubscriptionRegistry.recordForwarded hub.registry selfSourceId
          topicId.toUInt32 payload.length
        calls := hub.calls ++ [.emit topicId payload true, .forwarded topicId payload.length] },
      true)
  else
    ({ hub with
        registry := SubscriptionRegistry.recordDropped hub.registry selfSourceId topicId.toUInt32
        calls := hub.calls ++ [.emit topicId payload false, .dropped topicId] },
      false)

/-- Pack into a buffer on the stack, and publish what was packed; the number emitted. -/
def attempt (hub : Hub) (topicId : UInt16) (pack : Option Bytes → Nat × Option Bytes)
    (capacity : Nat) (emit : EmitFn) : Hub × Nat :=
  let (size, payload) := pack (some (List.replicate capacity 0))
  if size = 0 then (hub, 0)
  else
    let (hub, accepted) := publish selfSourceId hub topicId ((payload.getD []).take size) emit
    (hub, if accepted then 1 else 0)

def tickLink (hub : Hub) (nowMs : UInt32) (snapshot : Snapshot) (emit : EmitFn) : Hub × Nat :=
  if duePeriodic hub.publisher.link nowMs then
    let (hub, emitted) := attempt selfSourceId hub kLinkTopicId (packLinkInto snapshot.link)
      kLinkPayloadSize emit
    -- the cadence advances even where the queue refused the frame
    ({ hub with publisher := { hub.publisher with link := hub.publisher.link.stamp nowMs } },
      emitted)
  else (hub, 0)

def tickUsb (hub : Hub) (nowMs : UInt32) (snapshot : Snapshot) (emit : EmitFn) : Hub × Nat :=
  if duePeriodic hub.publisher.usb nowMs then
    let (hub, emitted) := attempt selfSourceId hub kUsbTopicId (packUsbInto snapshot.usb)
      kUsbPayloadSize emit
    ({ hub with publisher := { hub.publisher with usb := hub.publisher.usb.stamp nowMs } },
      emitted)
  else (hub, 0)

def tickPeers (hub : Hub) (nowMs : UInt32) (snapshot : Snapshot) (emit : EmitFn) : Hub × Nat :=
  let fingerprint := peersFingerprint (snapshot.peers.take kMaxPeers)
  if duePeers hub.publisher nowMs fingerprint then
    let (hub, emitted) := attempt selfSourceId hub kPeersTopicId (packPeersInto snapshot.peers)
      kMaxPeersPayloadSize emit
    ({ hub with
        publisher :=
          { hub.publisher with
            peers := hub.publisher.peers.stamp nowMs
            peersFingerprint := fingerprint
            peersFingerprintValid := true } },
      emitted)
  else (hub, 0)

/-- `tick`, with the snapshot that the provider fills in; `none` where there is no
provider, or no emit function. -/
def tick (hub : Hub) (nowMs : UInt32) (provider : Option Snapshot) (emit : Option EmitFn) :
    Hub × Nat :=
  match emit, provider with
  | some emit, some snapshot =>
    if !hasSubscribers hub.publisher then (hub, 0)
    else
      let hub := { hub with calls := hub.calls ++ [.provider] }
      let (hub, link) := tickLink selfSourceId hub nowMs snapshot emit
      let (hub, usb) := tickUsb selfSourceId hub nowMs snapshot emit
      let (hub, peers) := tickPeers selfSourceId hub nowMs snapshot emit
      (hub, link + usb + peers)
  | _, _ => (hub, 0)

end Hub

/-! ## The calls of a tick -/

/-- What a call does to the registry. -/
def account (selfSourceId : UInt32) (registry : SubscriptionRegistry.Registry) :
    Call → SubscriptionRegistry.Registry
  | .forwarded topicId payloadBytes =>
    SubscriptionRegistry.recordForwarded registry selfSourceId topicId.toUInt32 payloadBytes
  | .dropped topicId =>
    SubscriptionRegistry.recordDropped registry selfSourceId topicId.toUInt32
  | .provider | .emit .. => registry

/-- The calls of one attempt to publish: the emit, and the accounting of its answer. -/
def attemptCalls (emit : EmitFn) (topicId : UInt16) (payload : Bytes) : List Call :=
  if emit topicId payload then [.emit topicId payload true, .forwarded topicId payload.length]
  else [.emit topicId payload false, .dropped topicId]

/-- The calls of a tick, in the order it makes them. -/
def tickCalls (g : Publisher) (nowMs : UInt32) (snapshot : Snapshot) (emit : EmitFn) :
    List Call :=
  if !hasSubscribers g then []
  else .provider :: (tick g nowMs snapshot).2.flatMap fun sample =>
    attemptCalls emit sample.1 sample.2

/-- An emit that was not refused. -/
def Call.accepted : Call → Bool
  | .emit _ _ accepted => accepted
  | _ => false

namespace Hub

variable {selfSourceId : UInt32} {hub : Hub} {nowMs : UInt32} {snapshot : Snapshot} {emit : EmitFn}

/-- The hub after some calls and with another publisher. -/
def after (selfSourceId : UInt32) (hub : Hub) (calls : List Call) (publisher : Publisher) : Hub :=
  { publisher
    registry := calls.foldl (account selfSourceId) hub.registry
    calls := hub.calls ++ calls }

theorem attempt_eq {topicId : UInt16} {pack : Option Bytes → Nat × Option Bytes}
    {capacity size : Nat} {payload rest : Bytes} (hsize : payload.length = size) (hne : size ≠ 0)
    (hpack : pack (some (List.replicate capacity 0)) = (size, some (payload ++ rest))) :
    attempt selfSourceId hub topicId pack capacity emit =
      (hub.after selfSourceId (attemptCalls emit topicId payload) hub.publisher,
        (attemptCalls emit topicId payload).countP Call.accepted) := by
  rw [attempt, hpack]
  dsimp only
  rw [if_neg hne, Option.getD_some, List.take_left' hsize, publish, attemptCalls]
  cases emit topicId payload <;> rfl

/-- The calls for a topic that is due or not. -/
def callsIf (due : Bool) (emit : EmitFn) (topicId : UInt16) (payload : Bytes) : List Call :=
  if due then attemptCalls emit topicId payload else []

theorem tickLink_eq :
    tickLink selfSourceId hub nowMs snapshot emit =
      (hub.after selfSourceId
          (callsIf (duePeriodic hub.publisher.link nowMs) emit kLinkTopicId (packLink snapshot.link))
          { hub.publisher with
            link := if duePeriodic hub.publisher.link nowMs then hub.publisher.link.stamp nowMs
              else hub.publisher.link },
        (callsIf (duePeriodic hub.publisher.link nowMs) emit kLinkTopicId
          (packLink snapshot.link)).countP Call.accepted) := by
  rw [tickLink, callsIf]
  split
  · rw [attempt_eq (length_packLink snapshot.link) (by decide)
      (packLinkInto_eq snapshot.link List.length_replicate.ge)]
    rfl
  · simp [after]

theorem tickUsb_eq :
    tickUsb selfSourceId hub nowMs snapshot emit =
      (hub.after selfSourceId
          (callsIf (duePeriodic hub.publisher.usb nowMs) emit kUsbTopicId (packUsb snapshot.usb))
          { hub.publisher with
            usb := if duePeriodic hub.publisher.usb nowMs then hub.publisher.usb.stamp nowMs
              else hub.publisher.usb },
        (callsIf (duePeriodic hub.publisher.usb nowMs) emit kUsbTopicId
          (packUsb snapshot.usb)).countP Call.accepted) := by
  rw [tickUsb, callsIf]
  split
  · rw [attempt_eq (length_packUsb snapshot.usb) (by decide)
      (packUsbInto_eq snapshot.usb List.length_replicate.ge)]
    rfl
  · simp [after]

theorem tickPeers_eq {fingerprint : UInt32}
    (hfp : peersFingerprint (snapshot.peers.take kMaxPeers) = fingerprint) :
    tickPeers selfSourceId hub nowMs snapshot emit =
      (hub.after selfSourceId
          (callsIf (duePeers hub.publisher nowMs fingerprint) emit kPeersTopicId
            (packPeers snapshot.peers))
          { hub.publisher with
            peers := if duePeers hub.publisher nowMs fingerprint then hub.publisher.peers.stamp nowMs
              else hub.publisher.peers
            peersFingerprint := if duePeers hub.publisher nowMs fingerprint then fingerprint
              else hub.publisher.peersFingerprint
            peersFingerprintValid := duePeers hub.publisher nowMs fingerprint ||
              hub.publisher.peersFingerprintValid },
        (callsIf (duePeers hub.publisher nowMs fingerprint) emit kPeersTopicId
          (packPeers snapshot.peers)).countP Call.accepted) := by
  have hroom : peersPayloadSize snapshot.peers ≤ kMaxPeersPayloadSize :=
    Nat.add_le_add_left (Nat.mul_le_mul_left _ (Nat.min_le_right ..)) _
  have hne : peersPayloadSize snapshot.peers ≠ 0 :=
    Nat.ne_of_gt (Nat.lt_of_lt_of_le (by decide : 0 < kPeersPayloadOverhead) (Nat.le_add_right ..))
  rw [tickPeers, hfp, callsIf]
  cases hdue : duePeers hub.publisher nowMs fingerprint with
  | true =>
    rw [if_pos rfl, attempt_eq (length_packPeers snapshot.peers) hne
      (packPeersInto_eq snapshot.peers (by rwa [List.length_replicate]))]
    rfl
  | false => simp [after]

theorem after_after (calls calls' : List Call) (g g' : Publisher) :
    (hub.after selfSourceId calls g).after selfSourceId calls' g' =
      hub.after selfSourceId (calls ++ calls') g' := by
  simp only [after, List.foldl_append, List.append_assoc]

theorem callsIf_eq (due : Bool) (topicId : UInt16) (payload : Bytes) :
    ((if due then [(topicId, payload)] else []).flatMap fun sample =>
      attemptCalls emit sample.1 sample.2) = callsIf due emit topicId payload := by
  cases due with
  | true => exact List.append_nil _
  | false => rfl

theorem tickCalls_eq {g : Publisher} (h : hasSubscribers g = true) {fingerprint : UInt32}
    (hfp : peersFingerprint (snapshot.peers.take kMaxPeers) = fingerprint) :
    tickCalls g nowMs snapshot emit = .provider ::
      (callsIf (duePeriodic g.link nowMs) emit kLinkTopicId (packLink snapshot.link) ++
        callsIf (duePeriodic g.usb nowMs) emit kUsbTopicId (packUsb snapshot.usb) ++
        callsIf (duePeers g nowMs fingerprint) emit kPeersTopicId (packPeers snapshot.peers)) := by
  rw [tickCalls, h, DonglePublisher.tick, h, hfp]
  simp only [Bool.not_true, Bool.false_eq_true, if_false, List.flatMap_append, callsIf_eq]

/-- A tick makes its calls and leaves the publisher as the schedule says. -/
theorem tick_eq :
    tick selfSourceId hub nowMs (some snapshot) (some emit) =
      (hub.after selfSourceId (tickCalls hub.publisher nowMs snapshot emit)
          (DonglePublisher.tick hub.publisher nowMs snapshot).1,
        (tickCalls hub.publisher nowMs snapshot emit).countP Call.accepted) := by
  cases h : hasSubscribers hub.publisher with
  | false =>
    rw [tick, tickCalls, DonglePublisher.tick]
    simp [h, after]
  | true =>
    have hstart : { hub with calls := hub.calls ++ [Call.provider] } =
        hub.after selfSourceId [.provider] hub.publisher := rfl
    rw [tick, tickCalls_eq h rfl, DonglePublisher.tick]
    simp only [h, Bool.not_true, Bool.false_eq_true, if_false]
    rw [hstart, tickLink_eq]
    dsimp only
    rw [tickUsb_eq]
    dsimp only
    rw [tickPeers_eq rfl]
    simp only [after_after, List.countP_cons, List.countP_append]
    rfl

end Hub

end BallyDongle.DonglePublisher
