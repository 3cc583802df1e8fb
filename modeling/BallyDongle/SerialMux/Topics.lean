import BallyDongle.SubscriptionRegistry
import BallyDongle.ManifestCache

/-!
# Subscriptions and the dongle's own topics

The half of `SerialMux.cpp` between `SubscriptionRegistry` and `DonglePublisher`:
every change of the registry returns actions, and the actions about the dongle's
own topics are carried to the publisher before anything else runs.
-/

namespace BallyDongle.SerialMux

open Btp

/-- The registry and the publisher, which only the functions here change together. -/
structure Topics where
  registry : SubscriptionRegistry.Registry := {}
  publisher : DonglePublisher.Publisher := {}

/-- Only the dongle's own topics have a producer the dongle can tell anything. -/
def dispatchUpstreamAction (selfSourceId : UInt32) (g : DonglePublisher.Publisher)
    (action : SubscriptionRegistry.UpstreamAction) : DonglePublisher.Publisher :=
  if action.sourceId ≠ 0 ∧ action.sourceId = selfSourceId then
    match action.kind with
    | .subscribe => DonglePublisher.onLocalSubscribe g action.topicId.toUInt16 action.rateMillihz
    | .unsubscribe => DonglePublisher.onLocalUnsubscribe g action.topicId.toUInt16
    | .none => g
  else g

def dispatchUpstreamActions (selfSourceId : UInt32) (g : DonglePublisher.Publisher)
    (actions : List SubscriptionRegistry.UpstreamAction) : DonglePublisher.Publisher :=
  actions.foldl (dispatchUpstreamAction selfSourceId) g

/-- What a SUBSCRIBE is answered with, apart from the request it answers. -/
structure SubscribeReply where
  status : UInt8 := 0x00
  errorCode : UInt16 := 0x0000
  subscriptionId : UInt32 := 0
  effectiveRateMillihz : UInt32 := 0
  grantedLeaseMs : UInt32 := 0
  deriving DecidableEq, Repr

/-- A schema maximum of 0 is an event-driven topic: only the request caps it. -/
def cappedRateMillihz (requested schemaMax : UInt32) : UInt32 :=
  if schemaMax ≠ 0 ∧ schemaMax < requested then schemaMax else requested

/-- The clamp of the registry, written out again for the reply. -/
def grantedLeaseMs (requestedLeaseMs : UInt32) : UInt32 :=
  if requestedLeaseMs < SubscriptionRegistry.kMinLeaseMs then SubscriptionRegistry.kMinLeaseMs
  else if SubscriptionRegistry.kMaxLeaseMs < requestedLeaseMs then SubscriptionRegistry.kMaxLeaseMs
  else requestedLeaseMs

namespace Topics

variable (selfSourceId : UInt32) (t : Topics)

/-- The local half of `handleSubscribeRequest`, for a payload that decoded. -/
def subscribe (manifest : ManifestCache.Cache) (clientId : UInt32) (sub : Subscribe)
    (nowMs : UInt32) : Topics × SubscribeReply :=
  let kStatusRejected : UInt8 := 0x01
  let kErrorNotFound : UInt16 := 0x000B
  let kErrorCapacityExhausted : UInt16 := 0x0005
  match ManifestCache.lookupTopicMaxRateMillihz manifest selfSourceId sub.targetSourceId
      sub.topicId with
  | none => (t, { status := kStatusRejected, errorCode := kErrorNotFound })
  | some schemaMax =>
    let capped := cappedRateMillihz sub.requestedRateMillihz schemaMax
    let (registry, outcome) :=
      SubscriptionRegistry.onDesktopSubscribe t.registry clientId sub.targetSourceId sub.topicId
        capped sub.requestedLeaseMs nowMs
    if outcome.accepted then
      ({ registry, publisher := dispatchUpstreamAction selfSourceId t.publisher outcome.upstream },
        { subscriptionId := outcome.subscriptionId
          effectiveRateMillihz := capped
          grantedLeaseMs := grantedLeaseMs sub.requestedLeaseMs })
    else
      ({ t with registry }, { status := kStatusRejected, errorCode := kErrorCapacityExhausted })

/-- The local half of `handleUnsubscribeRequest`. -/
def unsubscribe (clientId subscriptionId nowMs : UInt32) : Topics :=
  let (registry, outcome) :=
    SubscriptionRegistry.onDesktopUnsubscribe t.registry clientId subscriptionId nowMs
  { registry, publisher := dispatchUpstreamAction selfSourceId t.publisher outcome.upstream }

/-- Release everything a client holds. -/
def disconnect (clientId nowMs : UInt32) : Topics :=
  let (registry, written) :=
    SubscriptionRegistry.onClientDisconnected t.registry clientId nowMs {}
  { registry, publisher := dispatchUpstreamActions selfSourceId t.publisher written.stored }

/-- Release the leases that ran out. -/
def sweep (nowMs : UInt32) : Topics :=
  let (registry, written) := SubscriptionRegistry.sweep t.registry nowMs {}
  { registry, publisher := dispatchUpstreamActions selfSourceId t.publisher written.stored }

/-- Count a sample of a topic as forwarded or dropped. -/
def recordSample (queued : Bool) (sourceId : UInt32) (objectId : UInt16) (payloadSize : Nat) :
    Topics :=
  { t with registry :=
      if queued then
        SubscriptionRegistry.recordForwarded t.registry sourceId objectId.toUInt32 payloadSize
      else SubscriptionRegistry.recordDropped t.registry sourceId objectId.toUInt32 }

end Topics

end BallyDongle.SerialMux
