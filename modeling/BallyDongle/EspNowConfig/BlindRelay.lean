import BallyDongle.EspNowConfig.Reception

/-!
# The blind relay

A datagram that cannot be for the dongle goes to the desktop as it came. It moves
one queue and the counters, and what it moves them to is a matter of its header and
its length: two datagrams that differ in their payload go the same way.
-/

namespace BallyDongle.SerialMux

open Btp SerialSession

variable {e : Egress} {cls : PriorityClass} {frame frame' : Bytes}

/-- Two frames offered to the queues: each was appended to what the queue of the
class kept, or neither was queued, and nothing else differs. -/
structure Alike (e : Egress) (cls : PriorityClass) (frame frame' : Bytes) (r r' : Egress) :
    Prop where
  queued : r.queues = e.queues ∧ r'.queues = e.queues ∨
    ∃ kept, kept <:+ e.queues.frames cls ∧
      r.queues.frames cls = kept ++ [frame] ∧ r'.queues.frames cls = kept ++ [frame']
  other : ∀ other, other ≠ cls →
    r.queues other = e.queues other ∧ r'.queues other = e.queues other
  counters : { r with queues := e.queues } = { r' with queues := e.queues }

theorem Alike.refl (e : Egress) (cls : PriorityClass) (frame frame' : Bytes) :
    Alike e cls frame frame' e e :=
  ⟨.inl ⟨rfl, rfl⟩, fun _ _ => ⟨rfl, rfl⟩, rfl⟩

/-- A queue with a frame more at its end. -/
theorem Alike.append {kept : List Bytes}
    {queue queue' : BoundedQueue (QueuedFrame cls) (kQueueDepth cls)}
    (hkept : kept <:+ e.queues.frames cls)
    (hq : queue.items.map QueuedFrame.bytes = kept ++ [frame])
    (hq' : queue'.items.map QueuedFrame.bytes = kept ++ [frame']) :
    Alike e cls frame frame' (e.setQueue cls queue) (e.setQueue cls queue') where
  queued := .inr ⟨kept, hkept, by simpa [Egress.setQueue, Queues.frames] using hq,
    by simpa [Egress.setQueue, Queues.frames] using hq'⟩
  other other hne := ⟨Function.update_of_ne hne .., Function.update_of_ne hne ..⟩
  counters := rfl

theorem Alike.countDrop {r r' : Egress} (h : Alike e cls frame frame' r r') :
    Alike e cls frame frame' (r.countDrop cls) (r'.countDrop cls) where
  queued := h.queued
  other := h.other
  counters := congrArg (Egress.countDrop · cls) h.counters

/-- A queue takes two items alike: both or neither. -/
theorem send_alike (queue : BoundedQueue (QueuedFrame cls) (kQueueDepth cls))
    (item item' : QueuedFrame cls) :
    queue.send item = none ∧ queue.send item' = none ∨
    ∃ next next', queue.send item = some next ∧ queue.send item' = some next' ∧
      next.items = queue.items ++ [item] ∧ next'.items = queue.items ++ [item'] := by
  cases h : queue.send item with
  | none => exact .inl ⟨rfl, BoundedQueue.send_eq_none.2 (BoundedQueue.send_eq_none.1 h)⟩
  | some next =>
    cases h' : queue.send item' with
    | none =>
      rw [BoundedQueue.send_eq_none.2 (BoundedQueue.send_eq_none.1 h')] at h
      cases h
    | some next' =>
      exact .inr ⟨next, next', rfl, rfl, BoundedQueue.send_eq_some h, BoundedQueue.send_eq_some h'⟩

/-- The class's policy looks at the length of a frame only. -/
theorem enqueue_alike (e : Egress) (cls : PriorityClass) (hlen : frame'.length = frame.length) :
    (enqueueFrameBytes e cls frame).2 = (enqueueFrameBytes e cls frame').2 ∧
      Alike e cls frame frame' (enqueueFrameBytes e cls frame).1
        (enqueueFrameBytes e cls frame').1 := by
  unfold enqueueFrameBytes
  by_cases hcap : frame.length ≤ kClassFrameCap cls
  · have hcap' : frame'.length ≤ kClassFrameCap cls := hlen ▸ hcap
    rw [dif_pos hcap, dif_pos hcap']
    dsimp only
    obtain ⟨h, h'⟩ | ⟨next, next', h, h', hitems, hitems'⟩ :=
      send_alike (e.queues cls) ⟨frame, hcap⟩ ⟨frame', hcap'⟩
    · -- full: the class decides
      rw [h, h']
      dsimp only
      split
      · obtain ⟨h, h'⟩ | ⟨next, next', h, h', hitems, hitems'⟩ :=
          send_alike (e.queues cls).discard ⟨frame, hcap⟩ ⟨frame', hcap'⟩
        · exact absurd h (BoundedQueue.send_discard (by cases cls <;> decide))
        · rw [h, h']
          have htail : ((e.queues cls).items.tail).map QueuedFrame.bytes <:+ e.queues.frames cls :=
            (List.tail_suffix _).map _
          refine ⟨rfl, (Alike.append htail ?_ ?_).countDrop⟩
          · rw [hitems, List.map_append, BoundedQueue.items_discard]
            rfl
          · rw [hitems', List.map_append, BoundedQueue.items_discard]
            rfl
      · exact ⟨rfl, (Alike.refl e cls frame frame').countDrop⟩
    · rw [h, h']
      refine ⟨rfl, Alike.append (List.suffix_refl _) ?_ ?_⟩
      · rw [hitems, List.map_append]
        rfl
      · rw [hitems', List.map_append]
        rfl
  · rw [dif_neg hcap, dif_neg (hlen ▸ hcap)]
    exact ⟨rfl, .refl e cls frame frame'⟩

theorem countTelemetryDropped_eq {P : Platform} (m : Mux P) (header : Header) :
    m.countTelemetryDropped header =
      { m with telemetryDropped := (m.countTelemetryDropped header).telemetryDropped } := by
  unfold Mux.countTelemetryDropped
  split <;> rfl

theorem relayUp_shared {P : Platform} (m : Mux P) (header : Header) (frame : Bytes) :
    (m.relayUp header frame).1.shared = m.shared := by
  unfold Mux.relayUp
  split
  · rw [countTelemetryDropped_eq]
  split
  · rfl
  split
  · rw [Mux.refuseUnwanted, countTelemetryDropped_eq]
    rfl
  · unfold Mux.forward
    dsimp only
    split <;> rfl

/-- `relayUp` decides by the header and the length. -/
theorem relayUp_alike {P : Platform} (m : Mux P) (header : Header)
    (hlen : frame'.length = frame.length) :
    Alike m.egress (classify header.type header.objectId) frame frame'
        (m.relayUp header frame).1.egress (m.relayUp header frame').1.egress ∧
      { (m.relayUp header frame).1 with egress := m.egress } =
        { (m.relayUp header frame').1 with egress := m.egress } := by
  have hnil : frame' = [] ↔ frame = [] := by
    rw [← List.length_eq_zero_iff, hlen, List.length_eq_zero_iff]
  unfold Mux.relayUp
  simp only [hnil]
  split
  · rw [countTelemetryDropped_eq]
    exact ⟨.refl .., rfl⟩
  split
  · exact ⟨.refl .., rfl⟩
  split
  · rw [Mux.refuseUnwanted, countTelemetryDropped_eq]
    exact ⟨.refl .., rfl⟩
  · obtain ⟨hqueued, halike⟩ := enqueue_alike m.egress (classify header.type header.objectId) hlen
    unfold Mux.forward Mux.enqueueFrame
    rw [hlen]
    dsimp only
    rw [hqueued]
    split <;> exact ⟨halike, rfl⟩

end BallyDongle.SerialMux

namespace BallyDongle.EspNowConfig

open Btp BtpTransport BtpCommand ProtocolRouter SerialMux SerialSession

variable {E : Platform} {s s' : State E} {d : Datagram}

/-- With a desktop attached, what is no candidate is relayed at once. -/
theorem processRxDatagram_blind (s : State E) {decoded : DecodedFrame}
    (hd : E.serial.codec.decode .espNow d.data = .ok decoded)
    (hno : Channels.dongleMayConsume decoded.header.type decoded.header.objectId = false)
    (hproto : s.mux.isProtocolled = true) :
    s.processRxDatagram d = s.countDatagram.relayUp decoded.header d.data := by
  have hclass : HubRelay.classifyRadio E.serial.codec d.data = .ok ⟨decoded.header, false⟩ := by
    rw [HubRelay.classifyRadio, hd, Except.map, hno]
  have hproto : s.countDatagram.mux.isProtocolled = true := hproto
  rw [State.processRxDatagram]
  simp only [hclass, Bool.not_false, Bool.true_and, hproto, if_true]

/-- What a relay leaves alone. -/
structure Traceless (s s' : State E) : Prop where
  router : s'.router = s.router
  pending : s'.pending = s.pending
  peers : s'.mux.shared.peers = s.mux.shared.peers
  manifest : s'.mux.shared.manifest = s.mux.shared.manifest
  manager : s'.manager = s.manager

/-- The state but for the frames queued: every counter, table and session. -/
def State.apartFromQueues (s base : State E) : State E :=
  { s with mux := { s.mux with egress := { s.mux.egress with queues := base.mux.egress.queues } }
           calls := base.calls }

/-- A datagram that is no candidate leaves no trace but one frame in the queue of its
class, and goes the way any other of its header and length goes. -/
theorem blindRelay (s : State E) (d : Datagram) (data' : Bytes) {decoded decoded' : DecodedFrame}
    (hd : E.serial.codec.decode .espNow d.data = .ok decoded)
    (hd' : E.serial.codec.decode .espNow data' = .ok decoded')
    (hheader : decoded'.header = decoded.header) (hlen : data'.length = d.data.length)
    (hno : Channels.dongleMayConsume decoded.header.type decoded.header.objectId = false)
    (hproto : s.mux.isProtocolled = true) :
    let s₁ := s.processRxDatagram d
    let s₂ := s.processRxDatagram { d with data := data' }
    Traceless s s₁ ∧
      Alike s.mux.egress (classify decoded.header.type decoded.header.objectId) d.data data'
        s₁.mux.egress s₂.mux.egress ∧
      s₁.apartFromQueues s = s₂.apartFromQueues s := by
  intro s₁ s₂
  have h₁ : s₁ = s.countDatagram.relayUp decoded.header d.data :=
    processRxDatagram_blind s hd hno hproto
  have h₂ : s₂ = s.countDatagram.relayUp decoded.header data' := by
    rw [← hheader] at hno ⊢
    exact processRxDatagram_blind (d := { d with data := data' }) s hd' hno hproto
  obtain ⟨halike, hrest⟩ := relayUp_alike s.mux decoded.header hlen
  have hshared := relayUp_shared s.mux decoded.header d.data
  have hmux : { (s.mux.relayUp decoded.header d.data).1 with
        egress := { (s.mux.relayUp decoded.header d.data).1.egress with
          queues := s.mux.egress.queues } } =
      { (s.mux.relayUp decoded.header data').1 with
        egress := { (s.mux.relayUp decoded.header data').1.egress with
          queues := s.mux.egress.queues } } :=
    congrArg₂ (fun (m : Mux E.serial) egress => { m with egress }) hrest halike.counters
  rw [h₁, h₂]
  refine ⟨⟨rfl, rfl, congrArg Shared.peers hshared, congrArg Shared.manifest hshared, rfl⟩,
    halike, ?_⟩
  exact congrArg (fun mux =>
    { s.countDatagram.countRouted decoded.header.type with mux, calls := s.calls }) hmux

/-- A LOG of robot 9. -/
def benchLog (payload : Bytes) : Bytes := benchFrame [4, 0, 1, 9, 1, 1, 0, 1] payload

theorem blindRelay_logs :
    let s₁ := (benchState .active).processRxDatagram (benchDatagram (benchLog [7, 7]) 0)
    let s₂ := (benchState .active).processRxDatagram (benchDatagram (benchLog [0, 9]) 0)
    s₁.mux.egress.queues.frames .logStatus = [benchLog [7, 7]] ∧
      Traceless (benchState .active) s₁ ∧
      Alike (benchState .active).mux.egress .logStatus (benchLog [7, 7]) (benchLog [0, 9])
        s₁.mux.egress s₂.mux.egress :=
  have h := blindRelay (benchState .active) (benchDatagram (benchLog [7, 7]) 0) (benchLog [0, 9])
    rfl rfl rfl rfl rfl rfl
  ⟨rfl, h.1, h.2.1⟩

end BallyDongle.EspNowConfig
