import BallyDongle.SubscriptionRegistry.Capacity
import BallyDongle.SerialMux.Tick

/-!
# The telemetry gate

Both relays from the radio ask `isKnownUnwanted` before they queue a telemetry
frame, and count what they did on the row of its topic.
-/

namespace BallyDongle.SerialMux

open Btp SerialSession SubscriptionRegistry

variable {P : Platform} {m : Mux P} {header : Header} {ops : List Op}

/-- A frame is its header, its payload and its CRC. -/
structure FrameSized (codec : Codec) : Prop where
  encode : ∀ transport decoded outCapacity frame,
    codec.encode transport decoded outCapacity = some frame →
      frame.length = kV1MinimumFrameSize + decoded.payload.length ∧ frame.length ≤ outCapacity
  decode : ∀ transport frame decoded, codec.decode transport frame = .ok decoded →
    frame.length = kV1MinimumFrameSize + decoded.payload.length

/-- The topic a telemetry header names. -/
def topicOf (header : Header) : UInt32 × UInt32 := (header.sourceId, header.objectId.toUInt32)

/-- The topic was subscribed to since boot and has no client left. -/
def Released (ops : List Op) (k : UInt32 × UInt32) : Prop :=
  k ∈ acceptedTopics {} ops ∧
    ∀ r, ((run {} ops).rows r).key = some k → ¬Live ((run {} ops).rows r)

/-- The gate took the frame: nothing was queued, and in a session nothing else
counts here. -/
def Refused (m : Mux P) (out : Mux P × Bool) : Prop :=
  out.2 = false ∧ out.1.egress = m.egress ∧ out.1.telemetryDropped = m.telemetryDropped + 1

/-- One row counts the frame: its payload as forwarded, or one sample as dropped. -/
def Accounted (g g' : Registry) (r : Fin kMaxTopics) (payloadSize : Nat) : Prop :=
  g' = g.setRow r { g.rows r with
    bytesTotal := (g.rows r).bytesTotal + payloadSize.toUInt64 } ∨
  g' = g.setRow r { g.rows r with samplesDroppedTotal := (g.rows r).samplesDroppedTotal + 1 }

/-! ## What the gate knows -/

theorem mem_acceptedTopics {k : UInt32 × UInt32} :
    k ∈ acceptedTopics {} ops ↔ ∃ r, ((run {} ops).rows r).key = some k := by
  rw [← SlotTable.mem_keys, run_mem_keys]
  refine (or_iff_right fun hk => ?_).symm
  obtain ⟨r, hr⟩ := SlotTable.mem_keys.1 hk
  cases hr

theorem released_iff (sourceId topicId : UInt32) :
    Released ops (sourceId, topicId) ↔ isKnownUnwanted (run {} ops) sourceId topicId = true := by
  have hc : Coherent (run {} ops) := init_coherent.run ops
  rw [Released, mem_acceptedTopics, isKnownUnwanted]
  cases hfind : findRow (run {} ops) sourceId topicId with
  | none => exact iff_of_false (fun h => h.1.elim fun r hr => findRow_eq_none.1 hfind r hr) nofun
  | some r =>
    have hkey := findRow_key hfind
    simp only [decide_eq_true_eq]
    rw [refcount_eq_zero]
    refine ⟨fun h => h.2 r hkey, fun hdead => ⟨⟨r, hkey⟩, fun r' hr' => ?_⟩⟩
    rwa [hc.rows hr' hkey]

theorem unwanted_iff (hregistry : m.topics.registry = run {} ops)
    (htelemetry : header.type = .telemetry) :
    m.unwanted header = true ↔ Released ops (topicOf header) := by
  rw [topicOf, released_iff, Mux.unwanted, htelemetry, hregistry]
  simp

/-! ## What a relay leaves behind -/

theorem refuseUnwanted_refused (htelemetry : header.type = .telemetry) :
    Refused m (m.refuseUnwanted header, false) := by
  rw [Refused, Mux.refuseUnwanted, Mux.countTelemetryDropped, if_pos htelemetry]
  exact ⟨rfl, rfl, rfl⟩

theorem forward_telemetryDropped (header : Header) (frame : Bytes) (payloadSize : Nat) :
    (m.forward header frame payloadSize).1.telemetryDropped = m.telemetryDropped := by
  rw [Mux.forward]
  dsimp only
  split <;> rfl

theorem not_refused {out : Mux P × Bool} (h : out.1.telemetryDropped = m.telemetryDropped) :
    ¬Refused m out := by
  rintro ⟨-, -, hcount⟩
  rw [h] at hcount
  have hnat := congrArg UInt64.toNat hcount
  rw [UInt64.toNat_add, show UInt64.toNat 1 = 1 from rfl] at hnat
  have := m.telemetryDropped.toNat_lt
  omega

theorem recordSample_accounted (hregistry : m.topics.registry = run {} ops) {r : Fin kMaxTopics}
    (hkey : (m.topics.registry.rows r).key = some (topicOf header)) (queued : Bool)
    (payloadSize : Nat) :
    Accounted m.topics.registry
      (m.recordSample queued header.sourceId header.objectId payloadSize).topics.registry r
      payloadSize := by
  obtain ⟨hused, hsource, htopic⟩ := TopicRow.key_eq_some.1 hkey
  have hc : Coherent m.topics.registry := by
    rw [hregistry]
    exact init_coherent.run ops
  have hfind : findRow m.topics.registry header.sourceId header.objectId.toUInt32 = some r := by
    have := hc.findRow_eq hused
    rwa [hsource, htopic] at this
  cases queued with
  | true =>
    refine .inl ?_
    show recordForwarded m.topics.registry header.sourceId header.objectId.toUInt32 payloadSize = _
    rw [recordForwarded, onRow, hfind]
  | false =>
    refine .inr ?_
    show recordDropped m.topics.registry header.sourceId header.objectId.toUInt32 = _
    rw [recordDropped, onRow, hfind]

theorem forward_accounted (hregistry : m.topics.registry = run {} ops)
    (htelemetry : header.type = .telemetry) {r : Fin kMaxTopics}
    (hkey : (m.topics.registry.rows r).key = some (topicOf header)) (frame : Bytes)
    (payloadSize : Nat) :
    Accounted m.topics.registry (m.forward header frame payloadSize).1.topics.registry r
      payloadSize := by
  rw [Mux.forward]
  dsimp only
  rw [if_pos htelemetry]
  exact recordSample_accounted (m := (m.enqueueFrame _ frame).1) hregistry hkey _ payloadSize

theorem refuseUnwanted_accounted (hregistry : m.topics.registry = run {} ops) {r : Fin kMaxTopics}
    (hkey : (m.topics.registry.rows r).key = some (topicOf header)) (payloadSize : Nat) :
    Accounted m.topics.registry (m.refuseUnwanted header).topics.registry r payloadSize := by
  have htopics : (m.countTelemetryDropped header).topics = m.topics := by
    unfold Mux.countTelemetryDropped
    split <;> rfl
  have h := (@recordSample_accounted _ (m.countTelemetryDropped header) header _)
    (by rw [htopics, hregistry]) (by rw [htopics, hkey]) false payloadSize
  rwa [htopics] at h

/-! ## The two paths -/

section paths

variable (hprotocolled : m.isProtocolled = true) (htelemetry : header.type = .telemetry)

include hprotocolled htelemetry

theorem forwardRelay_refused (payload : Bytes) :
    Refused m (m.forwardRelay header payload) ↔ m.unwanted header = true := by
  rw [Mux.forwardRelay, hprotocolled, if_neg (by decide)]
  split
  · rename_i hunwanted
    exact iff_of_true (refuseUnwanted_refused htelemetry) hunwanted
  · rename_i hwanted
    refine iff_of_false (not_refused ?_) hwanted
    split
    · rfl
    · split
      · rfl
      · exact forward_telemetryDropped ..

theorem relayUp_refused {frame : Bytes} (hne : frame ≠ []) :
    Refused m (m.relayUp header frame) ↔ m.unwanted header = true := by
  rw [Mux.relayUp, hprotocolled, if_neg (by decide), if_neg hne]
  split
  · rename_i hunwanted
    exact iff_of_true (refuseUnwanted_refused htelemetry) hunwanted
  · rename_i hwanted
    exact iff_of_false (not_refused (forward_telemetryDropped ..)) hwanted

variable (hregistry : m.topics.registry = run {} ops) {r : Fin kMaxTopics}
  (hkey : (m.topics.registry.rows r).key = some (topicOf header))

include hregistry hkey

theorem forwardRelay_accounted (sized : FrameSized P.codec) {payload frame : Bytes}
    (hencode : P.codec.encode .serial { header, payload } kMaxFrameBytes = some frame) :
    Accounted m.topics.registry (m.forwardRelay header payload).1.topics.registry r
      payload.length := by
  have hfits : ¬kOutboundPayloadCap < payload.length := by
    obtain ⟨hlen, hcap⟩ := sized.encode _ _ _ _ hencode
    simp only [kV1MinimumFrameSize, kMaxFrameBytes] at hlen hcap
    omega
  rw [Mux.forwardRelay, hprotocolled, if_neg (by decide), if_neg hfits, hencode]
  split
  · exact refuseUnwanted_accounted hregistry hkey _
  · exact forward_accounted hregistry htelemetry hkey frame payload.length

theorem relayUp_accounted (sized : FrameSized P.codec) {datagram payload : Bytes}
    (hdecode : P.codec.decode .espNow datagram = .ok { header, payload }) :
    Accounted m.topics.registry (m.relayUp header datagram).1.topics.registry r
      payload.length := by
  have hlen := sized.decode _ _ _ hdecode
  have hne : datagram ≠ [] := by
    rintro rfl
    simp only [List.length_nil, kV1MinimumFrameSize] at hlen
    omega
  rw [Mux.relayUp, hprotocolled, if_neg (by decide), if_neg hne]
  split
  · exact refuseUnwanted_accounted hregistry hkey _
  · rw [hlen, Nat.add_sub_cancel_left]
    exact forward_accounted hregistry htelemetry hkey datagram payload.length

end paths

/-- In a session both relays refuse a telemetry frame just when its topic was released,
and a frame of a known topic is counted on its row, once. -/
theorem telemetry_gate (sized : FrameSized P.codec) (ops : List Op) (m : Mux P)
    (hregistry : m.topics.registry = run {} ops) (hprotocolled : m.isProtocolled = true)
    (header : Header) (htelemetry : header.type = .telemetry) :
    (∀ payload, Refused m (m.forwardRelay header payload) ↔ Released ops (topicOf header)) ∧
    (∀ frame, frame ≠ [] →
      (Refused m (m.relayUp header frame) ↔ Released ops (topicOf header))) ∧
    ∀ r, (m.topics.registry.rows r).key = some (topicOf header) →
      (∀ payload frame, P.codec.encode .serial { header, payload } kMaxFrameBytes = some frame →
        Accounted m.topics.registry (m.forwardRelay header payload).1.topics.registry r
          payload.length) ∧
      ∀ datagram payload, P.codec.decode .espNow datagram = .ok { header, payload } →
        Accounted m.topics.registry (m.relayUp header datagram).1.topics.registry r
          payload.length := by
  have hunwanted := unwanted_iff hregistry htelemetry
  refine ⟨fun payload => ?_, fun frame hne => ?_, fun r hkey => ⟨fun payload frame hencode => ?_,
    fun datagram payload hdecode => ?_⟩⟩
  · exact (forwardRelay_refused hprotocolled htelemetry payload).trans hunwanted
  · exact (relayUp_refused hprotocolled htelemetry hne).trans hunwanted
  · exact forwardRelay_accounted hprotocolled htelemetry hregistry hkey sized hencode
  · exact relayUp_accounted hprotocolled htelemetry hregistry hkey sized hdecode

theorem bench_frameSized : FrameSized bench.codec where
  encode transport decoded outCapacity frame h := by
    obtain ⟨hfits, hframe⟩ := Option.ite_none_left_eq_some.1 h
    cases hframe
    simp only [not_or, Nat.not_lt] at hfits
    refine ⟨?_, hfits.2⟩
    simp [kV1MinimumFrameSize]
    omega
  decode _ _ _ h := nomatch h

/-- Topic 2 of robot 1, subscribed to and released. -/
def releasedTopic : List Op := [.subscribe 7 1 2 500 2000 0, .unsubscribe 7 1 10]

theorem telemetry_gate_released :
    let m : Mux bench :=
      { session := { node := ({ state := .active } : BenchNode) }, decoder := ()
        terminalShell := (), shared := { world := () }, topics := { registry := run {} releasedTopic } }
    let header : Header :=
      { type := .telemetry, sourceId := 1, bootId := 1, sequence := 1, objectId := 2 }
    Refused m (m.forwardRelay header [0x2A]) :=
  (telemetry_gate bench_frameSized releasedTopic _ rfl rfl _ rfl).1 [0x2A] |>.2
    ((released_iff 1 2).2 (by decide))

end BallyDongle.SerialMux
