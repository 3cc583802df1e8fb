import BallyDongle.SerialMux.State

/-!
# The downstream relay

`relayDown` composes the binding table, the peer table, the codec and the radio
callback. `Relayed` lists its five outcomes with the table entries each rests
on; the claim about any history of the binding table then reads the table as the
finite map it declares.
-/

namespace BallyDongle.SerialMux

open Btp BtpTransport

theorem RelayDownCounters.bump_ne (c : RelayDownCounters) (o : RelayOutcome) : c.bump o ≠ c := by
  have hne : ∀ n : UInt64, n + 1 ≠ n := fun n h => by grind
  intro h
  cases o
  · exact hne _ (congrArg ok h)
  · exact hne _ (congrArg unbound h)
  · exact hne _ (congrArg noPeer h)
  · exact hne _ (congrArg oversized h)
  · exact hne _ (congrArg sendFailed h)

namespace Mux

variable {P : Platform} {m : Mux P} {decoded : DecodedFrame}

/-- The datagram a frame goes out as, and the MAC it goes to. -/
structure Target (m : Mux P) (declared : UInt32 → Option UInt32) (decoded : DecodedFrame)
    (mac : Mac) (datagram : Bytes) : Prop where
  peer : ∃ peerSourceId bootId, declared decoded.header.sourceId = some peerSourceId ∧
    lookupPeerMacBySourceId m.shared.peers peerSourceId = some (mac, bootId)
  verbatim : P.codec.encode .espNow ⟨decoded.header, decoded.payload⟩ kEspNowMaxFrameSize =
    some datagram

/-- What a relay did: nothing to the radio, or one call of its callback. -/
inductive Relayed (m : Mux P) (declared : UInt32 → Option UInt32) (decoded : DecodedFrame) :
    Mux P × Bool → Prop where
  | noRadio (h : P.relayToRadio = none) :
      Relayed m declared decoded (m.countRelay .sendFailed, false)
  | unbound (h : declared decoded.header.sourceId = none) :
      Relayed m declared decoded (m.countRelay .unbound, false)
  | noPeer {peerSourceId : UInt32} (h : declared decoded.header.sourceId = some peerSourceId)
      (hp : lookupPeerMacBySourceId m.shared.peers peerSourceId = none) :
      Relayed m declared decoded (m.countRelay .noPeer, false)
  | oversized
      (h : P.codec.encode .espNow ⟨decoded.header, decoded.payload⟩ kEspNowMaxFrameSize = none) :
      Relayed m declared decoded (m.countRelay .oversized, false)
  | called {send : P.World → Mac → Bytes → P.World × Bool} {mac : Mac} {datagram : Bytes}
      {world : P.World} {sent : Bool} (hs : P.relayToRadio = some send)
      (ht : Target m declared decoded mac datagram)
      (hw : send m.shared.world mac datagram = (world, sent)) :
      Relayed m declared decoded
        (countRelay { m with
            shared := { m.shared with world }
            radioCalls := m.radioCalls ++ [(mac, datagram)] }
          (bif sent then .ok else .sendFailed), sent)

theorem relayDown_relayed (m : Mux P) (decoded : DecodedFrame) :
    Relayed m (HubRegistry.lookup m.shared.hub) decoded (m.relayDown decoded) := by
  unfold relayDown
  cases hs : P.relayToRadio with
  | none => exact .noRadio hs
  | some send =>
    cases hl : HubRegistry.lookup m.shared.hub decoded.header.sourceId with
    | none => exact .unbound hl
    | some peerSourceId =>
      cases hp : lookupPeerMacBySourceId m.shared.peers peerSourceId with
      | none => simpa only [hp] using Relayed.noPeer hl hp
      | some entry =>
        obtain ⟨mac, bootId⟩ := entry
        cases he : HubRelay.reencodeVerbatim P.codec decoded .espNow kEspNowMaxFrameSize with
        | none => simpa only [hp, he] using Relayed.oversized he
        | some datagram =>
          have ht : Target m (HubRegistry.lookup m.shared.hub) decoded mac datagram :=
            ⟨⟨peerSourceId, bootId, hl, hp⟩, he⟩
          cases hw : send m.shared.world mac datagram with
          | mk world sent =>
            have hcall := Relayed.called hs ht hw
            cases sent <;> simpa only [hp, he, callRadio, hw, cond] using hcall

/-- Every relay bumps one counter, `ok` exactly when it reports success. -/
theorem Relayed.counter {declared : UInt32 → Option UInt32} {out : Mux P × Bool}
    (h : Relayed m declared decoded out) :
    ∃ o, out.1.relay = m.relay.bump o ∧ (out.2 = true ↔ o = .ok) := by
  cases h with
  | noRadio => exact ⟨.sendFailed, rfl, by simp⟩
  | unbound => exact ⟨.unbound, rfl, by simp⟩
  | noPeer => exact ⟨.noPeer, rfl, by simp⟩
  | oversized => exact ⟨.oversized, rfl, by simp⟩
  | @called _ _ _ _ sent => exact ⟨bif sent then .ok else .sendFailed, rfl, by cases sent <;> simp⟩

/-- The radio is called at most once, with the target of the frame; without a
call the world stays as it was. -/
theorem Relayed.calls {declared : UInt32 → Option UInt32} {out : Mux P × Bool}
    (h : Relayed m declared decoded out) :
    (out.1.radioCalls = m.radioCalls ∧ out.1.shared = m.shared ∧ out.2 = false) ∨
      ∃ send mac datagram, P.relayToRadio = some send ∧
        Target m declared decoded mac datagram ∧
        out.1.radioCalls = m.radioCalls ++ [(mac, datagram)] ∧
        (out.1.shared.world, out.2) = send m.shared.world mac datagram := by
  cases h with
  | noRadio => exact .inl ⟨rfl, rfl, rfl⟩
  | unbound => exact .inl ⟨rfl, rfl, rfl⟩
  | noPeer => exact .inl ⟨rfl, rfl, rfl⟩
  | oversized => exact .inl ⟨rfl, rfl, rfl⟩
  | called hs ht hw => exact .inr ⟨_, _, _, hs, ht, rfl, hw.symm⟩

/-- A relay changes its counters, the record of radio calls and the world. -/
theorem Relayed.frame {declared : UInt32 → Option UInt32} {out : Mux P × Bool}
    (h : Relayed m declared decoded out) :
    out.1 = { m with
      relay := out.1.relay
      radioCalls := out.1.radioCalls
      shared := { m.shared with world := out.1.shared.world } } := by
  cases h <;> rfl

/-! ## Any history of the binding table -/

theorem apply_bind_refused {d : HubRegistry.Declared} {child peer : UInt32} :
    (d.apply (.bind child peer)).2 = false ↔
      child = 0 ∨ peer = 0 ∨ (child ∉ d.keys ∧ d.keys.card = HubRegistry.kMaxBindings) := by
  simp only [HubRegistry.Declared.apply]
  by_cases h : child = 0 ∨ peer = 0
  · rw [if_pos h]
    tauto
  · rw [if_neg h, ← or_assoc, or_iff_right h, ← BoundedMap.insert?_eq_none (v := peer)]
    cases d.insert? child peer <;> simp

/-- After any history of commands the table is the declared map, each command
reports what the map reports, and a relay bumps one counter, calls the radio at
most once, at the MAC of the declared peer and with the frame as it was, and
changes nothing else. -/
theorem relayDown_declared (history : List HubRegistry.Op) (m : Mux P)
    (hm : m.shared.hub = HubRegistry.run HubRegistry.init history) (decoded : DecodedFrame) :
    let declared := HubRegistry.Declared.run .empty history
    let out := m.relayDown decoded
    (∀ child, HubRegistry.lookup m.shared.hub child = declared.get child) ∧
    (∀ op, (HubRegistry.apply m.shared.hub op).2 = (declared.apply op).2) ∧
    (∀ child peer, (HubRegistry.bind m.shared.hub child peer).2 = false ↔
      child = 0 ∨ peer = 0 ∨
        (child ∉ declared.keys ∧ declared.keys.card = HubRegistry.kMaxBindings)) ∧
    (∃ o, out.1.relay = m.relay.bump o ∧ (out.2 = true ↔ o = .ok)) ∧
    ((out.1.radioCalls = m.radioCalls ∧ out.1.shared = m.shared ∧ out.2 = false) ∨
      ∃ send mac datagram, P.relayToRadio = some send ∧
        Target m declared.get decoded mac datagram ∧
        out.1.radioCalls = m.radioCalls ++ [(mac, datagram)] ∧
        (out.1.shared.world, out.2) = send m.shared.world mac datagram) ∧
    out.1 = { m with
      relay := out.1.relay
      radioCalls := out.1.radioCalls
      shared := { m.shared with world := out.1.shared.world } } := by
  intro declared out
  obtain ⟨hwf, -⟩ := HubRegistry.run_refines HubRegistry.init_wellFormed history
  have hd : HubRegistry.declared m.shared.hub = declared := by
    rw [hm, HubRegistry.declared_run]
  rw [← hm] at hwf
  have hlookup : HubRegistry.lookup m.shared.hub = declared.get :=
    funext fun child => by rw [HubRegistry.lookup_eq_declared, hd]
  have hflag : ∀ op, (HubRegistry.apply m.shared.hub op).2 = (declared.apply op).2 := fun op => by
    rw [← hd]
    exact congrArg Prod.snd (HubRegistry.apply_refines hwf op).2
  have hrelayed : Relayed m declared.get decoded out := hlookup ▸ relayDown_relayed m decoded
  refine ⟨congrFun hlookup, hflag, fun child peer => ?_, hrelayed.counter, hrelayed.calls,
    hrelayed.frame⟩
  rw [← apply_bind_refused, ← hflag (.bind child peer)]
  rfl

/-- A zero id is refused by a table with room: not every refusal is a full map. -/
theorem bind_zero_refused :
    ¬ ∀ (history : List HubRegistry.Op) (child peer : UInt32),
      (HubRegistry.bind (HubRegistry.run HubRegistry.init history) child peer).2 = false →
        child ∉ (HubRegistry.Declared.run .empty history).keys ∧
          (HubRegistry.Declared.run .empty history).keys.card = HubRegistry.kMaxBindings :=
  fun h => absurd (h [] 0 7 (by decide)).2 (by decide)

set_option maxRecDepth 2000 in
/-- A child rebound to a known robot, with a frame too long for the radio. -/
theorem relayDown_declared_oversized :
    let history : List HubRegistry.Op := [.bind 9 4, .unbind 9, .bind 9 5]
    let mac : Mac := #v[1, 2, 3, 4, 5, 6]
    let m := benchMux (HubRegistry.run HubRegistry.init history)
      (rememberAuthenticatedPeer PeerTable.init mac 5 1 0 0)
    let frame : DecodedFrame :=
      { header := { type := .terminal, sourceId := 9, bootId := 1, sequence := 3, objectId := 1 }
        payload := List.replicate 211 65 }
    (m.relayDown frame).1.relay = { oversized := 1 } ∧
    ∃ o, (m.relayDown frame).1.relay = m.relay.bump o ∧ ((m.relayDown frame).2 = true ↔ o = .ok) :=
  ⟨by decide, (relayDown_declared _ (benchMux _ _) rfl _).2.2.2.1⟩

end Mux

end BallyDongle.SerialMux
