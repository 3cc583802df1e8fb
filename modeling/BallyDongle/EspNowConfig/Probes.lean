import BallyDongle.BtpTransport.BtpCommand
import BallyDongle.BtpTransport.PeerHistory
import BallyDongle.Lib.RoundRobin

/-!
# Heartbeats and pings

The heartbeat task probes one peer a tick and pings one every fifth tick, each kind with
a cursor of its own over a snapshot of the peer table. The table is locked while it is
read or written, not in between: the receiver's task may change it while a probe is
under way. `probed_in_turn` says that nobody is left out, `verdict_fresh` that the link
shown of a peer is what was found in the last round.
-/

namespace BallyDongle.EspNowConfig.Probes

open Btp BtpTransport BtpTransport.BtpCommand

def kPingActionVersion : UInt16 := 0x0001
def PING_TICK_EVERY_N_HEARTBEATS : UInt32 := 5

/-- The `nextPeer` of a tick, and the peers it has come to so far. -/
structure Cursor where
  nextPeer : Nat := 0
  targets : List Mac := []

/-- The peer whose turn it is, and the cursor past it. -/
def Cursor.target (c : Cursor) (peers : List PeerSnapshot) : Option (PeerSnapshot × Cursor) :=
  let nextPeer := if peers.length ≤ c.nextPeer then 0 else c.nextPeer
  match peers[nextPeer]? with
  | none => none
  | some target =>
    some (target,
      { nextPeer := (nextPeer + 1) % peers.length, targets := c.targets ++ [target.mac] })

/-- Where the task is: before a tick, or with a frame given to the radio. -/
inductive Phase
  | heartbeat
  | heartbeatSending (target : Mac) (frame : Bytes)
  | ping
  | pingSending (target : Mac) (frame : Bytes) (sequence nowMs : UInt32)
  deriving DecidableEq

/-- The peer table, what was called on it so far, and the heartbeat task. -/
structure State where
  table : PeerTable := .init
  calls : List PeerHistory.Op := []
  heartbeat : Cursor := {}
  ping : Cursor := {}
  tick : UInt32 := 0
  phase : Phase := .heartbeat

def pingPayload (target : PeerSnapshot) : Bytes :=
  le32 target.sourceId ++ (le32 target.bootId ++ (le16 kPingActionId ++
    (le16 kPingActionVersion ++ List.replicate 8 0)))

namespace State

variable (s : State)

def note (op : PeerHistory.Op) : State :=
  { s with table := PeerHistory.call s.table op, calls := s.calls ++ [op] }

/-- `++tick`, and the task sleeps until the next. -/
def delay : State := { s with tick := s.tick + 1, phase := .heartbeat }

/-- Behind `heartbeatTick`. -/
def afterHeartbeat : State :=
  if s.tick % PING_TICK_EVERY_N_HEARTBEATS = 0 then { s with phase := .ping } else s.delay

/-- `heartbeatTick` up to the blocking send: `sequence` is the number reserved, `encode`
makes a frame of a payload under it. -/
def heartbeatTick (sequence : Option UInt32) (encode : UInt32 → Bytes → Option Bytes) : State :=
  match s.heartbeat.target (enumeratePeers s.table kPeerIdentityCapacity) with
  | none => s.afterHeartbeat
  | some (target, cursor) =>
    let s := { s with heartbeat := cursor }
    match sequence with
    | none => s.afterHeartbeat
    | some sequence =>
      match encode sequence [] with
      | none => s.afterHeartbeat
      | some frame => { s with phase := .heartbeatSending target.mac frame }

/-- `heartbeatTick` behind the blocking send. -/
def heartbeatSent (gotStatus delivered : Bool) : State :=
  match s.phase with
  | .heartbeatSending target _ =>
    (s.note (.notePeerLinkResult target (gotStatus && delivered))).afterHeartbeat
  | _ => s

def pingTick (sequence : Option UInt32) (encode : UInt32 → Bytes → Option Bytes)
    (nowMs : UInt32) : State :=
  match s.ping.target (enumeratePeers s.table kPeerIdentityCapacity) with
  | none => s.delay
  | some (target, cursor) =>
    let s := { s with ping := cursor }
    match sequence with
    | none => s.delay
    | some sequence =>
      match encode sequence (pingPayload target) with
      | none => s.delay
      | some frame => { s with phase := .pingSending target.mac frame sequence nowMs }

def pingSent (accepted : Bool) : State :=
  match s.phase with
  | .pingSending target _ sequence nowMs =>
    if accepted then (s.note (.notePingSent target sequence nowMs)).delay else s.delay
  | _ => s

end State

/-- What happens next: a call by the receiver's task, or the heartbeat task goes on. -/
inductive Event
  | rememberAuthenticatedPeer (mac : Mac) (sourceId bootId nowMs : UInt32) (rssi : Int8)
  | heard (mac : Mac)
  | notePingReply (mac : Mac) (replyToSequence nowMs : UInt32)
  | heartbeatTick (sequence : Option UInt32) (encode : UInt32 → Bytes → Option Bytes)
  | heartbeatSent (gotStatus delivered : Bool)
  | pingTick (sequence : Option UInt32) (encode : UInt32 → Bytes → Option Bytes) (nowMs : UInt32)
  | pingSent (accepted : Bool)

def step (s : State) : Event → State
  | .rememberAuthenticatedPeer mac sourceId bootId nowMs rssi =>
    s.note (.rememberAuthenticatedPeer mac sourceId bootId nowMs rssi)
  | .heard mac => s.note (.notePeerLinkResult mac true)
  | .notePingReply mac replyToSequence nowMs => s.note (.notePingReply mac replyToSequence nowMs)
  | .heartbeatTick sequence encode =>
    if s.phase = .heartbeat then s.heartbeatTick sequence encode else s
  | .heartbeatSent gotStatus delivered => s.heartbeatSent gotStatus delivered
  | .pingTick sequence encode nowMs =>
    if s.phase = .ping then s.pingTick sequence encode nowMs else s
  | .pingSent accepted => s.pingSent accepted

def InTable (mac : Mac) (s : State) : Prop := ∃ i, (s.table i).key = some mac

/-- The number of peers a tick chooses from. -/
def peerCount (g : PeerTable) : Nat := (enumeratePeers g kPeerIdentityCapacity).length

/-! ## The table as the ticks see it -/

/-- Each MAC has one slot, and the slots are filled from the front. -/
structure Sound (g : PeerTable) : Prop where
  distinct : SlotTable.Distinct PeerIdentity.key g
  packed : SlotTable.Packed PeerIdentity.used g

theorem sound_init : Sound .init where
  distinct := fun _ _ _ h => by cases h
  packed := fun _ _ _ h => by cases h

theorem enumeratePeers_eq (g : PeerTable) : enumeratePeers g kPeerIdentityCapacity =
    (SlotTable.slots PeerIdentity.used g).map fun i => (g i).snapshot := by
  have hlen : (((List.finRange kPeerIdentityCapacity).map g).filter PeerIdentity.used).length ≤
      kPeerIdentityCapacity := by
    refine (List.length_filter_le ..).trans ?_
    rw [List.length_map, List.length_finRange]
  rw [enumeratePeers, List.take_of_length_le hlen, List.filter_map, List.map_map]
  rfl

theorem peerCount_eq (g : PeerTable) :
    peerCount g = (SlotTable.slots PeerIdentity.used g).length := by
  rw [peerCount, enumeratePeers_eq, List.length_map]

variable {g : PeerTable} {op : PeerHistory.Op} {mac : Mac} {i : Fin kPeerIdentityCapacity}

theorem Sound.lt_peerCount (hs : Sound g) (hi : (g i).key = some mac) : i.val < peerCount g := by
  rw [peerCount_eq, hs.packed.lt_length_iff]
  exact (PeerIdentity.key_eq_some.1 hi).1

/-- The snapshot shows slot `k` at its place. -/
theorem Sound.getElem?_peers (hs : Sound g) {k : Nat} (hk : k < peerCount g)
    (hn : k < kPeerIdentityCapacity) :
    (enumeratePeers g kPeerIdentityCapacity)[k]? = some (g ⟨k, hn⟩).snapshot := by
  rw [peerCount_eq] at hk
  rw [enumeratePeers_eq, List.getElem?_map, hs.packed.getElem?_slots hk hn]
  rfl

/-- What a call does to the slots: nothing, a write to the slot of its MAC, or its MAC
enters a slot behind those in use, in a full table the first. -/
theorem call_slots (g : PeerTable) (op : PeerHistory.Op) :
    PeerHistory.call g op = g ∨ ∃ i p, PeerHistory.call g op = Function.update g i p ∧
      p.key = some op.mac ∧
        ((g i).key = some op.mac ∨
          (∀ j, (g j).key ≠ some op.mac) ∧ ∀ j, j < i → (g j).used = true) := by
  cases op with
  | rememberAuthenticatedPeer mac sourceId bootId nowMs rssi =>
    by_cases hvalid : sourceId = 0 ∨ bootId = 0
    · exact .inl (rememberAuthenticatedPeer_invalid hvalid)
    · rw [not_or] at hvalid
      refine .inr ⟨_, _, rememberAuthenticatedPeer_eq hvalid.1 hvalid.2, rfl, ?_⟩
      cases hfind : findMac g mac with
      | some i =>
        rw [slotFor, hfind]
        exact .inl (findMac_key hfind)
      | none =>
        refine .inr ⟨findMac_eq_none.1 hfind, fun j hj => ?_⟩
        rw [slotFor, hfind] at hj
        cases hfree : SlotTable.first (fun p : PeerIdentity => !p.used) g with
        | none => simpa using SlotTable.first_eq_none.1 hfree j
        | some i =>
          rw [hfree] at hj
          simpa using (SlotTable.first_eq_some.1 hfree).2 j hj
  | notePeerLinkResult mac delivered =>
    cases hfind : findMac g mac with
    | none => exact .inl (by rw [PeerHistory.call, notePeerLinkResult, hfind])
    | some i =>
      have hkey := findMac_key hfind
      refine .inr ⟨i, { g i with linkOk := delivered }, ?_, hkey, .inl hkey⟩
      rw [PeerHistory.call, notePeerLinkResult, hfind]
  | notePingSent mac sequence nowMs =>
    cases hfind : findMac g mac with
    | none => exact .inl (by rw [PeerHistory.call, notePingSent, hfind])
    | some i =>
      have hkey := findMac_key hfind
      refine .inr ⟨i, { g i with pingPending := true, pingSequence := sequence, pingSentMs := nowMs },
        ?_, hkey, .inl hkey⟩
      rw [PeerHistory.call, notePingSent, hfind]
  | notePingReply mac replyToSequence nowMs =>
    cases hfind : findMac g mac with
    | none => exact .inl (by rw [PeerHistory.call, notePingReply, hfind])
    | some i =>
      have hkey := findMac_key hfind
      cases hmatch : (g i).pingPending && (g i).pingSequence == replyToSequence with
      | false =>
        refine .inl ?_
        rw [PeerHistory.call, notePingReply, hfind]
        exact if_neg (by rw [hmatch]; decide)
      | true =>
        refine .inr ⟨i, { g i with rttMs := nowMs - (g i).pingSentMs, pingPending := false },
          ?_, hkey, .inl hkey⟩
        rw [PeerHistory.call, notePingReply, hfind]
        exact if_pos hmatch

theorem used_of_key {p : PeerIdentity} (h : p.key = some mac) : p.used = true :=
  (PeerIdentity.key_eq_some.1 h).1

theorem Sound.call (hs : Sound g) (op : PeerHistory.Op) : Sound (PeerHistory.call g op) := by
  obtain hsame | ⟨i, p, hcall, hkey, hslot⟩ := call_slots g op
  · rw [hsame]
    exact hs
  · rw [hcall]
    obtain hown | ⟨hnew, hbefore⟩ := hslot
    · refine ⟨hs.distinct.update_same (hkey.trans hown.symm), hs.packed.update (used_of_key hkey) ?_⟩
      intro j hj
      exact hs.packed hj (used_of_key hown)
    · exact ⟨hs.distinct.update_new hnew hkey, hs.packed.update (used_of_key hkey) hbefore⟩

theorem peerCount_call (g : PeerTable) (op : PeerHistory.Op) :
    peerCount g ≤ peerCount (PeerHistory.call g op) := by
  rw [peerCount_eq, peerCount_eq]
  obtain hsame | ⟨i, p, hcall, hkey, -⟩ := call_slots g op
  · rw [hsame]
  · rw [hcall]
    exact SlotTable.length_slots_update (used_of_key hkey)

/-- A MAC that a call leaves in the table keeps its slot. -/
theorem Sound.slot_call (hs : Sound g) (hi : (g i).key = some mac)
    (hstays : ∃ j, (PeerHistory.call g op j).key = some mac) :
    (PeerHistory.call g op i).key = some mac := by
  obtain ⟨j, hj⟩ := hstays
  obtain hsame | ⟨k, p, hcall, hkey, hslot⟩ := call_slots g op
  · rw [hsame]
    exact hi
  · rw [hcall] at hj ⊢
    rcases eq_or_ne i k with rfl | hne
    · rw [Function.update_self]
      -- the slot is written: by its own MAC, or the MAC is gone
      rcases eq_or_ne j i with rfl | hji
      · rw [Function.update_self] at hj
        exact hj
      · rw [Function.update_of_ne hji] at hj
        exact absurd (hs.distinct hj hi) hji
    · rw [Function.update_of_ne hne]
      exact hi

/-- The verdict of a call on the link to `mac`. -/
def verdict (mac : Mac) : PeerHistory.Op → Option Bool
  | .notePeerLinkResult mac' delivered => if mac' = mac then some delivered else none
  | _ => none

/-- A write that leaves its slot the link leaves it every slot. -/
theorem linkOk_update {j : Fin kPeerIdentityCapacity} {p : PeerIdentity}
    (h : p.linkOk = (g j).linkOk) : (Function.update g j p i).linkOk = (g i).linkOk := by
  rcases eq_or_ne i j with rfl | hne
  · rw [Function.update_self, h]
  · rw [Function.update_of_ne hne]

theorem Sound.link_call (hs : Sound g) (hi : (g i).key = some mac)
    (hstays : ∃ j, (PeerHistory.call g op j).key = some mac) :
    (PeerHistory.call g op i).linkOk = (verdict mac op).getD (g i).linkOk := by
  have hafter := hs.slot_call hi hstays
  have hother : ∀ {mac' j}, findMac g mac' = some j → mac' ≠ mac → i ≠ j := by
    rintro mac' j hfind hne rfl
    have hkey := findMac_key hfind
    rw [hi] at hkey
    exact hne (Option.some.inj hkey).symm
  cases op with
  | rememberAuthenticatedPeer mac' sourceId bootId nowMs rssi =>
    rw [PeerHistory.call] at hafter ⊢
    by_cases hvalid : sourceId = 0 ∨ bootId = 0
    · rw [rememberAuthenticatedPeer_invalid hvalid]
      rfl
    · rw [not_or] at hvalid
      rw [rememberAuthenticatedPeer_eq hvalid.1 hvalid.2] at hafter ⊢
      rcases eq_or_ne i (slotFor g mac') with rfl | hne
      · rw [Function.update_self] at hafter ⊢
        obtain rfl : mac' = mac := Option.some.inj hafter
        have hfind : (findMac g mac').isSome = true := by
          rw [Option.isSome_iff_ne_none, Ne, findMac_eq_none]
          exact fun hnone => hnone _ hi
        rw [hfind]
        rfl
      · rw [Function.update_of_ne hne]
        rfl
  | notePeerLinkResult mac' delivered =>
    rw [PeerHistory.call, notePeerLinkResult, verdict]
    cases hfind : findMac g mac' with
    | none =>
      rw [if_neg (by rintro rfl; exact findMac_eq_none.1 hfind i hi)]
      rfl
    | some j =>
      dsimp only
      rcases eq_or_ne mac' mac with rfl | hne
      · rw [if_pos rfl, hs.distinct hi (findMac_key hfind), Function.update_self]
        rfl
      · rw [if_neg hne, Function.update_of_ne (hother hfind hne)]
        rfl
  | notePingSent mac' sequence nowMs =>
    rw [PeerHistory.call, notePingSent]
    cases hfind : findMac g mac' with
    | none => rfl
    | some j => exact linkOk_update rfl
  | notePingReply mac' replyToSequence nowMs =>
    rw [PeerHistory.call, notePingReply]
    cases hfind : findMac g mac' with
    | none => rfl
    | some j =>
      dsimp only
      split
      · exact linkOk_update rfl
      · rfl

/-! ## One turn of a cursor -/

/-- A cursor stands at a slot in use, or at the first. -/
def Cursor.Within (c : Cursor) (g : PeerTable) : Prop := c.nextPeer = 0 ∨ c.nextPeer < peerCount g

theorem Cursor.Within.mono {c : Cursor} {g' : PeerTable} (h : c.Within g)
    (hle : peerCount g ≤ peerCount g') : c.Within g' := by
  rcases h with h | h
  · exact .inl h
  · exact .inr (by omega)

/-- The peer whose turn it is sits in the slot the cursor stands at. -/
theorem Sound.target_eq (hs : Sound g) {c : Cursor} (hc : c.nextPeer < peerCount g)
    (hn : c.nextPeer < kPeerIdentityCapacity) :
    c.target (enumeratePeers g kPeerIdentityCapacity) =
      some ((g ⟨c.nextPeer, hn⟩).snapshot,
        { nextPeer := RoundRobin.next (peerCount g) c.nextPeer
          targets := c.targets ++ [(g ⟨c.nextPeer, hn⟩).mac] }) := by
  unfold Cursor.target
  rw [show (enumeratePeers g kPeerIdentityCapacity).length = peerCount g from rfl,
    if_neg (Nat.not_le.2 hc)]
  dsimp only
  rw [hs.getElem?_peers hc hn]
  rfl

theorem target_none {c : Cursor} (hzero : peerCount g = 0) :
    c.target (enumeratePeers g kPeerIdentityCapacity) = none := by
  unfold Cursor.target
  rw [List.eq_nil_of_length_eq_zero hzero]
  rfl

theorem target_targets {c c' : Cursor} {peers : List PeerSnapshot} {target : PeerSnapshot}
    (h : c.target peers = some (target, c')) : c'.targets = c.targets ++ [target.mac] := by
  unfold Cursor.target at h
  dsimp only at h
  split at h <;> cases h
  rfl

theorem peerCount_le (g : PeerTable) : peerCount g ≤ kPeerIdentityCapacity := by
  rw [peerCount_eq]
  exact SlotTable.length_slots_le

/-- A turn leaves the cursor within the table. -/
theorem Sound.within_target (hs : Sound g) {c c' : Cursor} {p : PeerSnapshot} (hc : c.Within g)
    (htarget : c.target (enumeratePeers g kPeerIdentityCapacity) = some (p, c')) : c'.Within g := by
  rcases Nat.eq_zero_or_pos (peerCount g) with hzero | hpos
  · rw [target_none hzero] at htarget
    cases htarget
  · have hlt : c.nextPeer < peerCount g := by
      rcases hc with hc | hc <;> omega
    have hle := peerCount_le g
    rw [hs.target_eq hlt (by omega)] at htarget
    cases htarget
    exact .inr (RoundRobin.next_lt hpos)

/-! ## One step -/

section step

variable (s : State)

@[simp] theorem afterHeartbeat_table : s.afterHeartbeat.table = s.table := by
  unfold State.afterHeartbeat
  split <;> rfl

@[simp] theorem afterHeartbeat_calls : s.afterHeartbeat.calls = s.calls := by
  unfold State.afterHeartbeat
  split <;> rfl

@[simp] theorem afterHeartbeat_heartbeat : s.afterHeartbeat.heartbeat = s.heartbeat := by
  unfold State.afterHeartbeat
  split <;> rfl

@[simp] theorem afterHeartbeat_ping : s.afterHeartbeat.ping = s.ping := by
  unfold State.afterHeartbeat
  split <;> rfl

/-- An event that the radio has no frame for is a heartbeat left out. -/
def Event.Framed : Event → Prop
  | .heartbeatTick sequence encode => (sequence.bind fun sequence => encode sequence []).isSome
  | _ => True

/-- A heartbeat finds nobody, or it moves the cursor and has a frame for the peer or not. -/
theorem heartbeatTick_cases (sequence : Option UInt32) (encode : UInt32 → Bytes → Option Bytes) :
    s.heartbeatTick sequence encode = s.afterHeartbeat ∨
      ∃ target cursor,
        s.heartbeat.target (enumeratePeers s.table kPeerIdentityCapacity) = some (target, cursor) ∧
          (s.heartbeatTick sequence encode = { s with heartbeat := cursor }.afterHeartbeat ∧
              ¬(Event.heartbeatTick sequence encode).Framed ∨
            ∃ frame, s.heartbeatTick sequence encode =
              { s with heartbeat := cursor, phase := .heartbeatSending target.mac frame }) := by
  unfold State.heartbeatTick
  cases htarget : s.heartbeat.target (enumeratePeers s.table kPeerIdentityCapacity) with
  | none => exact .inl rfl
  | some turn =>
    obtain ⟨target, cursor⟩ := turn
    refine .inr ⟨target, cursor, rfl, ?_⟩
    cases sequence with
    | none => exact .inl ⟨rfl, by simp [Event.Framed]⟩
    | some sequence =>
      dsimp only
      cases hframe : encode sequence [] with
      | none => exact .inl ⟨rfl, by simp [Event.Framed, hframe]⟩
      | some frame => exact .inr ⟨frame, rfl⟩

theorem pingTick_cases (sequence : Option UInt32) (encode : UInt32 → Bytes → Option Bytes)
    (nowMs : UInt32) :
    s.pingTick sequence encode nowMs = s.delay ∨
      ∃ target cursor,
        s.ping.target (enumeratePeers s.table kPeerIdentityCapacity) = some (target, cursor) ∧
          (s.pingTick sequence encode nowMs = { s with ping := cursor }.delay ∨
            ∃ frame number, s.pingTick sequence encode nowMs =
              { s with ping := cursor, phase := .pingSending target.mac frame number nowMs }) := by
  unfold State.pingTick
  cases htarget : s.ping.target (enumeratePeers s.table kPeerIdentityCapacity) with
  | none => exact .inl rfl
  | some turn =>
    obtain ⟨target, cursor⟩ := turn
    refine .inr ⟨target, cursor, rfl, ?_⟩
    cases sequence with
    | none => exact .inl rfl
    | some sequence =>
      dsimp only
      cases hframe : encode sequence (pingPayload target) with
      | none => exact .inl rfl
      | some frame => exact .inr ⟨frame, sequence, by simp⟩

/-- One call on the table, or none. -/
def Called (s s' : State) : Prop :=
  s'.table = s.table ∧ s'.calls = s.calls ∨
    ∃ op, s'.table = PeerHistory.call s.table op ∧ s'.calls = s.calls ++ [op]

/-- The cursor comes to one peer, or stays. -/
def Moved (g : PeerTable) (c c' : Cursor) : Prop :=
  c' = c ∨ ∃ target, c.target (enumeratePeers g kPeerIdentityCapacity) = some (target, c')

/-- A step makes one call at most, and each cursor comes to one peer at most. -/
theorem step_effect (e : Event) : Called s (step s e) ∧
    Moved s.table s.heartbeat (step s e).heartbeat ∧ Moved s.table s.ping (step s e).ping := by
  cases e with
  | rememberAuthenticatedPeer mac sourceId bootId nowMs rssi =>
    exact ⟨.inr ⟨_, rfl, rfl⟩, .inl rfl, .inl rfl⟩
  | heard mac => exact ⟨.inr ⟨_, rfl, rfl⟩, .inl rfl, .inl rfl⟩
  | notePingReply mac replyToSequence nowMs => exact ⟨.inr ⟨_, rfl, rfl⟩, .inl rfl, .inl rfl⟩
  | heartbeatTick sequence encode =>
    rw [step]
    split
    · obtain h | ⟨target, cursor, htarget, ⟨h, -⟩ | ⟨frame, h⟩⟩ :=
        heartbeatTick_cases s sequence encode
      · exact ⟨.inl (by simp [h]), .inl (by simp [h]), .inl (by simp [h])⟩
      · exact ⟨.inl (by simp [h]), .inr ⟨target, by simp [h, htarget]⟩, .inl (by simp [h])⟩
      · exact ⟨.inl (by simp [h]), .inr ⟨target, by simp [h, htarget]⟩, .inl (by simp [h])⟩
    · exact ⟨.inl ⟨rfl, rfl⟩, .inl rfl, .inl rfl⟩
  | heartbeatSent gotStatus delivered =>
    rw [step, State.heartbeatSent]
    split
    · rename_i target frame _
      refine ⟨.inr ⟨.notePeerLinkResult target (gotStatus && delivered), ?_⟩, .inl ?_, .inl ?_⟩
      all_goals simp [State.note]
    · exact ⟨.inl ⟨rfl, rfl⟩, .inl rfl, .inl rfl⟩
  | pingTick sequence encode nowMs =>
    rw [step]
    split
    · obtain h | ⟨target, cursor, htarget, h | ⟨frame, number, h⟩⟩ :=
        pingTick_cases s sequence encode nowMs
      · exact ⟨.inl (by simp [h, State.delay]), .inl (by simp [h, State.delay]),
          .inl (by simp [h, State.delay])⟩
      · exact ⟨.inl (by simp [h, State.delay]), .inl (by simp [h, State.delay]),
          .inr ⟨target, by simp [h, htarget, State.delay]⟩⟩
      · exact ⟨.inl (by simp [h]), .inl (by simp [h]), .inr ⟨target, by simp [h, htarget]⟩⟩
    · exact ⟨.inl ⟨rfl, rfl⟩, .inl rfl, .inl rfl⟩
  | pingSent accepted =>
    rw [step, State.pingSent]
    split
    · rename_i target frame sequence nowMs _
      split
      · exact ⟨.inr ⟨.notePingSent target sequence nowMs, rfl, rfl⟩, .inl rfl, .inl rfl⟩
      · exact ⟨.inl ⟨rfl, rfl⟩, .inl rfl, .inl rfl⟩
    · exact ⟨.inl ⟨rfl, rfl⟩, .inl rfl, .inl rfl⟩

/-- The peer whose heartbeat is under way. -/
def inFlight : List Mac :=
  match s.phase with
  | .heartbeatSending target _ => [target]
  | _ => []

/-- A peer the heartbeats come to has its frame under way until a verdict is noted. -/
theorem step_inFlight {e : Event} (hframed : e.Framed) {mac : Mac}
    (hmac : mac ∈ inFlight s ∨ (step s e).heartbeat.targets = s.heartbeat.targets ++ [mac]) :
    mac ∈ inFlight (step s e) ∨
      ∃ delivered, (step s e).calls = s.calls ++ [.notePeerLinkResult mac delivered] := by
  have hsame : ∀ {c : Cursor}, c.targets ≠ c.targets ++ [mac] := by simp
  cases e with
  | rememberAuthenticatedPeer mac' sourceId bootId nowMs rssi => exact .inl (hmac.resolve_right hsame)
  | heard mac' => exact .inl (hmac.resolve_right hsame)
  | notePingReply mac' replyToSequence nowMs => exact .inl (hmac.resolve_right hsame)
  | heartbeatTick sequence encode =>
    rw [step] at hmac ⊢
    split at hmac
    · rename_i hidle
      rw [if_pos hidle]
      have htargets := hmac.resolve_left (by simp [inFlight, hidle])
      obtain h | ⟨target, cursor, htarget, ⟨h, hunframed⟩ | ⟨frame, h⟩⟩ :=
        heartbeatTick_cases s sequence encode
      · rw [h, afterHeartbeat_heartbeat] at htargets
        exact absurd htargets hsame
      · exact absurd hframed hunframed
      · rw [h] at htargets ⊢
        dsimp only at htargets
        rw [target_targets htarget] at htargets
        have hmac : target.mac = mac := by simpa using htargets
        exact .inl (by simp [inFlight, hmac])
    · rename_i hbusy
      rw [if_neg hbusy]
      exact .inl (hmac.resolve_right hsame)
  | heartbeatSent gotStatus delivered =>
    cases hphase : s.phase with
    | heartbeatSending target frame =>
      rw [step, State.heartbeatSent, hphase] at hmac ⊢
      have hmem := hmac.resolve_right (by simp [State.note])
      obtain rfl : mac = target := by simpa [inFlight, hphase] using hmem
      exact .inr ⟨gotStatus && delivered, by simp [State.note]⟩
    | _ =>
      rw [step, State.heartbeatSent, hphase] at hmac ⊢
      exact .inl (hmac.resolve_right hsame)
  | pingTick sequence encode nowMs =>
    rw [step] at hmac ⊢
    split at hmac
    · rename_i hidle
      obtain hmem | htargets := hmac
      · simp [inFlight, hidle] at hmem
      · obtain h | ⟨target, cursor, -, h | ⟨frame, number, h⟩⟩ :=
          pingTick_cases s sequence encode nowMs
        all_goals simp [h, State.delay] at htargets
    · rename_i hbusy
      rw [if_neg hbusy]
      exact .inl (hmac.resolve_right hsame)
  | pingSent accepted =>
    cases hphase : s.phase with
    | pingSending target frame sequence nowMs =>
      rw [step, State.pingSent, hphase] at hmac ⊢
      obtain hmem | htargets := hmac
      · simp [inFlight, hphase] at hmem
      · cases accepted <;> simp [State.delay, State.note] at htargets
    | _ =>
      rw [step, State.pingSent, hphase] at hmac ⊢
      exact .inl (hmac.resolve_right hsame)

end step

/-! ## Runs -/

section run

variable {s s' : State} {c c' : Cursor} {n : Nat}

structure Reached (s : State) : Prop where
  sound : Sound s.table
  heartbeat : s.heartbeat.Within s.table
  ping : s.ping.Within s.table

theorem Called.sound (h : Called s s') (hs : Sound s.table) : Sound s'.table := by
  obtain ⟨htable, -⟩ | ⟨op, htable, -⟩ := h
  · rw [htable]
    exact hs
  · rw [htable]
    exact hs.call op

theorem Called.peerCount_le (h : Called s s') : peerCount s.table ≤ peerCount s'.table := by
  obtain ⟨htable, -⟩ | ⟨op, htable, -⟩ := h
  · rw [htable]
  · rw [htable]
    exact peerCount_call s.table op

theorem Called.slot (h : Called s s') (hs : Sound s.table) (hi : (s.table i).key = some mac)
    (hstays : InTable mac s') : (s'.table i).key = some mac := by
  unfold InTable at hstays
  obtain ⟨htable, -⟩ | ⟨op, htable, -⟩ := h
  · rw [htable]
    exact hi
  · rw [htable] at hstays ⊢
    exact hs.slot_call hi hstays

theorem Moved.within (h : Moved g c c') (hs : Sound g) (hc : c.Within g) : c'.Within g := by
  obtain rfl | ⟨target, htarget⟩ := h
  · exact hc
  · exact hs.within_target hc htarget

theorem Reached.step (h : Reached s) (e : Event) : Reached (step s e) := by
  obtain ⟨hcalled, hheartbeat, hping⟩ := step_effect s e
  have hle := hcalled.peerCount_le
  exact ⟨hcalled.sound h.sound, (hheartbeat.within h.sound h.heartbeat).mono hle,
    (hping.within h.sound h.ping).mono hle⟩

theorem reached_init : Reached {} := ⟨sound_init, .inl rfl, .inl rfl⟩

theorem run_reached (events : List Event) : Reached (events.foldl Probes.step {}) :=
  Run.foldl_keeps Probes.step Reached (fun _ e h => h.step e) reached_init events

theorem peerCount_run (s : State) (events : List Event) :
    peerCount s.table ≤ peerCount (events.foldl Probes.step s).table :=
  Run.foldl_keeps Probes.step (fun s' => peerCount s.table ≤ peerCount s'.table)
    (fun s' e h => h.trans (step_effect s' e).1.peerCount_le) le_rfl events

/-- A move of a cursor comes to the MAC in slot `i`, or takes one off its wait. -/
theorem Moved.turn (h : Moved g c c') (hs : Sound g) (hc : c.Within g)
    (hi : (g i).key = some mac) (hn : peerCount g ≤ n) :
    ∃ turns, c'.targets = c.targets ++ turns ∧
      (mac ∈ turns ∨
        turns.length + RoundRobin.wait n c'.nextPeer i ≤ RoundRobin.wait n c.nextPeer i) := by
  obtain rfl | ⟨target, htarget⟩ := h
  · exact ⟨[], by simp, .inr (by simp)⟩
  · have hlt := hs.lt_peerCount hi
    have hat : c.nextPeer < peerCount g := by
      rcases hc with hc | hc <;> omega
    have hle := peerCount_le g
    have hcap : c.nextPeer < kPeerIdentityCapacity := by omega
    rw [hs.target_eq hat hcap] at htarget
    cases htarget
    refine ⟨[(g ⟨c.nextPeer, hcap⟩).mac], rfl, ?_⟩
    by_cases hown : c.nextPeer = i.val
    · left
      have hslot : (⟨c.nextPeer, hcap⟩ : Fin kPeerIdentityCapacity) = i := Fin.ext hown
      rw [hslot, (PeerIdentity.key_eq_some.1 hi).2]
      exact List.mem_singleton.2 rfl
    · right
      have hwait := RoundRobin.wait_next hn hat hlt hown
      dsimp only [List.length_singleton]
      omega

/-- The turns of a cursor in a run from a state reached, in which `mac` stays. -/
theorem run_turns (cursor : State → Cursor)
    (hmoved : ∀ s e, Moved s.table (cursor s) (cursor (Probes.step s e)))
    (hwithin : ∀ s, Reached s → (cursor s).Within s.table) (events : List Event) (hs : Reached s)
    (hi : (s.table i).key = some mac) (hstays : Run.Throughout Probes.step (InTable mac) s events)
    (hn : peerCount (events.foldl Probes.step s).table ≤ n) :
    ∃ turns, (cursor (events.foldl Probes.step s)).targets = (cursor s).targets ++ turns ∧
      (mac ∈ turns ∨ turns.length + RoundRobin.wait n (cursor (events.foldl Probes.step s)).nextPeer i ≤
        RoundRobin.wait n (cursor s).nextPeer i) := by
  induction events generalizing s with
  | nil => exact ⟨[], by simp, .inr (by simp)⟩
  | cons e events ih =>
    have hslot := (step_effect s e).1.slot hs.sound hi hstays.2.start
    have hcount := peerCount_run s (e :: events)
    obtain ⟨turns, htargets, hturns⟩ := ih (hs.step e) hslot hstays.2 hn
    obtain ⟨first, hfirst, hturn⟩ := (hmoved s e).turn hs.sound (hwithin s hs) hi (hcount.trans hn)
    refine ⟨first ++ turns, ?_, ?_⟩
    · rw [List.foldl_cons, htargets, hfirst, List.append_assoc]
    · rw [List.mem_append, List.length_append, List.foldl_cons]
      rcases hturn with hmem | hturn
      · exact .inl (.inl hmem)
      · rcases hturns with hmem | hturns
        · exact .inl (.inr hmem)
        · right
          omega

/-- In every run, whatever the receiver's task does meanwhile: a peer that stays in the
table is among any as many heartbeats in a row as there are peers in the end, and so among
any as many pings. -/
theorem probed_in_turn (before after : List Event) (mac : Mac)
    (hstays : Run.Throughout Probes.step (InTable mac) (before.foldl Probes.step {}) after) :
    ∃ heartbeats pings,
      ((before ++ after).foldl Probes.step {}).heartbeat.targets =
          (before.foldl Probes.step {}).heartbeat.targets ++ heartbeats ∧
        ((before ++ after).foldl Probes.step {}).ping.targets =
          (before.foldl Probes.step {}).ping.targets ++ pings ∧
        (peerCount ((before ++ after).foldl Probes.step {}).table ≤ heartbeats.length →
          mac ∈ heartbeats) ∧
        (peerCount ((before ++ after).foldl Probes.step {}).table ≤ pings.length → mac ∈ pings) := by
  have hs := run_reached before
  rw [List.foldl_append]
  obtain ⟨i, hi⟩ := hstays.start
  have hi' := (hs.sound.lt_peerCount hi).trans_le (peerCount_run _ after)
  obtain ⟨heartbeats, hheartbeats, hheard⟩ := run_turns State.heartbeat
    (fun s e => (step_effect s e).2.1) (fun s h => h.heartbeat) after hs hi hstays le_rfl
  obtain ⟨pings, hpings, hpinged⟩ := run_turns State.ping
    (fun s e => (step_effect s e).2.2) (fun s h => h.ping) after hs hi hstays le_rfl
  have hwait := fun c => RoundRobin.wait_lt (c := c) hi'
  refine ⟨heartbeats, pings, hheartbeats, hpings, fun hlen => ?_, fun hlen => ?_⟩
  · have hlt := hwait (before.foldl Probes.step {}).heartbeat.nextPeer
    exact hheard.resolve_right (by omega)
  · have hlt := hwait (before.foldl Probes.step {}).ping.nextPeer
    exact hpinged.resolve_right (by omega)

/-- Two robots are heard. -/
def twoHeard : List Event :=
  [.rememberAuthenticatedPeer (.replicate 6 1) 1 1 0 (-40), .heard (.replicate 6 1),
    .rememberAuthenticatedPeer (.replicate 6 2) 2 1 0 (-60), .heard (.replicate 6 2)]

/-- A heartbeat to each, the second of them lost, and a ping in between. -/
def twoProbed : List Event :=
  [.heartbeatTick (some 1) fun _ _ => some [0x42], .heartbeatSent true true,
    .pingTick (some 2) (fun _ payload => some payload) 10, .pingSent true,
    .heartbeatTick (some 3) fun _ _ => some [0x42], .heartbeatSent true false]

theorem twoProbed_stays : Run.Throughout Probes.step (InTable (.replicate 6 2))
    (twoHeard.foldl Probes.step {}) twoProbed := by
  refine ⟨?_, ?_, ?_, ?_, ?_, ?_, ?_⟩
  all_goals exact ⟨⟨1, by decide⟩, rfl⟩

theorem probed_in_turn_two : ∃ heartbeats pings,
    ((twoHeard ++ twoProbed).foldl Probes.step {}).heartbeat.targets =
        (twoHeard.foldl Probes.step {}).heartbeat.targets ++ heartbeats ∧
      ((twoHeard ++ twoProbed).foldl Probes.step {}).ping.targets =
        (twoHeard.foldl Probes.step {}).ping.targets ++ pings ∧
      (peerCount ((twoHeard ++ twoProbed).foldl Probes.step {}).table ≤ heartbeats.length →
        .replicate 6 2 ∈ heartbeats) ∧
      (peerCount ((twoHeard ++ twoProbed).foldl Probes.step {}).table ≤ pings.length →
        .replicate 6 2 ∈ pings) :=
  probed_in_turn twoHeard twoProbed (.replicate 6 2) twoProbed_stays

/-- The calls of a step, and what they say of the link to a MAC that stays. -/
theorem Called.link (h : Called s s') (hs : Sound s.table) (hi : (s.table i).key = some mac)
    (hstays : InTable mac s') : ∃ calls, s'.calls = s.calls ++ calls ∧
      (s'.table i).linkOk = (calls.filterMap (verdict mac)).getLast?.getD (s.table i).linkOk := by
  unfold InTable at hstays
  obtain ⟨htable, hcalls⟩ | ⟨op, htable, hcalls⟩ := h
  · exact ⟨[], by simpa using hcalls, by simp [htable]⟩
  · refine ⟨[op], hcalls, ?_⟩
    rw [htable] at hstays ⊢
    rw [hs.link_call hi hstays]
    cases hverdict : verdict mac op <;> simp [hverdict]

/-- The link shown of a peer that stays in the table is the last verdict on it. -/
theorem run_link (events : List Event) (hs : Reached s) (hi : (s.table i).key = some mac)
    (hstays : Run.Throughout Probes.step (InTable mac) s events) :
    ((events.foldl Probes.step s).table i).key = some mac ∧
      ∃ calls, (events.foldl Probes.step s).calls = s.calls ++ calls ∧
        ((events.foldl Probes.step s).table i).linkOk =
          (calls.filterMap (verdict mac)).getLast?.getD (s.table i).linkOk := by
  induction events generalizing s with
  | nil => exact ⟨hi, [], by simp, rfl⟩
  | cons e events ih =>
    have hcalled := (step_effect s e).1
    have hstep := hstays.2.start
    obtain ⟨hkey, calls, hcalls, hlink⟩ := ih (hs.step e) (hcalled.slot hs.sound hi hstep) hstays.2
    obtain ⟨first, hfirst, hfirstLink⟩ := hcalled.link hs.sound hi hstep
    refine ⟨hkey, first ++ calls, ?_, ?_⟩
    · rw [List.foldl_cons, hcalls, hfirst, List.append_assoc]
    · rw [List.foldl_cons, hlink, hfirstLink, List.filterMap_append, List.getLast?_append]
      cases (calls.filterMap (verdict mac)).getLast? <;> rfl

theorem Moved.targets (h : Moved g c c') : ∃ targets, c'.targets = c.targets ++ targets ∧
    ∀ mac ∈ targets, c'.targets = c.targets ++ [mac] := by
  obtain rfl | ⟨target, htarget⟩ := h
  · exact ⟨[], by simp, by simp⟩
  · have htargets := target_targets htarget
    refine ⟨[target.mac], htargets, fun mac hmac => ?_⟩
    rw [List.mem_singleton.1 hmac, htargets]

/-- Every peer the heartbeats come to gets a verdict, or its frame is still under way. -/
theorem run_inFlight (s : State) (events : List Event) (hframed : ∀ e ∈ events, e.Framed) :
    ∃ calls targets, (events.foldl Probes.step s).calls = s.calls ++ calls ∧
      (events.foldl Probes.step s).heartbeat.targets = s.heartbeat.targets ++ targets ∧
        ∀ mac, mac ∈ inFlight s ∨ mac ∈ targets →
          mac ∈ inFlight (events.foldl Probes.step s) ∨
            ∃ delivered, .notePeerLinkResult mac delivered ∈ calls := by
  induction events generalizing s with
  | nil => exact ⟨[], [], by simp, by simp, fun mac hmac => .inl (by simpa using hmac)⟩
  | cons e events ih =>
    obtain ⟨hcalled, hmoved, -⟩ := step_effect s e
    obtain ⟨targets, htargets, hown⟩ := hmoved.targets
    obtain ⟨call, hcall⟩ : ∃ call, (Probes.step s e).calls = s.calls ++ call := by
      obtain ⟨-, hcalls⟩ | ⟨op, -, hcalls⟩ := hcalled
      · exact ⟨[], by simpa using hcalls⟩
      · exact ⟨[op], hcalls⟩
    obtain ⟨calls, later, hcalls, hlater, hsettled⟩ :=
      ih (Probes.step s e) fun e he => hframed e (List.mem_cons_of_mem _ he)
    refine ⟨call ++ calls, targets ++ later, ?_, ?_, fun mac hmac => ?_⟩
    · rw [List.foldl_cons, hcalls, hcall, List.append_assoc]
    · rw [List.foldl_cons, hlater, htargets, List.append_assoc]
    · rw [List.foldl_cons]
      have hfirst : mac ∈ inFlight s ∨ mac ∈ targets →
          mac ∈ inFlight (Probes.step s e) ∨ ∃ delivered, .notePeerLinkResult mac delivered ∈ call := by
        intro hmac
        obtain hflying | ⟨delivered, hnoted⟩ :=
          step_inFlight s (hframed e List.mem_cons_self) (hmac.imp_right (hown mac))
        · exact .inl hflying
        · rw [hcall] at hnoted
          rw [List.append_cancel_left hnoted]
          exact .inr ⟨delivered, List.mem_singleton.2 rfl⟩
      rw [List.mem_append, ← or_assoc] at hmac
      obtain hmac | hmac := hmac
      · obtain hflying | ⟨delivered, hnoted⟩ := hfirst hmac
        · obtain hflying | ⟨delivered, hnoted⟩ := hsettled mac (.inl hflying)
          · exact .inl hflying
          · exact .inr ⟨delivered, List.mem_append_right _ hnoted⟩
        · exact .inr ⟨delivered, List.mem_append_left _ hnoted⟩
      · obtain hflying | ⟨delivered, hnoted⟩ := hsettled mac (.inr hmac)
        · exact .inl hflying
        · exact .inr ⟨delivered, List.mem_append_right _ hnoted⟩

/-- In every run: once the heartbeats have come to as many peers as there are in the end,
with a frame for each and none under way, the link shown of a peer that stayed in the
table meanwhile is a verdict noted meanwhile, the last. -/
theorem verdict_fresh (before after : List Event) (mac : Mac)
    (hstays : Run.Throughout Probes.step (InTable mac) (before.foldl Probes.step {}) after)
    (hframed : ∀ e ∈ after, e.Framed)
    (hdone : inFlight ((before ++ after).foldl Probes.step {}) = [])
    (hround : (before.foldl Probes.step {}).heartbeat.targets.length +
        peerCount ((before ++ after).foldl Probes.step {}).table ≤
      ((before ++ after).foldl Probes.step {}).heartbeat.targets.length) :
    ∃ p ∈ enumeratePeers ((before ++ after).foldl Probes.step {}).table kPeerIdentityCapacity,
      p.mac = mac ∧ ∃ calls,
        ((before ++ after).foldl Probes.step {}).calls =
            (before.foldl Probes.step {}).calls ++ calls ∧
          (calls.filterMap (verdict mac)).getLast? = some p.linkOk := by
  obtain ⟨heartbeats, -, hheartbeats, -, hturn, -⟩ := probed_in_turn before after mac hstays
  rw [hheartbeats, List.length_append, Nat.add_le_add_iff_left] at hround
  have hprobed := hturn hround
  rw [List.foldl_append] at hheartbeats hdone ⊢
  obtain ⟨i, hi⟩ := hstays.start
  obtain ⟨hkey, calls, hcalls, hlink⟩ := run_link after (run_reached before) hi hstays
  obtain ⟨calls', targets, hcalls', htargets, hsettled⟩ :=
    run_inFlight (before.foldl Probes.step {}) after hframed
  obtain rfl : calls = calls' := List.append_cancel_left (hcalls.symm.trans hcalls')
  obtain rfl : heartbeats = targets := List.append_cancel_left (hheartbeats.symm.trans htargets)
  rw [hdone] at hsettled
  obtain ⟨delivered, hnoted⟩ := (hsettled mac (.inr hprobed)).resolve_left List.not_mem_nil
  have hverdict : delivered ∈ calls.filterMap (verdict mac) :=
    List.mem_filterMap.2 ⟨_, hnoted, if_pos rfl⟩
  obtain ⟨hused, hmac⟩ := PeerIdentity.key_eq_some.1 hkey
  refine ⟨_, enumeratePeers_all hused, hmac, calls, hcalls, ?_⟩
  show _ = some (((after.foldl Probes.step (before.foldl Probes.step {})).table i).linkOk)
  rw [hlink]
  cases hlast : (calls.filterMap (verdict mac)).getLast? with
  | none =>
    rw [List.getLast?_eq_none_iff.1 hlast] at hverdict
    cases hverdict
  | some last => rfl

theorem verdict_fresh_two :
    ∃ p ∈ enumeratePeers ((twoHeard ++ twoProbed).foldl Probes.step {}).table kPeerIdentityCapacity,
      p.mac = .replicate 6 2 ∧ ∃ calls,
        ((twoHeard ++ twoProbed).foldl Probes.step {}).calls =
            (twoHeard.foldl Probes.step {}).calls ++ calls ∧
          (calls.filterMap (verdict (.replicate 6 2))).getLast? = some p.linkOk :=
  verdict_fresh twoHeard twoProbed (.replicate 6 2) twoProbed_stays
    (by simp [twoProbed, Event.Framed]) rfl (by decide)

end run

end BallyDongle.EspNowConfig.Probes
