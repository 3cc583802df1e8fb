import BallyDongle.Lib.Hex
import BallyDongle.Lib.SlotTable
import Mathlib.Data.Int.Basic

/-!
# The authenticated peer table

`BtpTransport.cpp`: which MAC each robot was last heard from, learned only from
frames that passed AEAD under key L. Every access takes the table's lock, so an
operation is one step.
-/

namespace BallyDongle.BtpTransport

abbrev Mac := Vector UInt8 6

def kPeerIdentityCapacity : Nat := 16

theorem kPeerIdentityCapacity_pos : 0 < kPeerIdentityCapacity := by decide

structure PeerIdentity where
  used : Bool := false
  mac : Mac := Vector.replicate 6 0
  sourceId : UInt32 := 0
  bootId : UInt32 := 0
  lastAuthenticatedMs : UInt32 := 0
  linkOk : Bool := false
  rssi : Int8 := -128
  pingPending : Bool := false
  pingSequence : UInt32 := 0
  pingSentMs : UInt32 := 0
  rttMs : UInt32 := 0
  deriving DecidableEq

/-- `peer-` and the last two octets of the MAC: the name of a robot nobody has named. -/
def autoName (mac : Mac) : List Char :=
  "peer-".toList ++ Hex.digits 2 mac[4].toNat ++ Hex.digits 2 mac[5].toNat

abbrev PeerTable := Fin kPeerIdentityCapacity → PeerIdentity

/-- `g_peers` at boot. -/
def PeerTable.init : PeerTable := fun _ => {}

/-- The first slot used by `mac`. -/
def findMac (g : PeerTable) (mac : Mac) : Option (Fin kPeerIdentityCapacity) :=
  SlotTable.first (fun p => p.used && p.mac == mac) g

def rememberAuthenticatedPeer (g : PeerTable) (mac : Mac) (sourceId bootId nowMs : UInt32)
    (rssi : Int8) : PeerTable :=
  if sourceId = 0 ∨ bootId = 0 then g
  else
    match findMac g mac with
    | some i =>
      Function.update g i { g i with sourceId, bootId, lastAuthenticatedMs := nowMs, rssi }
    | none =>
      -- a full table overwrites its first slot
      let i := (SlotTable.first (fun p => !p.used) g).getD ⟨0, kPeerIdentityCapacity_pos⟩
      Function.update g i
        { g i with
          used := true, mac, sourceId, bootId, lastAuthenticatedMs := nowMs, rssi
          linkOk := false }

def notePeerLinkResult (g : PeerTable) (mac : Mac) (delivered : Bool) : PeerTable :=
  match findMac g mac with
  | none => g
  | some i => Function.update g i { g i with linkOk := delivered }

def notePingSent (g : PeerTable) (mac : Mac) (sequence nowMs : UInt32) : PeerTable :=
  match findMac g mac with
  | none => g
  | some i =>
    Function.update g i
      { g i with pingPending := true, pingSequence := sequence, pingSentMs := nowMs }

def notePingReply (g : PeerTable) (mac : Mac) (replyToSequence nowMs : UInt32) : PeerTable :=
  match findMac g mac with
  | none => g
  | some i =>
    if (g i).pingPending && (g i).pingSequence == replyToSequence then
      Function.update g i { g i with rttMs := nowMs - (g i).pingSentMs, pingPending := false }
    else g

structure PeerSnapshot where
  mac : Mac
  sourceId : UInt32
  bootId : UInt32
  lastAuthenticatedMs : UInt32
  linkOk : Bool
  rssi : Int8
  rttMs : UInt32
  deriving DecidableEq

def PeerIdentity.snapshot (p : PeerIdentity) : PeerSnapshot :=
  { mac := p.mac, sourceId := p.sourceId, bootId := p.bootId
    lastAuthenticatedMs := p.lastAuthenticatedMs, linkOk := p.linkOk, rssi := p.rssi, rttMs := p.rttMs }

/-- The used slots in order, at most `maxOut` of them. -/
def enumeratePeers (g : PeerTable) (maxOut : Nat) : List PeerSnapshot :=
  ((((List.finRange kPeerIdentityCapacity).map g).filter PeerIdentity.used).take maxOut).map
    PeerIdentity.snapshot

/-- The MAC and boot id last associated with `sourceId`. -/
def lookupPeerMacBySourceId (g : PeerTable) (sourceId : UInt32) : Option (Mac × UInt32) :=
  if sourceId = 0 then none
  else
    (SlotTable.first (fun p => p.used && p.sourceId == sourceId) g).map fun i =>
      ((g i).mac, (g i).bootId)

/-- The source and boot ids last associated with `mac`. -/
def lookupPeer (g : PeerTable) (mac : Mac) : Option (UInt32 × UInt32) :=
  (findMac g mac).map fun i => ((g i).sourceId, (g i).bootId)

/-! ## The slot of a MAC -/

/-- The MAC a slot is used by. -/
def PeerIdentity.key (p : PeerIdentity) : Option Mac := if p.used then some p.mac else none

/-- The slot an authenticated frame is remembered in. -/
def slotFor (g : PeerTable) (mac : Mac) : Fin kPeerIdentityCapacity :=
  (findMac g mac).getD ((SlotTable.first (fun p => !p.used) g).getD ⟨0, kPeerIdentityCapacity_pos⟩)

variable {g : PeerTable} {mac : Mac} {i : Fin kPeerIdentityCapacity}

theorem PeerIdentity.key_eq_some {p : PeerIdentity} : p.key = some mac ↔ p.used = true ∧ p.mac = mac := by
  simp [PeerIdentity.key]

theorem findMac_key (h : findMac g mac = some i) : (g i).key = some mac := by
  have hi := SlotTable.first_holds h
  rw [Bool.and_eq_true, beq_iff_eq] at hi
  exact PeerIdentity.key_eq_some.2 hi

theorem findMac_eq_none : findMac g mac = none ↔ ∀ i, (g i).key ≠ some mac := by
  rw [findMac, SlotTable.first_eq_none]
  refine forall_congr' fun i => ?_
  rw [Ne, PeerIdentity.key_eq_some, Bool.and_eq_false_iff, beq_eq_false_iff_ne, ← Bool.not_eq_true]
  exact not_and_or.symm

/-- A frame of `mac` is remembered under it; the verdict of the heartbeat stays where the
MAC had a slot. -/
theorem rememberAuthenticatedPeer_eq {sourceId bootId nowMs : UInt32} {rssi : Int8}
    (hsource : sourceId ≠ 0) (hboot : bootId ≠ 0) :
    rememberAuthenticatedPeer g mac sourceId bootId nowMs rssi =
      Function.update g (slotFor g mac)
        { g (slotFor g mac) with
          used := true, mac, sourceId, bootId, lastAuthenticatedMs := nowMs, rssi
          linkOk := (findMac g mac).isSome && (g (slotFor g mac)).linkOk } := by
  rw [rememberAuthenticatedPeer, if_neg (by rintro (h | h) <;> contradiction), slotFor]
  cases hfind : findMac g mac with
  | none => rfl
  | some i =>
    obtain ⟨hused, hmac⟩ := PeerIdentity.key_eq_some.1 (findMac_key hfind)
    subst hmac
    simp [hused]

theorem rememberAuthenticatedPeer_invalid {sourceId bootId nowMs : UInt32} {rssi : Int8}
    (h : sourceId = 0 ∨ bootId = 0) :
    rememberAuthenticatedPeer g mac sourceId bootId nowMs rssi = g :=
  if_pos h

theorem mem_enumeratePeers {p : PeerSnapshot} {maxOut : Nat} (h : p ∈ enumeratePeers g maxOut) :
    ∃ i, (g i).used = true ∧ (g i).snapshot = p := by
  obtain ⟨q, hq, rfl⟩ := List.mem_map.1 h
  obtain ⟨hq, hused⟩ := List.mem_filter.1 (List.mem_of_mem_take hq)
  obtain ⟨i, -, rfl⟩ := List.mem_map.1 hq
  exact ⟨i, hused, rfl⟩

/-- With room for all, every used slot is shown. -/
theorem enumeratePeers_all (hused : (g i).used = true) :
    (g i).snapshot ∈ enumeratePeers g kPeerIdentityCapacity := by
  have hlen : (((List.finRange kPeerIdentityCapacity).map g).filter PeerIdentity.used).length ≤
      kPeerIdentityCapacity := by
    refine (List.length_filter_le ..).trans ?_
    rw [List.length_map, List.length_finRange]
  rw [enumeratePeers, List.take_of_length_le hlen]
  exact List.mem_map_of_mem (List.mem_filter.2 ⟨List.mem_map_of_mem (List.mem_finRange i), hused⟩)

end BallyDongle.BtpTransport
