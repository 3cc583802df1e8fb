import BallyDongle.Lib.PackedLe
import BallyDongle.DonglePublisher.Schema
import Mathlib.Data.List.Sort

/-!
# Samples and the schema they are decoded by

The packers of `DonglePublisher.cpp` are written by hand beside the field tables.
Here the tables alone drive a decoder, and every sample a packer writes is decoded
to the counters it was made from (`samples_decode`).
-/

namespace BallyDongle.DonglePublisher

open Btp BtpTransport PackedLe

def kSchemaVersionPrefixSize : Nat := 2
def kLinkPayloadSize : Nat := kSchemaVersionPrefixSize + 12 * 4
def kUsbPayloadSize : Nat :=
  kSchemaVersionPrefixSize + 6 * 8 + kUsbDropClassCount.toNat * 8 + 5 * 8
def kPeersPayloadOverhead : Nat := kSchemaVersionPrefixSize + 8 * 2
def kPeersPayloadBytesPerPeer : Nat := 25
def kMaxPeersPayloadSize : Nat := kPeersPayloadOverhead + kPeersPayloadBytesPerPeer * kMaxPeers

/-! ## The packers -/

/-- A packer's writes into the caller's buffer, `none` for a null pointer: first the
check that there is room, then one write after the other up to one that fails. -/
def packInto (needed : Nat) (pieces : List Bytes) : Option Bytes → Nat × Option Bytes
  | none => (0, none)
  | some output =>
    if output.length < needed then (0, some output)
    else
      let (w, ok) := ({ out := [], capacity := output.length } : Writer).puts pieces
      (if ok then w.out.length else 0, some (w.out ++ output.drop w.out.length))

def linkWrites (c : LinkCounters) : List Bytes :=
  [u16 kSchemaVersion, u32 c.datagrams, u32 c.fragmentsAccepted, u32 c.routedTelemetry,
    u32 c.routedLog, u32 c.routedCommand, u32 c.routedControl, u32 c.routedTerminal,
    u32 c.droppedRx, u32 c.droppedDecode, u32 c.droppedCrc, u32 c.droppedReassembly,
    u32 c.droppedQueueFull]

def packLinkInto (c : LinkCounters) : Option Bytes → Nat × Option Bytes :=
  packInto kLinkPayloadSize (linkWrites c)

def usbWrites (c : UsbCounters) : List Bytes :=
  [u16 kSchemaVersion, u64 c.framesRx, u64 c.framesTx, u64 c.crcErrors, u64 c.decodeErrors,
      u64 c.reassemblyRejected, u64 c.telemetryDropped] ++
    c.droppedByClass.toList.map u64 ++
    [u64 c.relayDownOk, u64 c.relayDownUnbound, u64 c.relayDownNoPeer, u64 c.relayDownOversized,
      u64 c.relayDownSendFailed]

def packUsbInto (c : UsbCounters) : Option Bytes → Nat × Option Bytes :=
  packInto kUsbPayloadSize (usbWrites c)

/-- The writes of `packPeers`, of no more than `kMaxPeers` peers. -/
def peersWrites (peers : List PeerRecord) : List Bytes :=
  let count := peers.length
  let elementCount := count.toUInt16
  [u16 kSchemaVersion] ++
    ([u16 elementCount] ++ (List.range count).map fun i => u8 i.toUInt8) ++
    ([u16 elementCount] ++ peers.map fun p => u32 p.sourceId) ++
    ([u16 elementCount] ++ peers.map fun p => u32 p.bootId) ++
    ([u16 (count * 6).toUInt16] ++ peers.flatMap fun p => p.mac.toList.map u8) ++
    ([u16 elementCount] ++ peers.map fun p => u32 p.lastSeenAgeMs) ++
    ([u16 elementCount] ++ peers.map fun p => u8 (if p.online then 1 else 0)) ++
    ([u16 elementCount] ++ peers.map fun p => u8 p.rssi.toUInt8) ++
    ([u16 elementCount] ++ peers.map fun p => u32 p.rttMs)

/-- `allPeers` is empty where the source is given a null array. -/
def packPeersInto (allPeers : List PeerRecord) : Option Bytes → Nat × Option Bytes :=
  let count := min allPeers.length kMaxPeers
  packInto (kPeersPayloadOverhead + kPeersPayloadBytesPerPeer * count)
    (peersWrites (allPeers.take count))

/-! ## The decoder -/

/-- The element a type code stands for; these four are all that the tables use. -/
def elementOf (type : UInt8) : Option Element :=
  if type = kTypeUint8 then some { width := 1, signed := false }
  else if type = kTypeUint32 then some { width := 4, signed := false }
  else if type = kTypeUint64 then some { width := 8, signed := false }
  else if type = kTypeInt8 then some { width := 1, signed := true }
  else none

def FieldDesc.arity (field : FieldDesc) : Arity :=
  if field.flags &&& kFieldFlagVariableCount ≠ 0 then .variable field.maxElementCount.toNat
  else .fixed field.elementCount.toNat

def FieldDesc.column (field : FieldDesc) : Option Column :=
  (elementOf field.type).map fun element => { element, arity := field.arity }

/-- The columns of a table, in the order it gives. -/
def columnsOf (fields : List FieldDesc) : Option (List Column) :=
  (fields.insertionSort fun f f' => f.order ≤ f'.order).mapM FieldDesc.column

/-- The values of a sample after its schema version, one array a field. -/
def decodeSample (fields : List FieldDesc) (payload : Bytes) : Option (List (List Int)) :=
  (columnsOf fields).bind fun columns => readAll columns (payload.drop kSchemaVersionPrefixSize)

/-! ## The values of a sample -/

def LinkCounters.values (c : LinkCounters) : List (List Int) :=
  [c.datagrams, c.fragmentsAccepted, c.routedTelemetry, c.routedLog, c.routedCommand,
    c.routedControl, c.routedTerminal, c.droppedRx, c.droppedDecode, c.droppedCrc,
    c.droppedReassembly, c.droppedQueueFull].map fun v => [(v.toNat : Int)]

def UsbCounters.values (c : UsbCounters) : List (List Int) :=
  [[c.framesRx], [c.framesTx], [c.crcErrors], [c.decodeErrors], [c.reassemblyRejected],
    [c.telemetryDropped], c.droppedByClass.toList, [c.relayDownOk], [c.relayDownUnbound],
    [c.relayDownNoPeer], [c.relayDownOversized], [c.relayDownSendFailed]].map
      fun vs => vs.map fun v => (v.toNat : Int)

def peersColumns (peers : List PeerRecord) : List (List Int) :=
  [(List.range peers.length).map fun i : Nat => (i : Int),
    peers.map fun p => (p.sourceId.toNat : Int),
    peers.map fun p => (p.bootId.toNat : Int),
    peers.flatMap fun p => p.mac.toList.map fun b => (b.toNat : Int),
    peers.map fun p => (p.lastSeenAgeMs.toNat : Int),
    peers.map fun p => if p.online then 1 else 0,
    peers.map fun p => p.rssi.toInt,
    peers.map fun p => (p.rttMs.toNat : Int)]

/-- The columns of the peers that `hub.peers` has room for. -/
def peersValues (allPeers : List PeerRecord) : List (List Int) :=
  peersColumns (allPeers.take (min allPeers.length kMaxPeers))

/-- The packer fills `needed` octets of a buffer that has them with a sample that the
table decodes to `values`, and leaves a smaller buffer as it is. -/
def Packs (pack : Option Bytes → Nat × Option Bytes) (needed : Nat) (fields : List FieldDesc)
    (values : List (List Int)) : Prop :=
  ∀ output : Bytes,
    (needed ≤ output.length → ∃ payload : Bytes, payload.length = needed ∧
      pack (some output) = (needed, some (payload ++ output.drop needed)) ∧
      payload.take kSchemaVersionPrefixSize = u16 kSchemaVersion ∧
      decodeSample fields payload = some values) ∧
    (output.length < needed → pack (some output) = (0, some output))

/-! ## A packer writes its payload -/

theorem packInto_eq {needed : Nat} {pieces : List Bytes} (hneeded : pieces.flatten.length = needed)
    {output : Bytes} (hroom : needed ≤ output.length) :
    packInto needed pieces (some output) =
      (needed, some (pieces.flatten ++ output.drop needed)) := by
  have hputs := Writer.puts_eq { out := [], capacity := output.length } pieces
    (by simpa [hneeded] using hroom)
  rw [packInto, if_neg (by omega), hputs]
  simp [hneeded]

theorem packs_of_writes {needed : Nat} {pieces : List Bytes} {fields : List FieldDesc}
    {columns : List Column} {values : List (List Int)} (hcolumns : columnsOf fields = some columns)
    (hneeded : pieces.flatten.length = needed)
    (hpieces : pieces.flatten = u16 kSchemaVersion ++ columnsOctets columns values)
    (hvalues : List.Forall₂ Column.Holds columns values) :
    Packs (packInto needed pieces) needed fields values := by
  intro output
  constructor
  · intro hroom
    refine ⟨pieces.flatten, hneeded, packInto_eq hneeded hroom, ?_, ?_⟩
    · rw [hpieces]
      exact List.take_left' rfl
    · have hbody : pieces.flatten.drop kSchemaVersionPrefixSize = columnsOctets columns values := by
        rw [hpieces]
        exact List.drop_left' rfl
      rw [decodeSample, hcolumns, Option.bind_some, hbody, readAll_octets hvalues]
  · intro hsmall
    rw [packInto, if_pos hsmall]

theorem length_flatten_map {α : Type} {g : α → Bytes} {size : Nat} (h : ∀ x, (g x).length = size)
    (xs : List α) : (xs.map g).flatten.length = xs.length * size := by
  simp [List.length_flatten, Function.comp_def, h]

/-! ## The octets of one element -/

def uint8 : Element := { width := 1, signed := false }
def uint32 : Element := { width := 4, signed := false }
def uint64 : Element := { width := 8, signed := false }
def int8 : Element := { width := 1, signed := true }

theorem octets_uint8 (v : UInt8) : uint8.octets (v.toNat : Int) = u8 v := by
  have hlt : v.toNat < 256 ^ 1 := v.toNat_lt
  rw [Element.octets_natCast hlt]
  simp [uint8, octets, u8]

theorem octets_uint16 (v : UInt16) : octets 2 v.toNat = u16 v := by
  simp only [octets, u16, List.cons.injEq, and_true]
  constructor <;> apply UInt8.toNat_inj.1 <;> simp [Nat.shiftRight_eq_div_pow]

theorem octets_uint32 (v : UInt32) : uint32.octets (v.toNat : Int) = u32 v := by
  have hlt : v.toNat < 256 ^ 4 := v.toNat_lt
  rw [Element.octets_natCast hlt]
  simp only [uint32, octets, u32, List.cons.injEq, and_true]
  refine ⟨?_, ?_, ?_, ?_⟩ <;> apply UInt8.toNat_inj.1 <;>
    simp [Nat.shiftRight_eq_div_pow, Nat.div_div_eq_div_mul]

theorem octets_uint64 (v : UInt64) : uint64.octets (v.toNat : Int) = u64 v := by
  have hlt : v.toNat < 256 ^ 8 := v.toNat_lt
  rw [Element.octets_natCast hlt]
  have hrange : List.range 8 = [0, 1, 2, 3, 4, 5, 6, 7] := rfl
  simp only [uint64, octets, u64, hrange, List.map_cons, List.map_nil, List.cons.injEq, and_true]
  refine ⟨?_, ?_, ?_, ?_, ?_, ?_, ?_, ?_⟩ <;> apply UInt8.toNat_inj.1 <;>
    simp [Nat.shiftRight_eq_div_pow, Nat.div_div_eq_div_mul]

theorem octets_int8 (v : Int8) : int8.octets v.toInt = u8 v.toUInt8 := by
  have hmod : (v.toInt % (256 ^ 1 : Nat)).toNat = v.toUInt8.toNat := by
    rw [← Int8.toInt_toBitVec, BitVec.toInt_eq_toNat_bmod]
    show ((v.toBitVec.toNat : Int).bmod 256 % (256 : Nat)).toNat = _
    rw [Int.bmod_emod]
    exact congrArg Int.toNat (Int.emod_eq_of_lt (Int.natCast_nonneg _)
      (Int.ofNat_lt.2 v.toBitVec.isLt))
  rw [Element.octets, int8, hmod]
  simp [octets, u8]

theorem holds_uint8 (v : UInt8) : uint8.Holds (v.toNat : Int) :=
  Element.holds_natCast rfl v.toNat_lt

theorem holds_uint32 (v : UInt32) : uint32.Holds (v.toNat : Int) :=
  Element.holds_natCast rfl v.toNat_lt

theorem holds_uint64 (v : UInt64) : uint64.Holds (v.toNat : Int) :=
  Element.holds_natCast rfl v.toNat_lt

theorem holds_int8 (v : Int8) : int8.Holds v.toInt :=
  ⟨v.le_toInt, v.toInt_lt⟩

/-! ## `hub.link` and `hub.usb` -/

theorem columnsOf_kLinkFields :
    columnsOf kLinkFields = some (List.replicate 12 { element := uint32, arity := .fixed 1 }) := by
  rw [columnsOf, List.Pairwise.insertionSort_eq (by decide)]
  rfl

theorem link_packs (c : LinkCounters) :
    Packs (packLinkInto c) kLinkPayloadSize kLinkFields c.values := by
  refine packs_of_writes columnsOf_kLinkFields rfl ?_ ?_
  · simp [linkWrites, columnsOctets, columnOctets, LinkCounters.values, octets_uint32, List.replicate]
  · simp [LinkCounters.values, List.replicate, Column.Holds, holds_uint32]

theorem columnsOf_kUsbFields :
    columnsOf kUsbFields = some
      (List.replicate 6 { element := uint64, arity := .fixed 1 } ++
        [{ element := uint64, arity := .fixed 4 }] ++
        List.replicate 5 { element := uint64, arity := .fixed 1 }) := by
  rw [columnsOf, List.Pairwise.insertionSort_eq (by decide)]
  rfl

theorem length_usbWrites (c : UsbCounters) : (usbWrites c).flatten.length = kUsbPayloadSize := by
  have hsize := @length_flatten_map _ u64 8 (fun _ => rfl) c.droppedByClass.toList
  rw [Vector.length_toList] at hsize
  rw [usbWrites]
  simp only [List.flatten_append, List.length_append, hsize]
  rfl

theorem usb_packs (c : UsbCounters) :
    Packs (packUsbInto c) kUsbPayloadSize kUsbFields c.values := by
  have hclasses : (c.droppedByClass.toList.map fun v => (v.toNat : Int)).flatMap uint64.octets =
      (c.droppedByClass.toList.map u64).flatten :=
    Element.flatMap_octets octets_uint64 _
  refine packs_of_writes columnsOf_kUsbFields (length_usbWrites c) ?_ ?_
  · simp [usbWrites, columnsOctets, columnOctets, UsbCounters.values, octets_uint64,
      List.replicate, hclasses]
  · simp [UsbCounters.values, List.replicate, Column.Holds, holds_uint64]

/-! ## `hub.peers` -/

/-- The columns of `hub.peers`, with the size of a peer's entry in each. -/
theorem columnsOf_kPeersFields :
    columnsOf kPeersFields = some [
      { element := uint8, arity := .variable kMaxPeers },
      { element := uint32, arity := .variable kMaxPeers },
      { element := uint32, arity := .variable kMaxPeers },
      { element := uint8, arity := .variable (kMaxPeers * 6) },
      { element := uint32, arity := .variable kMaxPeers },
      { element := uint8, arity := .variable kMaxPeers },
      { element := int8, arity := .variable kMaxPeers },
      { element := uint32, arity := .variable kMaxPeers }] := by
  rw [columnsOf, List.Pairwise.insertionSort_eq (by decide)]
  rfl

theorem octets_count {count : Nat} (h : count < 2 ^ 16) : octets 2 count = u16 count.toUInt16 := by
  have hsize : count.toUInt16.toNat = count := by
    simp [Nat.toUInt16]
    omega
  rw [← octets_uint16, hsize]

/-- One entry a peer, in a variable column. -/
theorem columnOctets_map {α : Type} {e : Element} {maxCount : Nat} {f : α → Int} {g : α → Bytes}
    (h : ∀ x, e.octets (f x) = g x) {xs : List α} (hcount : xs.length < 2 ^ 16) :
    columnOctets { element := e, arity := .variable maxCount } (xs.map f) =
      ([u16 xs.length.toUInt16] ++ xs.map g).flatten := by
  rw [columnOctets]
  dsimp only
  rw [Element.flatMap_octets h, List.length_map, octets_count hcount]
  rfl

theorem holds_map {α : Type} {e : Element} {maxCount : Nat} {f : α → Int} {xs : List α}
    (h : ∀ x ∈ xs, e.Holds (f x)) (hcount : xs.length ≤ maxCount) (hmax : maxCount < 256 ^ 2) :
    Column.Holds { element := e, arity := .variable maxCount } (xs.map f) := by
  refine ⟨List.forall_mem_map.2 h, ?_⟩
  dsimp only
  rw [List.length_map]
  omega

/-- The octets of the addresses of all peers, in order. -/
def macOctets (peers : List PeerRecord) : Bytes := peers.flatMap fun p => p.mac.toList

theorem length_macOctets (peers : List PeerRecord) : (macOctets peers).length = peers.length * 6 := by
  rw [macOctets, List.flatMap_def]
  exact length_flatten_map (fun p => p.mac.length_toList) peers

theorem octets_channel (i : Nat) : uint8.octets (i : Int) = u8 i.toUInt8 := by
  have hmod : ((i : Int) % (256 ^ 1 : Nat)).toNat = i % 256 := by omega
  rw [Element.octets, uint8, hmod]
  simp only [octets, u8, List.cons.injEq, and_true]
  apply UInt8.toNat_inj.1
  simp [Nat.toUInt8]

theorem octets_online (online : Bool) :
    uint8.octets (if online then 1 else 0) = u8 (if online then 1 else 0) := by
  cases online <;> rfl

theorem holds_online (online : Bool) : uint8.Holds (if online then 1 else 0) := by
  cases online <;> exact ⟨by decide, by decide⟩

/-- The number of octets `hub.peers` takes for a list of peers. -/
def peersPayloadSize (allPeers : List PeerRecord) : Nat :=
  kPeersPayloadOverhead + kPeersPayloadBytesPerPeer * min allPeers.length kMaxPeers

theorem macWrites_eq (peers : List PeerRecord) :
    (peers.flatMap fun p => p.mac.toList.map u8) = (macOctets peers).map u8 :=
  (List.map_flatMap ..).symm

theorem macValues_eq (peers : List PeerRecord) :
    (peers.flatMap fun p => p.mac.toList.map fun b => (b.toNat : Int)) =
      (macOctets peers).map fun b => (b.toNat : Int) :=
  (List.map_flatMap ..).symm

theorem length_peersWrites (peers : List PeerRecord) :
    (peersWrites peers).flatten.length =
      kPeersPayloadOverhead + kPeersPayloadBytesPerPeer * peers.length := by
  have hu8 : ∀ v, (u8 v).length = 1 := fun _ => rfl
  have hu32 : ∀ v, (u32 v).length = 4 := fun _ => rfl
  have hu16 : ∀ v, [u16 v].flatten.length = 2 := fun _ => rfl
  rw [peersWrites, macWrites_eq]
  simp only [List.flatten_append, List.length_append, hu16]
  rw [length_flatten_map (fun i : Nat => hu8 i.toUInt8),
    length_flatten_map (fun p : PeerRecord => hu32 p.sourceId),
    length_flatten_map (fun p : PeerRecord => hu32 p.bootId), length_flatten_map hu8,
    length_flatten_map (fun p : PeerRecord => hu32 p.lastSeenAgeMs),
    length_flatten_map (fun p : PeerRecord => hu8 (if p.online then 1 else 0)),
    length_flatten_map (fun p : PeerRecord => hu8 p.rssi.toUInt8),
    length_flatten_map (fun p : PeerRecord => hu32 p.rttMs), List.length_range, length_macOctets,
    kPeersPayloadOverhead, kPeersPayloadBytesPerPeer, kSchemaVersionPrefixSize]
  omega

/-- The columns that `packPeers` writes are those of the table. -/
theorem flatten_peersWrites {peers : List PeerRecord} (hcount : peers.length ≤ kMaxPeers)
    {columns : List Column} (hcolumns : columnsOf kPeersFields = some columns) :
    (peersWrites peers).flatten =
      u16 kSchemaVersion ++ columnsOctets columns (peersColumns peers) := by
  have hlen : peers.length < 2 ^ 16 := Nat.lt_of_le_of_lt hcount (by decide)
  have hmacs := length_macOctets peers
  have hmacLen : (macOctets peers).length < 2 ^ 16 := by
    rw [kMaxPeers] at hcount
    omega
  have hchannel := @columnOctets_map _ _ kMaxPeers _ _ octets_channel (List.range peers.length)
    (by rwa [List.length_range])
  rw [List.length_range] at hchannel
  rw [columnsOf_kPeersFields] at hcolumns
  cases hcolumns
  rw [peersWrites, peersColumns, macWrites_eq, macValues_eq]
  have hsource := @columnOctets_map PeerRecord _ kMaxPeers _ _ (octets_uint32 ·.sourceId) peers hlen
  have hboot := @columnOctets_map PeerRecord _ kMaxPeers _ _ (octets_uint32 ·.bootId) peers hlen
  have hmac := @columnOctets_map _ _ (kMaxPeers * 6) _ _ octets_uint8 (macOctets peers) hmacLen
  have hage :=
    @columnOctets_map PeerRecord _ kMaxPeers _ _ (octets_uint32 ·.lastSeenAgeMs) peers hlen
  have honline := @columnOctets_map PeerRecord _ kMaxPeers _ _ (octets_online ·.online) peers hlen
  have hrssi := @columnOctets_map PeerRecord _ kMaxPeers _ _ (octets_int8 ·.rssi) peers hlen
  have hrtt := @columnOctets_map PeerRecord _ kMaxPeers _ _ (octets_uint32 ·.rttMs) peers hlen
  rw [hmacs] at hmac
  simp only [columnsOctets]
  rw [hchannel, hsource, hboot, hmac, hage, honline, hrssi, hrtt]
  simp only [List.flatten_append, List.append_assoc, List.append_nil]
  rfl

theorem holds_peersColumns {peers : List PeerRecord} (hcount : peers.length ≤ kMaxPeers)
    {columns : List Column} (hcolumns : columnsOf kPeersFields = some columns) :
    List.Forall₂ Column.Holds columns (peersColumns peers) := by
  have hmacLen : (macOctets peers).length ≤ kMaxPeers * 6 := by
    rw [length_macOctets]
    exact Nat.mul_le_mul_right 6 hcount
  have hrange : (List.range peers.length).length ≤ kMaxPeers := by rwa [List.length_range]
  have hchannel : ∀ i ∈ List.range peers.length, uint8.Holds (i : Int) := by
    intro i hi
    have hi : i < 16 := Nat.lt_of_lt_of_le (List.mem_range.1 hi) hcount
    exact Element.holds_natCast rfl (Nat.lt_trans hi (by decide))
  rw [columnsOf_kPeersFields] at hcolumns
  cases hcolumns
  rw [peersColumns, macValues_eq]
  exact .cons (holds_map hchannel hrange (by decide)) <|
    .cons (holds_map (fun p _ => holds_uint32 p.sourceId) hcount (by decide)) <|
    .cons (holds_map (fun p _ => holds_uint32 p.bootId) hcount (by decide)) <|
    .cons (holds_map (fun b _ => holds_uint8 b) hmacLen (by decide)) <|
    .cons (holds_map (fun p _ => holds_uint32 p.lastSeenAgeMs) hcount (by decide)) <|
    .cons (holds_map (fun p _ => holds_online p.online) hcount (by decide)) <|
    .cons (holds_map (fun p _ => holds_int8 p.rssi) hcount (by decide)) <|
    .cons (holds_map (fun p _ => holds_uint32 p.rttMs) hcount (by decide)) .nil

theorem length_take_peers (allPeers : List PeerRecord) :
    (allPeers.take (min allPeers.length kMaxPeers)).length = min allPeers.length kMaxPeers :=
  List.length_take_of_le (Nat.min_le_left ..)

theorem peers_packs (allPeers : List PeerRecord) :
    Packs (packPeersInto allPeers) (peersPayloadSize allPeers) kPeersFields
      (peersValues allPeers) := by
  have hlen := length_take_peers allPeers
  have hcount : (allPeers.take (min allPeers.length kMaxPeers)).length ≤ kMaxPeers := by
    rw [hlen]
    exact Nat.min_le_right ..
  have hsize := length_peersWrites (allPeers.take (min allPeers.length kMaxPeers))
  rw [hlen] at hsize
  exact packs_of_writes columnsOf_kPeersFields hsize
    (flatten_peersWrites hcount columnsOf_kPeersFields)
    (holds_peersColumns hcount columnsOf_kPeersFields)

/-- Every sample is decoded by the field table of its topic to what it was packed from, and
a buffer too small for it is left alone. -/
theorem samples_decode (link : LinkCounters) (usb : UsbCounters) (peers : List PeerRecord) :
    Packs (packLinkInto link) kLinkPayloadSize kLinkFields link.values ∧
      Packs (packUsbInto usb) kUsbPayloadSize kUsbFields usb.values ∧
      Packs (packPeersInto peers) (peersPayloadSize peers) kPeersFields (peersValues peers) :=
  ⟨link_packs link, usb_packs usb, peers_packs peers⟩

/-! ## The payloads that are emitted -/

theorem length_packLink (c : LinkCounters) : (packLink c).length = kLinkPayloadSize := rfl

theorem flatten_usbWrites (c : UsbCounters) : (usbWrites c).flatten = packUsb c := by
  rw [usbWrites, packUsb]
  simp [List.flatMap_def]

theorem length_packUsb (c : UsbCounters) : (packUsb c).length = kUsbPayloadSize := by
  rw [← flatten_usbWrites, length_usbWrites]

theorem flatten_take_peersWrites (allPeers : List PeerRecord) :
    (peersWrites (allPeers.take (min allPeers.length kMaxPeers))).flatten = packPeers allPeers := by
  have htake : allPeers.take (min allPeers.length kMaxPeers) = allPeers.take kMaxPeers :=
    List.take_eq_take_iff.2 (by omega)
  rw [htake, packPeers, peersWrites, macWrites_eq]
  generalize allPeers.take kMaxPeers = peers
  have hmacs : ((macOctets peers).map u8).flatten = peers.flatMap fun p => p.mac.toList := by
    rw [← List.flatMap_def]
    exact List.flatMap_singleton' _
  simp [column, List.flatMap_def, hmacs]

theorem length_packPeers (allPeers : List PeerRecord) :
    (packPeers allPeers).length = peersPayloadSize allPeers := by
  rw [← flatten_take_peersWrites, length_peersWrites, length_take_peers, peersPayloadSize]

theorem packLinkInto_eq (c : LinkCounters) {output : Bytes}
    (hroom : kLinkPayloadSize ≤ output.length) :
    packLinkInto c (some output) =
      (kLinkPayloadSize, some (packLink c ++ output.drop kLinkPayloadSize)) := by
  have hsize : (linkWrites c).flatten.length = kLinkPayloadSize := rfl
  rw [packLinkInto, packInto_eq hsize hroom]
  rfl

theorem packUsbInto_eq (c : UsbCounters) {output : Bytes}
    (hroom : kUsbPayloadSize ≤ output.length) :
    packUsbInto c (some output) =
      (kUsbPayloadSize, some (packUsb c ++ output.drop kUsbPayloadSize)) := by
  rw [packUsbInto, packInto_eq (length_usbWrites c) hroom, flatten_usbWrites]

theorem packPeersInto_eq (allPeers : List PeerRecord) {output : Bytes}
    (hroom : peersPayloadSize allPeers ≤ output.length) :
    packPeersInto allPeers (some output) =
      (peersPayloadSize allPeers,
        some (packPeers allPeers ++ output.drop (peersPayloadSize allPeers))) := by
  have hsize := length_packPeers allPeers
  rw [← flatten_take_peersWrites] at hsize
  have hpack := packInto_eq hsize hroom
  rw [flatten_take_peersWrites] at hpack
  exact hpack

end BallyDongle.DonglePublisher
