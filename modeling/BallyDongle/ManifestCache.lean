import BallyDongle.Btp.Manifest
import BallyDongle.DonglePublisher

/-!
# The manifest cache

`ManifestCache.cpp`: one entry per robot whose manifest was received, with its
topic and action records verbatim, and one pending request per robot asked for
its manifest. The buffers of an entry are never cleared: a copy overwrites
their head, and the sizes beside them say how far they are read. The dongle's
own topics are answered by `DonglePublisher`, never from the table.
-/

namespace BallyDongle.ManifestCache

open Btp

def kManifestDataObjectId : UInt16 := 0x0004
def kCapacity : Nat := 8
def kMaxRecordsBytes : Nat := 2048
def kMaxNameLength : Nat := 64
def kMaxSourceInfoBytes : Nat := 512
def kRequestCooldownMs : UInt32 := 3000
def kFastRequestCooldownMs : UInt32 := 1000
def kFastRequestAttempts : UInt32 := 3

instance : NeZero kCapacity := ⟨by decide⟩

/-- `memcpy(buffer, data, data.length)`. -/
def memcpy (buffer data : Bytes) : Bytes := data ++ buffer.drop data.length

structure Entry where
  used : Bool := false
  sourceId : UInt32 := 0
  bootId : UInt32 := 0
  uuid : Vector UInt8 16 := Vector.replicate 16 0
  role : UInt8 := 0
  online : Bool := false
  configRevision : UInt32 := 0
  name : Bytes := List.replicate (kMaxNameLength + 1) 0
  topicCount : UInt16 := 0
  actionCount : UInt16 := 0
  records : Bytes := List.replicate kMaxRecordsBytes 0
  recordsSize : Nat := 0
  topicRecordsSize : Nat := 0
  sourceInfo : Bytes := List.replicate kMaxSourceInfoBytes 0
  sourceInfoSize : Nat := 0
  lastSeenMs : UInt32 := 0
  deriving DecidableEq, Repr

structure PendingRequest where
  used : Bool := false
  sourceId : UInt32 := 0
  bootId : UInt32 := 0
  lastRequestedMs : UInt32 := 0
  attempts : UInt32 := 0
  deriving DecidableEq, Repr

/-- The globals of `ManifestCache.cpp`. -/
structure Cache where
  entries : Fin kCapacity → Entry := fun _ => {}
  pending : Fin kCapacity → PendingRequest := fun _ => {}
  catalogRevision : UInt32 := 1
  selfUuid : Vector UInt8 16 := Vector.replicate 16 0
  selfSourceInfo : Option Bytes := none
  primeSent : UInt32 := 0
  ingestOk : UInt32 := 0
  ingestFail : UInt32 := 0
  consumeRejected : UInt32 := 0
  targetedRx : UInt32 := 0
  targetedHit : UInt32 := 0
  targetedMiss : UInt32 := 0

def notePrimeSent (g : Cache) : Cache := { g with primeSent := g.primeSent + 1 }

def noteConsumeRejected (g : Cache) : Cache := { g with consumeRejected := g.consumeRejected + 1 }

def configure (g : Cache) (selfUuid : Option (Vector UInt8 16)) (selfSourceInfo : Option Bytes) :
    Cache :=
  { g with
    selfUuid := selfUuid.getD g.selfUuid
    selfSourceInfo := selfSourceInfo.filter fun info => decide (2 ≤ info.length) }

/-! ## Finding and allocating -/

/-- The slot `findEntry` points at. -/
def entrySlot (g : Cache) (sourceId : UInt32) : Option (Fin kCapacity) :=
  SlotTable.first (fun e => e.used && e.sourceId == sourceId) g.entries

def findEntry (g : Cache) (sourceId : UInt32) : Option Entry := (entrySlot g sourceId).map g.entries

def findOrAllocateEntry (g : Cache) (sourceId : UInt32) : Fin kCapacity :=
  match entrySlot g sourceId with
  | some existing => existing
  | none => SlotTable.allocate Entry.used (fun e => e.lastSeenMs.toNat) g.entries

def findPending (g : Cache) (sourceId : UInt32) : Option (Fin kCapacity) :=
  SlotTable.first (fun p => p.used && p.sourceId == sourceId) g.pending

def findOrAllocatePending (g : Cache) (sourceId : UInt32) : Fin kCapacity :=
  match findPending g sourceId with
  | some existing => existing
  | none => SlotTable.allocate PendingRequest.used (fun p => p.lastRequestedMs.toNat) g.pending

/-! ## Requests -/

/-- Ask again only after the cooldown, which is longer once a robot has left
several requests unanswered. -/
def shouldRequestManifest (g : Cache) (sourceId bootId nowMs : UInt32) : Cache × Bool :=
  if sourceId = 0 ∨ bootId = 0 then (g, false)
  else if (findEntry g sourceId).any fun entry => entry.bootId == bootId then (g, false)
  else
    let waiting (pending : PendingRequest) : Bool :=
      nowMs - pending.lastRequestedMs <
        if pending.attempts ≤ kFastRequestAttempts then kFastRequestCooldownMs
        else kRequestCooldownMs
    if (findPending g sourceId).any fun slot => waiting (g.pending slot) then (g, false)
    else
      let slot := findOrAllocatePending g sourceId
      let old := g.pending slot
      let sameSource := old.used && old.sourceId == sourceId
      let asked : PendingRequest :=
        { used := true, sourceId, bootId, lastRequestedMs := nowMs
          attempts := if sameSource then old.attempts + 1 else 1 }
      ({ g with pending := Function.update g.pending slot asked }, true)

/-! ## Ingest -/

/-- What the checks of `ingestManifestDataImpl` let through. -/
structure Descriptor where
  header : ManifestHeader
  info : Bytes
  topics : ByteView
  actions : ByteView

def Descriptor.notModified (d : Descriptor) : Bool := d.header.flags &&& kManifestNotModified ≠ 0

def Descriptor.recordsSize (d : Descriptor) : Nat := d.topics.size + d.actions.size

/-- The checks of `ingestManifestDataImpl` before the table is looked at, in order. -/
def readDescriptor (reader : ManifestReader) (payload : Bytes) : Option Descriptor := do
  let header ← (reader.header payload).toOption
  guard (header.status = kResultSuccess)
  let notModified := header.flags &&& kManifestNotModified ≠ 0
  guard (header.describedSourceId ≠ 0 ∧ header.describedBootId ≠ 0)
  let rawInfo ← (reader.rawSourceInfo payload).toOption
  guard (2 ≤ rawInfo.length → rawInfo.length ≤ kMaxSourceInfoBytes)
  let info := if 2 ≤ rawInfo.length then rawInfo else kEmptySourceInfo
  guard (notModified → header.topicCount = 0 ∧ header.actionCount = 0)
  let (topics, actions) ← (reader.rawRecords payload).toOption
  guard (notModified ∨ topics.size + actions.size ≤ kMaxRecordsBytes)
  return { header, info, topics, actions }

/-- The content, which only a full answer brings: the name cut to its buffer, and
both runs in one copy, starting where the topics start. -/
def Entry.storeContent (entry : Entry) (d : Descriptor) (payload : Bytes) : Entry :=
  { entry with
    name := memcpy entry.name (d.header.sourceName.take kMaxNameLength ++ [0])
    records := memcpy entry.records (slice payload d.topics.offset d.recordsSize)
    recordsSize := d.recordsSize
    topicRecordsSize := d.topics.size
    topicCount := d.header.topicCount
    actionCount := d.header.actionCount }

/-- What every accepted answer refreshes. -/
def Entry.refresh (entry : Entry) (d : Descriptor) (nowMs : UInt32) : Entry :=
  { entry with
    used := true
    sourceId := d.header.describedSourceId
    bootId := d.header.describedBootId
    uuid := d.header.sourceUuid
    role := d.header.sourceRole
    online := d.header.sourceFlags &&& kSourceOnline ≠ 0
    configRevision := d.header.configRevision
    lastSeenMs := nowMs
    sourceInfo := memcpy entry.sourceInfo d.info
    sourceInfoSize := d.info.length }

def Entry.ingest (entry : Entry) (d : Descriptor) (payload : Bytes) (nowMs : UInt32) : Entry :=
  if d.notModified then entry.refresh d nowMs
  else (entry.refresh d nowMs).storeContent d payload

def clearPending (g : Cache) (sourceId : UInt32) : Cache :=
  match findPending g sourceId with
  | none => g
  | some slot =>
    { g with pending := Function.update g.pending slot { g.pending slot with used := false } }

/-- Whether an answer is news: its robot, or the boot or the revision of it. -/
def changed (g : Cache) (header : ManifestHeader) : Bool :=
  match entrySlot g header.describedSourceId with
  | none => true
  | some slot =>
    (g.entries slot).bootId != header.describedBootId ||
      (g.entries slot).configRevision != header.configRevision

/-- The update, past the last check: an existing entry is written in place. -/
def store (g : Cache) (d : Descriptor) (payload : Bytes) (nowMs : UInt32) : Cache :=
  let slot := findOrAllocateEntry g d.header.describedSourceId
  let entries := Function.update g.entries slot ((g.entries slot).ingest d payload nowMs)
  { clearPending { g with entries } d.header.describedSourceId with
    catalogRevision :=
      if changed g d.header then g.catalogRevision + 1 else g.catalogRevision }

def ingestManifestDataImpl (reader : ManifestReader) (g : Cache) (payload : Bytes)
    (nowMs : UInt32) : Cache × Bool :=
  match readDescriptor reader payload with
  | none => (g, false)
  | some d =>
    -- NOT_MODIFIED about a robot that is not cached
    if (entrySlot g d.header.describedSourceId).isNone && d.notModified then (g, false)
    else (store g d payload nowMs, true)

def ingestManifestData (reader : ManifestReader) (g : Cache) (payload : Bytes) (nowMs : UInt32) :
    Cache × Bool :=
  match ingestManifestDataImpl reader g payload nowMs with
  | (g, true) => ({ g with ingestOk := g.ingestOk + 1 }, true)
  | (g, false) => ({ g with ingestFail := g.ingestFail + 1 }, false)

/-! ## Topic lookup -/

/-- Walk `count` size-prefixed topic records for `topicId`. -/
def walkTopics (topicId : UInt16) : (count : Nat) → (records : Bytes) → Option UInt32
  | 0, _ => none
  | count + 1, records => do
    let contentSize ← readU32 records 0
    if records.length < 4 + contentSize.toNat ∨ contentSize < 12 then none
    else if readU16 records 4 = some topicId then readU32 records 12
    else walkTopics topicId count (records.drop (4 + contentSize.toNat))

def lookupTopicMaxRateMillihz (g : Cache) (selfSourceId sourceId topicId : UInt32) :
    Option UInt32 :=
  if topicId = 0 ∨ 0xFFFF < topicId then none
  else if sourceId = selfSourceId then
    DonglePublisher.lookupTopicMaxRateMillihz topicId.toUInt16
  else
    (findEntry g sourceId).bind fun entry =>
      walkTopics topicId.toUInt16 entry.topicCount.toNat (entry.records.take entry.recordsSize)

end BallyDongle.ManifestCache
