import BallyDongle.DonglePublisher.Schema
import BallyDongle.ManifestCache
import Mathlib.Data.List.Sort

/-!
# Answers from the manifest cache

The two response builders of `ManifestCache.cpp`. Both describe a source, the
dongle itself or a cached robot, through `writeManifestData`; an enumeration
takes the robots in the order of their ids, counted and sorted anew for every
index.
-/

namespace BallyDongle.ManifestCache

open Btp

def kStatusSuccess : UInt8 := 0x00
def kStatusRejected : UInt8 := 0x01
def kErrorNone : UInt16 := 0x0000
def kErrorStaleTargetBoot : UInt16 := 0x0009
def kErrorNotFound : UInt16 := 0x000B
def kFlagNotModified : UInt8 := 0x01
def kFlagCatalogComplete : UInt8 := 0x02
def kSelfConfigRevision : UInt32 := 3
def kSelfName : String := "t_dongle_develop"
def kManifestFormatVersion : UInt16 := 3

/-- The dongle's own identity, from `BtpTransport`. -/
structure Identity where
  sourceId : UInt32
  bootId : UInt32

/-! ## Writing a response -/

/-- What a response says about a source; `none` for a null pointer. -/
structure Described where
  configRevision : UInt32 := 0
  uuid : Option (Vector UInt8 16) := none
  sourceId : UInt32 := 0
  bootId : UInt32 := 0
  role : UInt8 := 0
  online : Bool := false
  name : Bytes
  sourceInfo : Option Bytes := none
  sourceInfoSize : Nat := 0
  records : Bytes := []
  recordsSize : Nat := 0
  topicRecordsSize : Nat := 0

/-- The status words of a response and its place in the catalog. -/
structure Answer where
  status : UInt8
  flags : UInt8
  errorCode : UInt16
  catalogIndex : UInt16
  catalogCount : UInt16

def manifestHeader (requestHeader : Header) (answer : Answer) (d : Described) : ManifestHeader :=
  { request :=
      { requestSourceId := requestHeader.sourceId, requestBootId := requestHeader.bootId
        replyToSequence := requestHeader.sequence }
    status := answer.status
    flags := answer.flags
    errorCode := answer.errorCode
    manifestFormatVersion := kManifestFormatVersion
    configRevision := d.configRevision
    sourceUuid := d.uuid.getD (Vector.replicate 16 0)
    describedSourceId := d.sourceId
    describedBootId := d.bootId
    sourceRole := d.role
    sourceFlags := if d.online then kSourceOnline else 0
    catalogIndex := answer.catalogIndex
    catalogCount := answer.catalogCount
    sourceName := cString d.name }

/-- The block to put, when the source has a real one. -/
def Described.info (d : Described) : Option Bytes :=
  (d.sourceInfo.filter fun _ => decide (2 ≤ d.sourceInfoSize)).map (slice · 0 d.sourceInfoSize)

def Described.topics (d : Described) : Bytes := slice d.records 0 d.topicRecordsSize

def Described.actions (d : Described) : Bytes :=
  slice d.records d.topicRecordsSize (d.recordsSize - d.topicRecordsSize)

def writeManifestData (writer : ManifestWriter) (requestHeader : Header) (answer : Answer)
    (d : Described) (outputCapacity : Nat) : Option Bytes :=
  writer.write (manifestHeader requestHeader answer d) d.info d.topics d.actions outputCapacity

/-! ## The sources -/

/-- An entry, as both builders read it. -/
def Entry.described (entry : Entry) : Described :=
  { configRevision := entry.configRevision
    uuid := some entry.uuid
    sourceId := entry.sourceId
    bootId := entry.bootId
    role := entry.role
    online := entry.online
    name := entry.name
    sourceInfo := some entry.sourceInfo
    sourceInfoSize := entry.sourceInfoSize
    records := entry.records
    recordsSize := entry.recordsSize
    topicRecordsSize := entry.topicRecordsSize }

/-- The dongle, with these records: all of them are topics. -/
def ownDescribed (records : Bytes) (self : Identity) (g : Cache) : Described :=
  { configRevision := kSelfConfigRevision
    uuid := some g.selfUuid
    sourceId := self.sourceId
    bootId := self.bootId
    role := kSourceRoleDongle
    online := true
    name := literal kSelfName
    sourceInfo := g.selfSourceInfo
    sourceInfoSize := (g.selfSourceInfo.getD []).length
    records
    recordsSize := records.length
    topicRecordsSize := records.length }

def selfDescribed (self : Identity) (g : Cache) : Described :=
  ownDescribed DonglePublisher.topicRecords.1 self g

/-- Without the records, for a client that has them. -/
def Described.withoutRecords (d : Described) : Described :=
  { d with records := [], recordsSize := 0, topicRecordsSize := 0 }

/-! ## Enumeration -/

/-- The used entries in slot order. -/
def usedEntries (g : Cache) : List Entry :=
  ((List.finRange kCapacity).map g.entries).filter Entry.used

/-- The used entries, sorted by id. -/
def collectSortedEntries (g : Cache) : List Entry :=
  (usedEntries g).insertionSort fun a b => a.sourceId ≤ b.sourceId

def enumerationCount (g : Cache) : Nat := 1 + (usedEntries g).length

def buildEnumerationResponse (writer : ManifestWriter) (self : Identity) (g : Cache) (index : Nat)
    (requestHeader : Header) (outputCapacity : Nat) : Option Bytes :=
  let total := enumerationCount g
  if total ≤ index then none
  else
    let answer : Answer :=
      { status := kStatusSuccess
        flags := if index + 1 = total then kFlagCatalogComplete else 0
        errorCode := kErrorNone, catalogIndex := index.toUInt16, catalogCount := total.toUInt16 }
    if index = 0 then
      writeManifestData writer requestHeader answer (selfDescribed self g) outputCapacity
    else
      ((collectSortedEntries g)[index - 1]?).bind fun entry =>
        writeManifestData writer requestHeader answer entry.described outputCapacity

/-! ## A targeted request -/

/-- The one answer that is the whole catalog. -/
def single (status flags : UInt8) (errorCode : UInt16) : Answer :=
  { status, flags := flags ||| kFlagCatalogComplete, errorCode, catalogIndex := 0, catalogCount := 1 }

/-- The source a request names. -/
def target (self : Identity) (g : Cache) (targetSourceId : UInt32) : Option Described :=
  if targetSourceId = self.sourceId then some (selfDescribed self g)
  else (findEntry g targetSourceId).map Entry.described

def countTargeted (g : Cache) (hit : Bool) : Cache :=
  { g with
    targetedRx := g.targetedRx + 1
    targetedHit := if hit then g.targetedHit + 1 else g.targetedHit
    targetedMiss := if hit then g.targetedMiss else g.targetedMiss + 1 }

def targetedAnswer (writer : ManifestWriter) (request : ManifestRequest) (requestHeader : Header)
    (outputCapacity : Nat) : Option Described → Option Bytes
  | none =>
    writeManifestData writer requestHeader (single kStatusRejected 0 kErrorNotFound)
      { name := literal "unknown source" } outputCapacity
  | some d =>
    if request.targetBootId ≠ 0 ∧ request.targetBootId ≠ d.bootId then
      writeManifestData writer requestHeader (single kStatusRejected 0 kErrorStaleTargetBoot)
        { name := literal "boot mismatch" } outputCapacity
    else if request.knownConfigRevision ≠ 0 ∧ request.knownConfigRevision = d.configRevision then
      writeManifestData writer requestHeader (single kStatusSuccess kFlagNotModified kErrorNone)
        d.withoutRecords outputCapacity
    else
      writeManifestData writer requestHeader (single kStatusSuccess 0 kErrorNone) d outputCapacity

def buildTargetedResponse (writer : ManifestWriter) (self : Identity) (g : Cache)
    (request : ManifestRequest) (requestHeader : Header) (outputCapacity : Nat) :
    Cache × Option Bytes :=
  let found := target self g request.targetSourceId
  (countTargeted g found.isSome,
    targetedAnswer writer request requestHeader outputCapacity found)

/-! ## What a response shows -/

/-- A source as a response shows it: of its buffers only what is read. -/
structure Shown where
  configRevision : UInt32
  uuid : Option (Vector UInt8 16)
  sourceId : UInt32
  bootId : UInt32
  role : UInt8
  online : Bool
  name : Bytes
  info : Option Bytes
  topics : Bytes
  actions : Bytes
  deriving DecidableEq

def Described.shown (d : Described) : Shown :=
  { configRevision := d.configRevision, uuid := d.uuid, sourceId := d.sourceId, bootId := d.bootId
    role := d.role, online := d.online, name := cString d.name, info := d.info
    topics := d.topics, actions := d.actions }

namespace Shown

def header (requestHeader : Header) (answer : Answer) (s : Shown) : ManifestHeader :=
  { request :=
      { requestSourceId := requestHeader.sourceId, requestBootId := requestHeader.bootId
        replyToSequence := requestHeader.sequence }
    status := answer.status
    flags := answer.flags
    errorCode := answer.errorCode
    manifestFormatVersion := kManifestFormatVersion
    configRevision := s.configRevision
    sourceUuid := s.uuid.getD (Vector.replicate 16 0)
    describedSourceId := s.sourceId
    describedBootId := s.bootId
    sourceRole := s.role
    sourceFlags := if s.online then kSourceOnline else 0
    catalogIndex := answer.catalogIndex
    catalogCount := answer.catalogCount
    sourceName := s.name }

def withoutRecords (s : Shown) : Shown := { s with topics := [], actions := [] }

def write (writer : ManifestWriter) (requestHeader : Header) (answer : Answer)
    (outputCapacity : Nat) (s : Shown) : Option Bytes :=
  writer.write (s.header requestHeader answer) s.info s.topics s.actions outputCapacity

end Shown

/-- A response depends on a source through what it shows only. -/
theorem writeManifestData_eq (writer : ManifestWriter) (requestHeader : Header) (answer : Answer)
    (d : Described) (outputCapacity : Nat) :
    writeManifestData writer requestHeader answer d outputCapacity =
      d.shown.write writer requestHeader answer outputCapacity := rfl

theorem shown_withoutRecords (d : Described) :
    d.withoutRecords.shown = d.shown.withoutRecords := by
  have htopics : d.withoutRecords.topics = [] := by
    simp [Described.topics, Described.withoutRecords, slice]
  have hactions : d.withoutRecords.actions = [] := by
    simp [Described.actions, Described.withoutRecords, slice]
  rw [Described.shown, htopics, hactions]
  rfl

def Entry.shown (entry : Entry) : Shown := entry.described.shown

/-- What a slot shows; a free one shows nothing. -/
def Entry.view (entry : Entry) : Option Shown := if entry.used then some entry.shown else none

/-- The cached robots as an enumeration shows them, in the order of their ids. -/
def catalog (g : Cache) : List Shown :=
  ((usedEntries g).map Entry.shown).insertionSort fun a b => a.sourceId ≤ b.sourceId

theorem collectSortedEntries_shown (g : Cache) :
    (collectSortedEntries g).map Entry.shown = catalog g :=
  List.map_insertionSort _ _ _ _ fun _ _ _ _ => Iff.rfl

theorem length_catalog (g : Cache) : enumerationCount g = 1 + (catalog g).length := by
  rw [catalog, List.length_insertionSort, List.length_map, enumerationCount]

/-- The place of an enumeration response in the catalog. -/
def place (index total : Nat) : Answer :=
  { status := kStatusSuccess, flags := if index + 1 = total then kFlagCatalogComplete else 0
    errorCode := kErrorNone, catalogIndex := index.toUInt16, catalogCount := total.toUInt16 }

/-- The sources in the order of their indices. -/
def listing (self : Identity) (g : Cache) : List Shown := (selfDescribed self g).shown :: catalog g

theorem buildEnumerationResponse_eq (writer : ManifestWriter) (self : Identity) (g : Cache)
    (index : Nat) (requestHeader : Header) (outputCapacity : Nat) :
    buildEnumerationResponse writer self g index requestHeader outputCapacity =
      (listing self g)[index]?.bind
        (Shown.write writer requestHeader (place index (enumerationCount g)) outputCapacity) := by
  unfold buildEnumerationResponse
  have hlen := length_catalog g
  dsimp only
  split
  · rename_i h
    rw [List.getElem?_eq_none (by rw [listing, List.length_cons]; omega), Option.bind_none]
  · split
    · rename_i h
      subst h
      rw [listing, List.getElem?_cons_zero, Option.bind_some, writeManifestData_eq, place]
    · rename_i h
      obtain ⟨k, rfl⟩ := Nat.exists_eq_succ_of_ne_zero h
      rw [listing, List.getElem?_cons_succ, ← collectSortedEntries_shown, List.getElem?_map,
        Option.bind_map]
      rfl

/-- What a targeted request finds. -/
def found (self : Identity) (g : Cache) (targetSourceId : UInt32) : Option Shown :=
  (target self g targetSourceId).map Described.shown

/-- The answer to a targeted request, of what it finds. -/
def Shown.answer (writer : ManifestWriter) (request : ManifestRequest) (requestHeader : Header)
    (outputCapacity : Nat) (s : Shown) : Option Bytes :=
  if request.targetBootId ≠ 0 ∧ request.targetBootId ≠ s.bootId then
    writeManifestData writer requestHeader (single kStatusRejected 0 kErrorStaleTargetBoot)
      { name := literal "boot mismatch" } outputCapacity
  else if request.knownConfigRevision ≠ 0 ∧ request.knownConfigRevision = s.configRevision then
    s.withoutRecords.write writer requestHeader (single kStatusSuccess kFlagNotModified kErrorNone)
      outputCapacity
  else s.write writer requestHeader (single kStatusSuccess 0 kErrorNone) outputCapacity

/-- The answer about a source that is not cached. -/
def notFound (writer : ManifestWriter) (requestHeader : Header) (outputCapacity : Nat) :
    Option Bytes :=
  writeManifestData writer requestHeader (single kStatusRejected 0 kErrorNotFound)
    { name := literal "unknown source" } outputCapacity

theorem targetedAnswer_some (writer : ManifestWriter) (request : ManifestRequest)
    (requestHeader : Header) (outputCapacity : Nat) (d : Described) :
    targetedAnswer writer request requestHeader outputCapacity (some d) =
      d.shown.answer writer request requestHeader outputCapacity := by
  rw [targetedAnswer, Shown.answer, ← shown_withoutRecords]
  rfl

theorem found_eq (self : Identity) (g : Cache) (targetSourceId : UInt32) :
    found self g targetSourceId =
      if targetSourceId = self.sourceId then some (selfDescribed self g).shown
      else (findEntry g targetSourceId).map Entry.shown := by
  unfold found target
  split
  · rfl
  · rw [Option.map_map]
    rfl

theorem buildTargetedResponse_eq (writer : ManifestWriter) (self : Identity) (g : Cache)
    (request : ManifestRequest) (requestHeader : Header) (outputCapacity : Nat) :
    (buildTargetedResponse writer self g request requestHeader outputCapacity).2 =
      match found self g request.targetSourceId with
      | none => notFound writer requestHeader outputCapacity
      | some s => s.answer writer request requestHeader outputCapacity := by
  rw [buildTargetedResponse, found]
  cases target self g request.targetSourceId with
  | none => rfl
  | some d =>
    rw [Option.map_some]
    exact targetedAnswer_some writer request requestHeader outputCapacity d

/-! ## Caches that answer alike -/

/-- No response tells the two caches apart. -/
structure SameAnswers (g g' : Cache) : Prop where
  enumeration : ∀ writer self index requestHeader outputCapacity,
    buildEnumerationResponse writer self g index requestHeader outputCapacity =
      buildEnumerationResponse writer self g' index requestHeader outputCapacity
  targeted : ∀ writer self request requestHeader outputCapacity,
    (buildTargetedResponse writer self g request requestHeader outputCapacity).2 =
      (buildTargetedResponse writer self g' request requestHeader outputCapacity).2

theorem usedEntries_shown (g : Cache) :
    (usedEntries g).map Entry.shown =
      (List.finRange kCapacity).filterMap fun i => (g.entries i).view := by
  rw [usedEntries, List.filter_map, List.map_map, ← List.filterMap_eq_map', List.filterMap_filter]
  rfl

theorem findEntry_shown (g : Cache) (s : UInt32) :
    (findEntry g s).map Entry.shown =
      ((List.finRange kCapacity).filterMap fun i => (g.entries i).view).find?
        fun shown => shown.sourceId == s := by
  have hview : ∀ i, (g.entries i).view.any (fun shown => shown.sourceId == s) =
      ((g.entries i).used && (g.entries i).sourceId == s) := by
    intro i
    rw [Entry.view]
    split
    · rename_i hused
      rw [hused, Option.any_some, Bool.true_and]
      rfl
    · rename_i hused
      rw [Bool.eq_false_of_not_eq_true hused, Option.any_none, Bool.false_and]
  rw [List.find?_filterMap]
  simp only [hview]
  rw [findEntry, entrySlot, SlotTable.first, Option.map_map]
  cases hfind : (List.finRange kCapacity).find? fun i =>
      (g.entries i).used && (g.entries i).sourceId == s with
  | none => rfl
  | some i =>
    have hused := List.find?_some hfind
    rw [Bool.and_eq_true] at hused
    rw [Option.map_some, Option.bind_some, Entry.view, if_pos hused.1]
    rfl

variable {g g' : Cache}

theorem catalog_congr (h : ∀ i, (g.entries i).view = (g'.entries i).view) :
    catalog g = catalog g' := by
  simp only [catalog, usedEntries_shown, h]

theorem sameAnswers_of_view (h : ∀ i, (g.entries i).view = (g'.entries i).view)
    (huuid : g.selfUuid = g'.selfUuid) (hinfo : g.selfSourceInfo = g'.selfSourceInfo) :
    SameAnswers g g' := by
  have hself : ∀ self, selfDescribed self g = selfDescribed self g' := by
    intro self
    rw [selfDescribed, selfDescribed, ownDescribed, ownDescribed, huuid, hinfo]
  constructor
  · intro writer self index requestHeader outputCapacity
    rw [buildEnumerationResponse_eq, buildEnumerationResponse_eq, listing, listing, hself,
      catalog_congr h, length_catalog, length_catalog, catalog_congr h]
  · intro writer self request requestHeader outputCapacity
    have hfound : found self g request.targetSourceId = found self g' request.targetSourceId := by
      simp only [found_eq, hself, findEntry_shown, h]
    rw [buildTargetedResponse_eq, buildTargetedResponse_eq, hfound]

end BallyDongle.ManifestCache
