import BallyDongle.ManifestCache.Catalog

/-!
# Ingest, then serve

What a full answer says of its source is what both builders say of it next:
the same head, block and records, and of the records as many as there is room
for (`ingest_then_serve`).
-/

namespace BallyDongle.ManifestCache

open Btp

/-- The block that stands for a source: its own, or the empty one. -/
def servedInfo (info : Bytes) : Bytes := if 2 ≤ info.length then info else kEmptySourceInfo

/-- What an answer about a source repeats of the head that described it. -/
structure SameSource (described answered : ManifestHeader) : Prop where
  status : answered.status = kResultSuccess
  full : answered.flags &&& kManifestNotModified = 0
  sourceId : answered.describedSourceId = described.describedSourceId
  bootId : answered.describedBootId = described.describedBootId
  configRevision : answered.configRevision = described.configRevision
  uuid : answered.sourceUuid = described.sourceUuid
  role : answered.sourceRole = described.sourceRole
  online : answered.sourceFlags &&& kSourceOnline = described.sourceFlags &&& kSourceOnline
  name : answered.sourceName = cutName described.sourceName

/-- A builder, by the capacity it is given, repeats what a payload described: all
of it when there is room, else a prefix of the records and their numbers. -/
structure ServesVerbatim (reader : ManifestReader) (described : ManifestHeader)
    (info topics actions : Bytes) (respond : (outputCapacity : Nat) → Option Bytes) : Prop where
  whole : ∀ outputCapacity,
    kManifestHeadSize + (cutName described.sourceName).length + info.length + topics.length +
      actions.length ≤ outputCapacity →
    ∃ out answered, respond outputCapacity = some out ∧
      Carries reader out answered info topics actions ∧ SameSource described answered ∧
      answered.topicCount = described.topicCount ∧ answered.actionCount = described.actionCount
  cut : ∀ outputCapacity out, respond outputCapacity = some out →
    ∃ answered ts as ts' as', Records topics ts ∧ Records actions as ∧ ts' <+: ts ∧ as' <+: as ∧
      Carries reader out answered info ts'.flatten as'.flatten ∧ SameSource described answered ∧
      answered.topicCount.toNat = ts'.length ∧ answered.actionCount.toNat = as'.length

/-- A targeted request that does not name another boot, nor the revision cached. -/
structure Asks (request : ManifestRequest) (described : ManifestHeader) : Prop where
  source : request.targetSourceId = described.describedSourceId
  boot : request.targetBootId = 0 ∨ request.targetBootId = described.describedBootId
  revision : request.knownConfigRevision = 0 ∨
    request.knownConfigRevision ≠ described.configRevision

/-- Both builders repeat, of a cached source, what a payload described. -/
structure ServedFrom (reader : ManifestReader) (writer : ManifestWriter) (self : Identity)
    (g : Cache) (described : ManifestHeader) (info topics actions : Bytes) : Prop where
  targeted : ∀ request requestHeader, Asks request described →
    ServesVerbatim reader described info topics actions fun outputCapacity =>
      (buildTargetedResponse writer self g request requestHeader outputCapacity).2
  /-- at the one index of the source -/
  enumeration : ∃ index,
    (∀ k, (ids g)[k]? = some described.describedSourceId ↔ k + 1 = index) ∧
    ∀ requestHeader, ServesVerbatim reader described info topics actions
      (buildEnumerationResponse writer self g index requestHeader)

section write

variable {reader : ManifestReader} {writer : ManifestWriter} {payload : Bytes} {d : Descriptor}

/-- The online bit survives being read into a Boolean. -/
theorem online_bit (flags : UInt8) :
    (if decide (flags &&& kSourceOnline ≠ 0) then kSourceOnline else 0) &&& kSourceOnline =
      flags &&& kSourceOnline := by
  have hbit : flags &&& kSourceOnline = 0 ∨ flags &&& kSourceOnline = 1 := by
    rw [← UInt8.toNat_inj, ← UInt8.toNat_inj, UInt8.toNat_and]
    show flags.toNat &&& 1 = 0 ∨ flags.toNat &&& 1 = 1
    rw [Nat.and_one_is_mod]
    omega
  by_cases h : flags &&& kSourceOnline ≠ 0
  · rw [if_pos (decide_eq_true h), hbit.resolve_left h]
    rfl
  · rw [if_neg (by simpa using h), not_not.1 h]
    rfl

/-- The head of a response about what a payload described. -/
theorem sameSource (d : Descriptor) (payload : Bytes) (requestHeader : Header) {answer : Answer}
    (hstatus : answer.status = kStatusSuccess) (hflags : answer.flags &&& kManifestNotModified = 0)
    (topics actions : Nat) :
    SameSource d.header
      (((d.shown payload).header requestHeader answer).withCounts topics actions) where
  status := hstatus
  full := hflags
  sourceId := rfl
  bootId := rfl
  configRevision := rfl
  uuid := rfl
  role := rfl
  online := online_bit d.header.sourceFlags
  name := rfl

theorem toNat_toUInt16 {n : Nat} (h : n < 2 ^ 16) : n.toUInt16.toNat = n :=
  UInt16.toNat_ofNat_of_lt' h

/-- Any answer of success about what a payload described repeats it. -/
theorem serves_of_write (laws : ReaderLaws reader) (wlaws : WriterLaws reader writer)
    (hd : d.Valid reader payload) (requestHeader : Header) {answer : Answer}
    (hstatus : answer.status = kStatusSuccess) (herror : answer.errorCode = kErrorNone)
    (hflags : answer.flags &&& kManifestNotModified = 0) :
    ServesVerbatim reader d.header d.info (d.topics.octets payload) (d.actions.octets payload)
      fun outputCapacity => (d.shown payload).write writer requestHeader answer outputCapacity := by
  obtain ⟨ts, as, hts, has, htcount, hacount⟩ := hd.records laws
  have hs := hd.servable laws
  constructor
  · intro outputCapacity hcap
    have hroom : kManifestHeadSize + (d.shown payload).name.length +
        ((d.shown payload).info.getD kEmptySourceInfo).length ≤ outputCapacity := by
      show kManifestHeadSize + (cutName d.header.sourceName).length + d.info.length ≤ _
      omega
    obtain ⟨out, hout⟩ := Option.isSome_iff_exists.1
      (hs.write_isSome wlaws requestHeader hstatus herror hroom)
    obtain ⟨ts', as', -, -, hcarries, hall⟩ := hs.carries wlaws hstatus herror hts has hout
    obtain ⟨rfl, rfl⟩ := hall hcap
    refine ⟨out, ((d.shown payload).header requestHeader answer).withCounts ts'.length as'.length,
      hout, ?_, sameSource d payload requestHeader hstatus hflags _ _, ?_, ?_⟩
    · rw [← hts.run_eq, ← has.run_eq] at hcarries
      exact hcarries
    · show ts'.length.toUInt16 = d.header.topicCount
      rw [htcount]
      exact UInt16.ofNat_toNat
    · show as'.length.toUInt16 = d.header.actionCount
      rw [hacount]
      exact UInt16.ofNat_toNat
  · intro outputCapacity out hout
    obtain ⟨ts', as', htpre, hapre, hcarries, -⟩ := hs.carries wlaws hstatus herror hts has hout
    refine ⟨((d.shown payload).header requestHeader answer).withCounts ts'.length as'.length,
      ts, as, ts', as', hts, has, htpre, hapre, hcarries,
      sameSource d payload requestHeader hstatus hflags _ _, ?_, ?_⟩
    · exact toNat_toUInt16 (htpre.length_le.trans_lt hts.counted)
    · exact toNat_toUInt16 (hapre.length_le.trans_lt has.counted)

theorem readDescriptor_info {info : Bytes} (h : readDescriptor reader payload = some d)
    (hinfo : reader.rawSourceInfo payload = .ok info) : d.info = servedInfo info := by
  simp only [readDescriptor, Option.bind_eq_bind, Option.bind_eq_some_iff, Option.guard_eq_some',
    toOption_eq_some, Option.pure_def, Option.some.injEq] at h
  obtain ⟨header, -, -, -, -, -, raw, hraw, -, -, -, -, runs, -, -, -, rfl⟩ := h
  rw [hinfo] at hraw
  cases hraw
  rfl

end write

/-! ## The slot it is served from -/

section served

variable {reader : ManifestReader} {writer : ManifestWriter} {g : Cache} {payload : Bytes}
  {nowMs : UInt32} {d : Descriptor}

/-- The slot of a full answer shows what it described, under its id. -/
theorem store_slot (laws : ReaderLaws reader) (hd : Accepts reader g payload d)
    (hfull : d.notModified = false) :
    ((store g d payload nowMs).entries (findOrAllocateEntry g d.header.describedSourceId)).shown =
      d.shown payload := by
  rw [store_entry_self rfl, shown_ingest_full laws hd.valid hfull]

/-- What a targeted request finds after a full answer about a robot. -/
theorem found_stored (laws : ReaderLaws reader) (hinv : Inv g) (hd : Accepts reader g payload d)
    (hfull : d.notModified = false) {self : Identity}
    (hself : d.header.describedSourceId ≠ self.sourceId) :
    found self (store g d payload nowMs) d.header.describedSourceId = some (d.shown payload) := by
  have hdistinct := store_distinct hinv.entries d payload nowMs
  have hkey := (store_key_iff hinv d payload nowMs _).2 rfl
  have hslot : entrySlot (store g d payload nowMs) d.header.describedSourceId =
      some (findOrAllocateEntry g d.header.describedSourceId) := by
    rw [entrySlot_eq, hdistinct.find_eq_some]
    exact hkey
  rw [found_eq, if_neg hself, findEntry, hslot, Option.map_some, Option.map_some,
    store_slot laws hd hfull]

theorem answer_of_asks {request : ManifestRequest} (hasks : Asks request d.header)
    (requestHeader : Header) (outputCapacity : Nat) :
    (d.shown payload).answer writer request requestHeader outputCapacity =
      (d.shown payload).write writer requestHeader (single kStatusSuccess 0 kErrorNone)
        outputCapacity := by
  have hboot : ¬(request.targetBootId ≠ 0 ∧ request.targetBootId ≠ d.header.describedBootId) := by
    rintro ⟨h0, hne⟩
    exact hasks.boot.elim h0 hne
  have hrevision : ¬(request.knownConfigRevision ≠ 0 ∧
      request.knownConfigRevision = d.header.configRevision) := by
    rintro ⟨h0, heq⟩
    exact hasks.revision.elim h0 fun hne => hne heq
  rw [Shown.answer]
  exact (if_neg hboot).trans (if_neg hrevision)

theorem targeted_verbatim (laws : ReaderLaws reader) (wlaws : WriterLaws reader writer)
    (hinv : Inv g) (hd : Accepts reader g payload d) (hfull : d.notModified = false)
    {self : Identity} (hself : d.header.describedSourceId ≠ self.sourceId)
    {request : ManifestRequest} (hasks : Asks request d.header) (requestHeader : Header) :
    ServesVerbatim reader d.header d.info (d.topics.octets payload) (d.actions.octets payload)
      fun outputCapacity =>
        (buildTargetedResponse writer self (store g d payload nowMs) request requestHeader
          outputCapacity).2 := by
  have hresponse : ∀ outputCapacity,
      (buildTargetedResponse writer self (store g d payload nowMs) request requestHeader
        outputCapacity).2 =
      (d.shown payload).write writer requestHeader (single kStatusSuccess 0 kErrorNone)
        outputCapacity := by
    intro outputCapacity
    rw [buildTargetedResponse_eq, hasks.source, found_stored laws hinv hd hfull hself]
    exact answer_of_asks hasks requestHeader outputCapacity
  simp only [hresponse]
  exact serves_of_write laws wlaws hd.valid requestHeader rfl rfl (by decide)

theorem place_flags (index total : Nat) :
    (place index total).flags &&& kManifestNotModified = 0 := by
  rw [place]
  dsimp only
  split <;> decide

theorem enumeration_verbatim (laws : ReaderLaws reader) (wlaws : WriterLaws reader writer)
    (hinv : Inv g) (hd : Accepts reader g payload d) (hfull : d.notModified = false)
    (self : Identity) :
    ∃ index,
      (∀ k, (ids (store g d payload nowMs))[k]? = some d.header.describedSourceId ↔
        k + 1 = index) ∧
      ∀ requestHeader,
        ServesVerbatim reader d.header d.info (d.topics.octets payload) (d.actions.octets payload)
          (buildEnumerationResponse writer self (store g d payload nowMs) index requestHeader) := by
  have hdistinct := store_distinct hinv.entries d payload nowMs
  obtain ⟨hused, hsource⟩ := Entry.key_eq_some.1 ((store_key_iff hinv d payload nowMs _).2 rfl)
  obtain ⟨index, hindex, hids⟩ := exists_index hdistinct self hused
  rw [store_slot laws hd hfull] at hindex
  rw [hsource] at hids
  refine ⟨index, hids, fun requestHeader => ?_⟩
  have hresponse : buildEnumerationResponse writer self (store g d payload nowMs) index
      requestHeader = fun outputCapacity => (d.shown payload).write writer requestHeader
        (place index (enumerationCount (store g d payload nowMs))) outputCapacity := by
    funext outputCapacity
    rw [buildEnumerationResponse_eq, hindex, Option.bind_some]
  rw [hresponse]
  exact serves_of_write laws wlaws hd.valid requestHeader rfl rfl (place_flags _ _)

end served

/-- Ingest, then serve, in every state the cache can reach. -/
theorem ingest_then_serve {reader : ManifestReader} {writer : ManifestWriter}
    (laws : ReaderLaws reader) (wlaws : WriterLaws reader writer) (ops : List Op)
    (self : Identity) (payload : Bytes) (nowMs : UInt32) {header : ManifestHeader} {info : Bytes}
    {topics actions : ByteView}
    (hok : (ingestManifestData reader (run reader writer ops) payload nowMs).2 = true)
    (hheader : reader.header payload = .ok header)
    (hfull : header.flags &&& kManifestNotModified = 0)
    (hself : header.describedSourceId ≠ self.sourceId)
    (hinfo : reader.rawSourceInfo payload = .ok info)
    (hruns : reader.rawRecords payload = .ok (topics, actions)) :
    ServedFrom reader writer self
      (ingestManifestData reader (run reader writer ops) payload nowMs).1 header (servedInfo info)
      (topics.octets payload) (actions.octets payload) := by
  obtain ⟨d, hd, hg⟩ := ingest_accepted hok
  have hinv : Inv (run reader writer ops) := run_inv ops
  -- what the payload says is what the checks read of it
  obtain rfl : header = d.header := by
    have hread := hd.valid.header
    rw [hheader] at hread
    cases hread
    rfl
  obtain ⟨rfl, rfl⟩ : topics = d.topics ∧ actions = d.actions := by
    have hread := hd.valid.runs
    rw [hruns] at hread
    cases hread
    exact ⟨rfl, rfl⟩
  have hnot : d.notModified = false := by
    rw [Descriptor.notModified, hfull]
    rfl
  rw [← readDescriptor_info hd.read hinfo, hg]
  exact ⟨fun _ requestHeader hasks =>
      targeted_verbatim laws wlaws hinv hd hnot hself hasks requestHeader,
    enumeration_verbatim laws wlaws hinv hd hnot self⟩

/-- A robot with one topic and no block. -/
theorem ingest_then_serve_robot :
    ∃ header : ManifestHeader, header.describedSourceId = 9 ∧ header.topicCount = 1 ∧
      ServedFrom Layout.reader Layout.writer { sourceId := 7, bootId := 1 }
        (ingestManifestData Layout.reader (run Layout.reader Layout.writer [])
          (Layout.robotAnswer 9 1 5 2 "robot" [[2, 0, 0, 0, 1, 2]]) 1000).1 header
        kEmptySourceInfo [2, 0, 0, 0, 1, 2] [] := by
  have hread : ∃ header, Layout.reader.header
        (Layout.robotAnswer 9 1 5 2 "robot" [[2, 0, 0, 0, 1, 2]]) = .ok header ∧
      header.describedSourceId = 9 ∧ header.topicCount = 1 ∧
        header.flags &&& kManifestNotModified = 0 := ⟨_, rfl, by decide, by decide, by decide⟩
  obtain ⟨header, hheader, hsource, hcount, hfull⟩ := hread
  have hserved := ingest_then_serve Layout.reader_laws Layout.writer_laws []
    { sourceId := 7, bootId := 1 } _ 1000 (by decide) hheader hfull (by rw [hsource]; decide) rfl
    (show Layout.reader.rawRecords _ = .ok (⟨67, 6⟩, ⟨73, 0⟩) by decide)
  exact ⟨header, hsource, hcount, hserved⟩

end BallyDongle.ManifestCache
