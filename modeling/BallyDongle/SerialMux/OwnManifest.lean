import BallyDongle.ManifestCache.Budgets
import BallyDongle.SerialMux.Egress

/-!
# The dongle's own manifest in one frame

A response about the dongle holds its head and name (76 octets), its block and the
records of its three topics (1741 octets). A frame carries `kOutboundPayloadCap`
octets of payload, and the writer leaves out whole records that do not fit, so the
block may have 231 octets at most (`own_manifest_complete_iff`); its buffer has 256.
-/

namespace BallyDongle.SerialMux

open Btp ManifestCache

/-- The response is there and has the records of all three topics. -/
def CompleteManifest (reader : ManifestReader) (out : Option Bytes) : Prop :=
  ∃ payload header topics actions, out = some payload ∧ reader.header payload = .ok header ∧
    header.topicCount = 3 ∧ reader.rawRecords payload = .ok (topics, actions) ∧
    topics.octets payload = DonglePublisher.topicRecords.1

/-- A request for the dongle's own description: not for another boot of it, nor from a
client that has its revision. -/
structure AsksSelf (request : ManifestRequest) (own : ManifestCache.Identity) : Prop where
  source : request.targetSourceId = own.sourceId
  boot : request.targetBootId = 0 ∨ request.targetBootId = own.bootId
  revision : request.knownConfigRevision = 0 ∨ request.knownConfigRevision ≠ kSelfConfigRevision

section own

variable {reader : ManifestReader} {writer : ManifestWriter} {g : Cache} {self : ManifestCache.Identity}
  {info : Bytes} {requestHeader : Header} {request : ManifestRequest}

theorem enumeration_self (writer : ManifestWriter) (self : ManifestCache.Identity) (g : Cache)
    (requestHeader : Header) (outputCapacity : Nat) :
    buildEnumerationResponse writer self g 0 requestHeader outputCapacity =
      (selfDescribed self g).shown.write writer requestHeader (place 0 (enumerationCount g))
        outputCapacity := by
  rw [buildEnumerationResponse_eq, listing, List.getElem?_cons_zero, Option.bind_some]

theorem targeted_self (writer : ManifestWriter) (g : Cache) (hasks : AsksSelf request self)
    (requestHeader : Header) (outputCapacity : Nat) :
    (buildTargetedResponse writer self g request requestHeader outputCapacity).2 =
      (selfDescribed self g).shown.write writer requestHeader (single kStatusSuccess 0 kErrorNone)
        outputCapacity := by
  have hboot : ¬(request.targetBootId ≠ 0 ∧ request.targetBootId ≠ self.bootId) := by
    rintro ⟨h0, hne⟩
    exact hasks.boot.elim h0 hne
  have hrevision :
      ¬(request.knownConfigRevision ≠ 0 ∧ request.knownConfigRevision = kSelfConfigRevision) := by
    rintro ⟨h0, heq⟩
    exact hasks.revision.elim h0 fun hne => hne heq
  rw [buildTargetedResponse_eq, found_eq, if_pos hasks.source]
  exact (if_neg hboot).trans (if_neg hrevision)

/-- The dongle's block, as it is configured. -/
theorem ownBlock_of_config (hblock : IsSourceInfo reader info) (hmin : 2 ≤ info.length)
    (hmax : info.length ≤ kDongleSourceInfoSize) (hself : g.selfSourceInfo = some info) :
    OwnBlock reader g := by
  intro block hmem
  rw [hself] at hmem
  cases hmem
  exact ⟨hblock, hmin, hmax⟩

theorem configure_selfSourceInfo {selfUuid : Option (Vector UInt8 16)} (h : 2 ≤ info.length) :
    (configure g selfUuid (some info)).selfSourceInfo = some info := by
  simp [configure, h]

theorem length_selfName : (cString (literal kSelfName)).length = 16 := by decide

/-- A response about the dongle is complete just when everything fits. -/
theorem complete_write_iff (laws : WriterLaws reader writer) (hwhole : WholePayload reader)
    (hwithin : WithinBuffer writer) (hown : OwnBlock reader g) (hself : g.selfSourceInfo = some info)
    (answer : Answer) (hstatus : answer.status = kStatusSuccess) (herror : answer.errorCode = kErrorNone) :
    CompleteManifest reader ((selfDescribed self g).shown.write writer requestHeader answer
        kOutboundPayloadCap) ↔
      info.length ≤ 231 := by
  obtain ⟨rs, hrs, hcount, htotal⟩ := DonglePublisher.topicRecords_records
  have hservable := hown.servable self
  have htopics : (selfDescribed self g).shown.topics = DonglePublisher.topicRecords.1 :=
    ownDescribed_topics
  have hactions : (selfDescribed self g).shown.actions = [] := ownDescribed_actions
  have hinfo : (selfDescribed self g).shown.info = some info := by
    rw [← hself]
    exact ownDescribed_info hown
  have hname : (selfDescribed self g).shown.name.length = 16 := length_selfName
  have hlen := DonglePublisher.length_topicRecords
  have hts : Records (selfDescribed self g).shown.topics rs := htopics ▸ hrs
  have has : Records (selfDescribed self g).shown.actions [] := by
    rw [hactions]
    exact ⟨rfl, nofun, by decide⟩
  have hthree : rs.length = 3 := hcount.trans htotal
  constructor
  · rintro ⟨payload, header, topics, actions, hout, hheader, -, hruns, hall⟩
    obtain ⟨ts', as', -, -, hcarries, -⟩ := hservable.carries laws hstatus herror hts has hout
    -- what the reader finds in the payload is what was written
    obtain ⟨t, a, hruns', htaken, -⟩ := hcarries.runs
    cases hruns.symm.trans hruns'
    have hfit := hwithin _ _ _ _ _ _ hout
    have hsize := hwhole _ _ _ _ _ hcarries
    rw [hinfo, Option.getD_some, ← htaken, hall, hlen] at hsize
    have hheadname : ((Shown.header requestHeader answer (selfDescribed self g).shown).withCounts
        ts'.length as'.length).sourceName.length = 16 := hname
    rw [hheadname, kManifestHeadSize] at hsize
    rw [kOutboundPayloadCap] at hfit
    omega
  · intro hle
    have hroom : kManifestHeadSize + (selfDescribed self g).shown.name.length +
        ((selfDescribed self g).shown.info.getD kEmptySourceInfo).length +
        (selfDescribed self g).shown.topics.length + (selfDescribed self g).shown.actions.length ≤
          kOutboundPayloadCap := by
      rw [hname, hinfo, htopics, hactions, hlen, Option.getD_some, List.length_nil, kManifestHeadSize,
        kOutboundPayloadCap]
      omega
    have hfront : kManifestHeadSize + (selfDescribed self g).shown.name.length +
        ((selfDescribed self g).shown.info.getD kEmptySourceInfo).length ≤ kOutboundPayloadCap := by
      omega
    obtain ⟨payload, hout⟩ := Option.isSome_iff_exists.1
      (hservable.write_isSome laws requestHeader hstatus herror hfront)
    obtain ⟨ts', as', -, -, hcarries, hall⟩ := hservable.carries laws hstatus herror hts has hout
    obtain ⟨htall, -⟩ := hall hroom
    obtain ⟨t, a, hruns, htaken, -⟩ := hcarries.runs
    refine ⟨payload, _, t, a, hout, hcarries.header, ?_, hruns, ?_⟩
    · show ts'.length.toUInt16 = 3
      rw [htall, hthree]
      rfl
    · rw [htaken, htall, ← hts.run_eq, htopics]

/-- Both responses about the dongle are complete just when its block has at most 231
octets. -/
theorem own_manifest_complete_iff (laws : WriterLaws reader writer) (hwhole : WholePayload reader)
    (hwithin : WithinBuffer writer) (hblock : IsSourceInfo reader info) (hmin : 2 ≤ info.length)
    (hmax : info.length ≤ kDongleSourceInfoSize) (hself : g.selfSourceInfo = some info)
    (hasks : AsksSelf request self) (requestHeader : Header) :
    (CompleteManifest reader
        (buildEnumerationResponse writer self g 0 requestHeader kOutboundPayloadCap) ∧
      CompleteManifest reader
        (buildTargetedResponse writer self g request requestHeader kOutboundPayloadCap).2) ↔
      info.length ≤ 231 := by
  have hown := ownBlock_of_config hblock hmin hmax hself
  rw [enumeration_self, targeted_self writer g hasks,
    complete_write_iff laws hwhole hwithin hown hself _ rfl rfl,
    complete_write_iff laws hwhole hwithin hown hself _ rfl rfl, and_self]

end own

/-- A client that asks for the dongle's own description, and its frame. -/
def firstAsk : ManifestRequest :=
  { targetSourceId := 7, targetBootId := 0, knownConfigRevision := 0 }

def firstHeader : Header :=
  { type := .control, sourceId := 9, bootId := 1, sequence := 1, objectId := 3 }

/-- Both responses, with this block configured. -/
def OwnComplete (info : Bytes) : Prop :=
  CompleteManifest Layout.reader (buildEnumerationResponse Layout.writer { sourceId := 7, bootId := 1 }
      (configure {} none (some info)) 0 firstHeader kOutboundPayloadCap) ∧
    CompleteManifest Layout.reader (buildTargetedResponse Layout.writer { sourceId := 7, bootId := 1 }
      (configure {} none (some info)) firstAsk firstHeader kOutboundPayloadCap).2

/-- Without entries of its own the dongle shows all three topics. -/
theorem own_manifest_complete_empty :
    OwnComplete kEmptySourceInfo ↔ kEmptySourceInfo.length ≤ 231 :=
  own_manifest_complete_iff Layout.writer_laws Layout.reader_whole Layout.writer_within (.inl rfl)
    (by decide) (by decide) rfl ⟨rfl, .inl rfl, .inl rfl⟩ firstHeader

theorem isSourceInfo_oneValue : IsSourceInfo Layout.reader (oneValue 248) :=
  .inr ⟨by rw [length_oneValue]; omega, describedWith (oneValue 248), by decide +kernel⟩

/-- A block as large as its buffer costs the dongle a topic. -/
theorem full_block_incomplete :
    ¬∀ info, IsSourceInfo Layout.reader info → 2 ≤ info.length →
      info.length ≤ kDongleSourceInfoSize → OwnComplete info := by
  intro h
  have hlen := length_oneValue 248
  have hmin : 2 ≤ (oneValue 248).length := by omega
  have hmax : (oneValue 248).length ≤ kDongleSourceInfoSize := by
    simp only [kDongleSourceInfoSize]
    omega
  have hself : (configure {} none (some (oneValue 248))).selfSourceInfo = some (oneValue 248) :=
    configure_selfSourceInfo hmin
  have hown := ownBlock_of_config isSourceInfo_oneValue hmin hmax hself
  obtain ⟨hcomplete, -⟩ := h (oneValue 248) isSourceInfo_oneValue hmin hmax
  rw [enumeration_self] at hcomplete
  have hle := (complete_write_iff Layout.writer_laws Layout.reader_whole Layout.writer_within hown
    hself _ rfl rfl).1 hcomplete
  omega

end BallyDongle.SerialMux
