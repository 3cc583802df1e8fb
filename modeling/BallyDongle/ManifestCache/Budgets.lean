import BallyDongle.ManifestCache.Verbatim

/-!
# Answers beyond the budget of the cache

An entry has room for so many octets of records and so many of source_info. The
header promises that a larger block costs a robot its block only;
`ingest_caches_iff` says that it costs the whole answer.
-/

namespace BallyDongle.ManifestCache

open Btp

/-- A full answer about some robot, with records an entry has room for. -/
structure FullAnswer (reader : ManifestReader) (payload : Bytes) (header : ManifestHeader)
    (info : Bytes) (topics actions : ByteView) : Prop where
  readsHeader : reader.header payload = .ok header
  success : header.status = kResultSuccess
  full : header.flags &&& kManifestNotModified = 0
  source : header.describedSourceId ≠ 0
  boot : header.describedBootId ≠ 0
  readsInfo : reader.rawSourceInfo payload = .ok info
  readsRuns : reader.rawRecords payload = .ok (topics, actions)
  records : topics.size + actions.size ≤ kMaxRecordsBytes

/-- The block as the header says it is kept: verbatim, or not at all. -/
def documentedInfo (info : Bytes) : Bytes :=
  if info.length ≤ kMaxSourceInfoBytes then servedInfo info else kEmptySourceInfo

/-- The answer is accepted, and the entry of its robot has its records, and its block
as documented. -/
structure Caches (reader : ManifestReader) (g : Cache) (payload : Bytes) (nowMs : UInt32)
    (header : ManifestHeader) (info : Bytes) (topics actions : ByteView) : Prop where
  accepted : (ingestManifestData reader g payload nowMs).2 = true
  cached : ∃ entry,
    findEntry (ingestManifestData reader g payload nowMs).1 header.describedSourceId = some entry ∧
      entry.shown.topics = topics.octets payload ∧ entry.shown.actions = actions.octets payload ∧
        entry.shown.info = some (documentedInfo info)

section full

variable {reader : ManifestReader} {payload : Bytes} {header : ManifestHeader} {info : Bytes}
  {topics actions : ByteView} {g : Cache} {nowMs : UInt32}

/-- What the checks make of a full answer: the block's size alone decides. -/
theorem readDescriptor_full (h : FullAnswer reader payload header info topics actions) :
    readDescriptor reader payload =
      if info.length ≤ kMaxSourceInfoBytes then
        some { header, info := servedInfo info, topics, actions }
      else none := by
  have hrecords := h.records
  simp only [readDescriptor, h.readsHeader, h.readsInfo, h.readsRuns, Except.toOption,
    Option.bind_eq_bind, Option.bind_some]
  by_cases hinfo : info.length ≤ kMaxSourceInfoBytes
  · simp [guard, hinfo, hrecords, h.success, h.full, h.source, h.boot, servedInfo]
  · have hblock : 2 ≤ info.length := by
      rw [kMaxSourceInfoBytes] at hinfo
      omega
    simp [guard, hinfo, hblock, h.success, h.source, h.boot]

theorem findEntry_ingested {d : Descriptor} (hinv : Inv g) (hd : Accepts reader g payload d) :
    findEntry (ingestManifestData reader g payload nowMs).1 d.header.describedSourceId =
      some ((store g d payload nowMs).entries
        (findOrAllocateEntry g d.header.describedSourceId)) := by
  rw [ingest_of_accepts hd]
  show (entrySlot (store g d payload nowMs) _).map _ = _
  rw [entrySlot_eq, (store_distinct hinv.entries d payload nowMs).find_eq_some.2
    ((store_key_iff hinv d payload nowMs _).2 rfl)]
  rfl

theorem caches_of_small (laws : ReaderLaws reader) (hinv : Inv g)
    (h : FullAnswer reader payload header info topics actions)
    (hinfo : info.length ≤ kMaxSourceInfoBytes) :
    Caches reader g payload nowMs header info topics actions := by
  have hread := readDescriptor_full h
  rw [if_pos hinfo] at hread
  have hfull : Descriptor.notModified { header, info := servedInfo info, topics, actions } = false := by
    rw [Descriptor.notModified, h.full]
    rfl
  have hd : Accepts reader g payload { header, info := servedInfo info, topics, actions } :=
    ⟨hread, fun hnot => by rw [hfull] at hnot; cases hnot⟩
  refine ⟨by rw [ingest_of_accepts hd], _, findEntry_ingested hinv hd, ?_⟩
  rw [store_slot laws hd hfull, documentedInfo, if_pos hinfo]
  exact ⟨rfl, rfl, rfl⟩

/-- A full answer leaves the catalog as the header says just when its block has at most
`kMaxSourceInfoBytes` octets. -/
theorem ingest_caches_iff {writer : ManifestWriter} (laws : ReaderLaws reader) (ops : List Op)
    (nowMs : UInt32) (h : FullAnswer reader payload header info topics actions) :
    Caches reader (run reader writer ops) payload nowMs header info topics actions ↔
      info.length ≤ kMaxSourceInfoBytes := by
  constructor
  · intro hcaches
    obtain ⟨d, hd, -⟩ := ingest_accepted hcaches.accepted
    have hread := hd.read
    rw [readDescriptor_full h, Option.ite_none_right_eq_some] at hread
    exact hread.1
  · exact caches_of_small laws (run_inv ops) h

end full

/-! ## A block beyond the budget -/

/-- A block of one entry, with neither key nor label and a value of `length` octets. -/
def oneValue (length : Nat) : Bytes :=
  le16 1 ++ (le16 0 ++ (le16 0 ++ (le16 length.toUInt16 ++ List.replicate length 0x20)))

theorem length_oneValue (length : Nat) : (oneValue length).length = 8 + length := by
  simp [oneValue, le16]
  omega

/-- The head of a robot with one topic. -/
def describedRobot : ManifestHeader :=
  { request := { requestSourceId := 7, requestBootId := 1, replyToSequence := 1 }
    status := 0, flags := 0, errorCode := 0, manifestFormatVersion := 3, configRevision := 5
    sourceUuid := Vector.replicate 16 0xAA, describedSourceId := 9, describedBootId := 1
    sourceRole := 1, sourceFlags := 1, catalogIndex := 0, catalogCount := 1
    topicCount := 1, sourceName := literal "robot" }

def describedWith (info : Bytes) : Bytes :=
  Layout.finished describedRobot info [[2, 0, 0, 0, 1, 2]] []

theorem full_of_read {info : Bytes} {topics actions : ByteView}
    (hheader : Layout.reader.header (describedWith info) = .ok describedRobot)
    (hinfo : Layout.reader.rawSourceInfo (describedWith info) = .ok info)
    (hruns : Layout.reader.rawRecords (describedWith info) = .ok (topics, actions))
    (hsize : topics.size + actions.size ≤ kMaxRecordsBytes) :
    FullAnswer Layout.reader (describedWith info) describedRobot info topics actions where
  readsHeader := hheader
  success := rfl
  full := by decide
  source := by decide
  boot := by decide
  readsInfo := hinfo
  readsRuns := hruns
  records := hsize

/-- A value of ten octets is kept. -/
theorem ingest_caches_ten :
    Caches Layout.reader (run Layout.reader Layout.writer []) (describedWith (oneValue 10)) 1000
        describedRobot (oneValue 10) ⟨83, 6⟩ ⟨89, 0⟩ ↔
      (oneValue 10).length ≤ kMaxSourceInfoBytes :=
  ingest_caches_iff Layout.reader_laws [] 1000
    (full_of_read (by decide +kernel) (by decide +kernel) (by decide +kernel) (by decide))

/-- With a block of 516 octets the robot's topic is lost too. -/
theorem oversized_block :
    ¬∀ payload nowMs header info topics actions,
      FullAnswer Layout.reader payload header info topics actions →
        Caches Layout.reader {} payload nowMs header info topics actions := by
  intro h
  have hcaches := h (describedWith (oneValue 508)) 1000 describedRobot (oneValue 508) ⟨581, 6⟩ ⟨587, 0⟩
    (full_of_read (by decide +kernel) (by decide +kernel) (by decide +kernel) (by decide))
  have hrefused : (ingestManifestData Layout.reader {} (describedWith (oneValue 508)) 1000).2 = false := by
    decide +kernel
  rw [hcaches.accepted] at hrefused
  cases hrefused

end BallyDongle.ManifestCache
