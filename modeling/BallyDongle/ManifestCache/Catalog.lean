import BallyDongle.ManifestCache.Run

/-!
# What a catalog lists

An enumeration lists the cached robots by their ids. In a table that holds no id
twice the ids of a catalog strictly increase, so each robot has one index. What
was ingested can be written again (`Servable`): the writer takes its head and
its block, and its runs are whole records.
-/

namespace BallyDongle.ManifestCache

open Btp

/-! ## Order -/

/-- The ids of the cached robots, in the order of their indices. -/
def ids (g : Cache) : List UInt32 := (collectSortedEntries g).map Entry.sourceId

theorem ids_eq_catalog (g : Cache) : ids g = (catalog g).map Shown.sourceId := by
  rw [← collectSortedEntries_shown, List.map_map]
  rfl

theorem usedEntries_sourceId (g : Cache) :
    (usedEntries g).map Entry.sourceId = SlotTable.keys Entry.key g.entries := by
  rw [usedEntries, List.filter_map, List.map_map, ← List.filterMap_eq_map', List.filterMap_filter]
  rfl

theorem ids_eq (g : Cache) :
    ids g = (SlotTable.keys Entry.key g.entries).insertionSort (· ≤ ·) := by
  rw [ids, ← usedEntries_sourceId]
  exact List.map_insertionSort _ _ _ _ fun _ _ _ _ => Iff.rfl

theorem ids_perm (g : Cache) : (ids g).Perm (SlotTable.keys Entry.key g.entries) := by
  rw [ids_eq]
  exact List.perm_insertionSort _ _

theorem length_ids (g : Cache) : enumerationCount g = 1 + (ids g).length := by
  rw [length_catalog, ids_eq_catalog, List.length_map]

theorem mem_ids {g : Cache} {s : UInt32} : s ∈ ids g ↔ ∃ i, (g.entries i).key = some s := by
  rw [(ids_perm g).mem_iff, SlotTable.mem_keys]

theorem mem_catalog {g : Cache} {shown : Shown} :
    shown ∈ catalog g ↔ ∃ i, (g.entries i).used = true ∧ (g.entries i).shown = shown := by
  rw [catalog, List.mem_insertionSort, usedEntries, List.mem_map]
  constructor
  · rintro ⟨e, he, rfl⟩
    obtain ⟨⟨i, -, rfl⟩, hused⟩ := List.mem_filter.1 he |>.imp List.mem_map.1 id
    exact ⟨i, hused, rfl⟩
  · rintro ⟨i, hused, rfl⟩
    exact ⟨g.entries i, List.mem_filter.2 ⟨List.mem_map_of_mem (List.mem_finRange i), hused⟩, rfl⟩

theorem length_ids_le (g : Cache) : (ids g).length ≤ kCapacity := by
  rw [(ids_perm g).length_eq]
  exact SlotTable.length_keys_le

theorem ids_sorted {g : Cache} (hd : SlotTable.Distinct Entry.key g.entries) :
    (ids g).Pairwise (· < ·) := by
  have hle : (ids g).Pairwise (· ≤ ·) := by
    rw [ids, List.pairwise_map]
    exact List.pairwise_insertionSort _ _
  have hne : (ids g).Pairwise (· ≠ ·) := (ids_perm g).nodup_iff.2 hd.nodup_keys
  exact (hle.and hne).imp fun ⟨hle, hne⟩ => UInt32.lt_of_le_of_ne hle hne

/-- A cached robot has one index, at which the listing shows it. -/
theorem exists_index {g : Cache} (hd : SlotTable.Distinct Entry.key g.entries) (self : Identity)
    {i : Fin kCapacity} (hused : (g.entries i).used = true) :
    ∃ index, (listing self g)[index]? = some (g.entries i).shown ∧
      ∀ k, (ids g)[k]? = some (g.entries i).sourceId ↔ k + 1 = index := by
  obtain ⟨n, hn⟩ := List.mem_iff_getElem?.1 (mem_catalog.2 ⟨i, hused, rfl⟩)
  have hid : (ids g)[n]? = some (g.entries i).sourceId := by
    rw [ids_eq_catalog, List.getElem?_map, hn]
    rfl
  refine ⟨n + 1, by rw [listing, List.getElem?_cons_succ, hn], fun k => ?_⟩
  rw [Nat.add_right_cancel_iff, ← hid]
  constructor
  · intro hk
    have hlt : k < (ids g).length := by
      rw [hid] at hk
      exact (List.getElem?_eq_some_iff.1 hk).1
    exact (List.getElem?_inj hlt ((ids_perm g).nodup_iff.2 hd.nodup_keys)).1 hk
  · rintro rfl
    rfl

/-! ## Writing it again -/

/-- A source the writer can write about. -/
structure Servable (reader : ManifestReader) (s : Shown) : Prop where
  describes : ∀ requestHeader answer, answer.status = kStatusSuccess →
    answer.errorCode = kErrorNone → Describes reader (s.header requestHeader answer)
  info : ∀ block, s.info = some block → IsSourceInfo reader block
  topics : ∃ ts, Records s.topics ts
  actions : ∃ as, Records s.actions as
  name_le : s.name.length ≤ kMaxNameLength
  info_le : (s.info.getD kEmptySourceInfo).length ≤ kMaxSourceInfoBytes

section servable

variable {reader : ManifestReader} {payload : Bytes} {d : Descriptor}

theorem length_cutName_le (name : Bytes) : (cutName name).length ≤ kMaxNameLength := by
  have hhex := (List.takeWhile_prefix (l := name.take kMaxNameLength) (· != 0)).length_le
  rw [List.length_take] at hhex
  rw [cutName, cString]
  omega

theorem Descriptor.Valid.isSourceInfo (hd : d.Valid reader payload) :
    IsSourceInfo reader d.info := by
  rcases hd.info with h | h
  · exact .inl h
  · exact .inr ⟨hd.info_ge, payload, h⟩

/-- The head of a response about a source, under the name some payload gave it. -/
theorem Descriptor.Valid.describes {payload' : Bytes} {named : ManifestHeader}
    (hd : d.Valid reader payload) (hnamed : reader.header payload' = .ok named)
    (topics actions : Bytes) (requestHeader : Header) {answer : Answer}
    (hstatus : answer.status = kStatusSuccess) (herror : answer.errorCode = kErrorNone) :
    Describes reader (Shown.header requestHeader answer
      { d.shown payload with name := cutName named.sourceName, topics, actions }) := by
  have hrelayed := Describes.relayed (n := kMaxNameLength)
    { requestSourceId := requestHeader.sourceId, requestBootId := requestHeader.bootId
      replyToSequence := requestHeader.sequence } answer.flags
    (if (d.shown payload).online then kSourceOnline else 0) answer.catalogIndex
    answer.catalogCount hd.header hd.success hnamed
  rw [hd.success] at hrelayed
  rw [Shown.header, hstatus, herror]
  exact hrelayed

/-- Both runs of a payload are whole records, as many as its head counts. -/
theorem Descriptor.Valid.records (laws : ReaderLaws reader) (hd : d.Valid reader payload) :
    ∃ ts as, Records (d.shown payload).topics ts ∧ Records (d.shown payload).actions as ∧
      ts.length = d.header.topicCount.toNat ∧ as.length = d.header.actionCount.toNat :=
  laws.counted payload d.header d.topics d.actions hd.header hd.runs

theorem Descriptor.Valid.servable (laws : ReaderLaws reader) (hd : d.Valid reader payload) :
    Servable reader (d.shown payload) where
  describes requestHeader _ hstatus herror :=
    hd.describes hd.header _ _ requestHeader hstatus herror
  info block hblock := by
    cases hblock
    exact hd.isSourceInfo
  topics := by
    obtain ⟨ts, -, hts, -⟩ := hd.records laws
    exact ⟨ts, hts⟩
  actions := by
    obtain ⟨-, as, -, has, -⟩ := hd.records laws
    exact ⟨as, has⟩
  name_le := length_cutName_le d.header.sourceName
  info_le := hd.info_le

variable {writer : ManifestWriter} {s : Shown} {requestHeader : Header} {answer : Answer}

/-- There is always room for the head and the block. -/
theorem Servable.write_isSome (wlaws : WriterLaws reader writer) (hs : Servable reader s)
    (requestHeader : Header) (hstatus : answer.status = kStatusSuccess) (herror : answer.errorCode = kErrorNone)
    {outputCapacity : Nat} (hcap : kManifestHeadSize + s.name.length +
      (s.info.getD kEmptySourceInfo).length ≤ outputCapacity) :
    (s.write writer requestHeader answer outputCapacity).isSome = true := by
  obtain ⟨ts, hts⟩ := hs.topics
  obtain ⟨as, has⟩ := hs.actions
  exact wlaws.accepts _ _ _ _ _ ts as (hs.describes _ _ hstatus herror) hs.info hts has hcap

/-- What a response about a source reads back as. -/
theorem Servable.carries (wlaws : WriterLaws reader writer) (hs : Servable reader s)
    (hstatus : answer.status = kStatusSuccess) (herror : answer.errorCode = kErrorNone)
    {ts as : List Bytes} (hts : Records s.topics ts) (has : Records s.actions as)
    {outputCapacity : Nat} {out : Bytes}
    (hout : s.write writer requestHeader answer outputCapacity = some out) :
    ∃ ts' as', ts' <+: ts ∧ as' <+: as ∧
      Carries reader out ((s.header requestHeader answer).withCounts ts'.length as'.length)
        (s.info.getD kEmptySourceInfo) ts'.flatten as'.flatten ∧
      (kManifestHeadSize + s.name.length + (s.info.getD kEmptySourceInfo).length +
        s.topics.length + s.actions.length ≤ outputCapacity → ts' = ts ∧ as' = as) :=
  wlaws.carries _ _ _ _ _ _ ts as (hs.describes _ _ hstatus herror) hs.info hts has hout

end servable

/-! ## What is cached can be served -/

section cached

variable {reader : ManifestReader}

/-- What a slot shows of its robot: the last answer, and of the last full one its
name and its records. -/
structure Cached (reader : ManifestReader) (s : Shown) : Prop where
  shown : ∃ d payload payload' named topics actions, Descriptor.Valid reader d payload ∧
    reader.header payload' = .ok named ∧
    s = { d.shown payload with name := cutName named.sourceName, topics, actions }
  topics : ∃ ts, Records s.topics ts
  actions : ∃ as, Records s.actions as

theorem Cached.servable {s : Shown} (h : Cached reader s) : Servable reader s := by
  obtain ⟨⟨d, payload, payload', named, topics, actions, hd, hnamed, rfl⟩, htopics, hactions⟩ := h
  refine
    { describes := fun requestHeader _ hstatus herror =>
        hd.describes hnamed topics actions requestHeader hstatus herror
      info := ?_, topics := htopics, actions := hactions
      name_le := length_cutName_le named.sourceName, info_le := hd.info_le }
  intro block hblock
  cases hblock
  exact hd.isSourceInfo

/-- Every cached robot can be served. -/
def Served (reader : ManifestReader) (g : Cache) : Prop :=
  ∀ i, (g.entries i).used = true → Cached reader (g.entries i).shown

theorem Served.store (laws : ReaderLaws reader) {g : Cache} {payload : Bytes} {nowMs : UInt32}
    {d : Descriptor} (h : Served reader g) (hd : Accepts reader g payload d) :
    Served reader (store g d payload nowMs) := by
  intro i hused
  by_cases hi : i = findOrAllocateEntry g d.header.describedSourceId
  · rw [store_entry_self hi]
    cases hnot : d.notModified with
    | false =>
      rw [shown_ingest_full laws hd.valid hnot]
      obtain ⟨ts, as, hts, has, -, -⟩ := hd.valid.records laws
      exact ⟨⟨d, payload, payload, d.header, _, _, hd.valid, hd.valid.header, rfl⟩, ⟨ts, hts⟩,
        ⟨as, has⟩⟩
    | true =>
      -- the slot is the robot's own, and keeps the name and the records
      obtain ⟨k, hk⟩ := Option.ne_none_iff_exists'.1 (hd.known hnot)
      rw [findOrAllocateEntry_of_some hk] at hi
      subst hi
      obtain ⟨hold, -⟩ := Entry.key_eq_some.1 (entrySlot_key hk)
      obtain ⟨⟨d', p', payload', named, topics, actions, -, hnamed, hshown⟩, htopics, hactions⟩ :=
        h i hold
      have hname : (g.entries i).shown.name = cutName named.sourceName := by
        rw [hshown]
      rw [shown_ingest_notModified hd.valid hnot, hname]
      exact ⟨⟨d, payload, payload', named, (g.entries i).shown.topics, (g.entries i).shown.actions,
        hd.valid, hnamed, rfl⟩, htopics, hactions⟩
  · rw [store_entry_of_ne hi] at hused ⊢
    exact h i hused

theorem Served.ingest (laws : ReaderLaws reader) {g : Cache} (h : Served reader g)
    (payload : Bytes) (nowMs : UInt32) :
    Served reader (ingestManifestData reader g payload nowMs).1 := by
  cases hok : (ingestManifestData reader g payload nowMs).2 with
  | false =>
    rw [ingest_refused hok]
    exact h
  | true =>
    obtain ⟨d, hd, hg⟩ := ingest_accepted hok
    rw [hg]
    exact h.store laws hd

/-- `g_dongleSourceInfo` of the firmware is 256 octets. -/
def kDongleSourceInfoSize : Nat := 256

/-- What is configured as the dongle's own block is one, of the size of its buffer. -/
def Configures (reader : ManifestReader) : Op → Prop
  | .configure _ (some block) => IsSourceInfo reader block ∧ block.length ≤ kDongleSourceInfoSize
  | _ => True

/-- The dongle's own block, where one is kept. -/
def OwnBlock (reader : ManifestReader) (g : Cache) : Prop :=
  ∀ block ∈ g.selfSourceInfo, IsSourceInfo reader block ∧ 2 ≤ block.length ∧
    block.length ≤ kDongleSourceInfoSize

theorem OwnBlock.configure {g : Cache} {selfUuid : Option (Vector UInt8 16)}
    {selfSourceInfo : Option Bytes} (h : Configures reader (.configure selfUuid selfSourceInfo)) :
    OwnBlock reader (configure g selfUuid selfSourceInfo) := by
  intro block hblock
  obtain ⟨rfl, hlen⟩ := Option.mem_filter_iff.1 hblock
  exact ⟨h.1, by simpa using hlen, h.2⟩

section own

variable {g : Cache} {records : Bytes} {self : Identity}

theorem ownDescribed_info (h : OwnBlock reader g) :
    (ownDescribed records self g).shown.info = g.selfSourceInfo := by
  show (ownDescribed records self g).info = g.selfSourceInfo
  rw [Described.info, ownDescribed]
  dsimp only
  cases hinfo : g.selfSourceInfo with
  | none => rfl
  | some block =>
    have hlen := (h block hinfo).2.1
    simp [slice, hlen]

theorem ownDescribed_topics : (ownDescribed records self g).shown.topics = records := by
  show slice records 0 records.length = records
  rw [slice, List.drop_zero, List.take_length]

theorem ownDescribed_actions : (ownDescribed records self g).shown.actions = [] := by
  show slice records records.length (records.length - records.length) = []
  rw [Nat.sub_self, slice, List.take_zero]

theorem ownDescribed_servable {rs : List Bytes} (hrs : Records records rs) (h : OwnBlock reader g) :
    Servable reader (ownDescribed records self g).shown := by
  have hname : (cString (literal kSelfName)).length ≤ kMaxNameLength := by decide
  refine
    { describes := fun _ _ hstatus _ => .dongle hstatus rfl rfl hname, info := ?_
      topics := ⟨rs, ?_⟩, actions := ⟨[], ?_⟩, name_le := hname, info_le := ?_ }
  · intro block hblock
    rw [ownDescribed_info h] at hblock
    exact (h block hblock).1
  · rw [ownDescribed_topics]
    exact hrs
  · rw [ownDescribed_actions]
    exact ⟨rfl, nofun, by decide⟩
  · rw [ownDescribed_info h]
    cases hblock : g.selfSourceInfo with
    | none => decide
    | some block =>
      have hlen := (h block hblock).2.2
      simp only [kDongleSourceInfoSize] at hlen
      simp only [Option.getD_some, kMaxSourceInfoBytes]
      omega

end own

/-- The dongle can describe itself. -/
theorem OwnBlock.servable {g : Cache} (h : OwnBlock reader g) (self : Identity) :
    Servable reader (selfDescribed self g).shown := by
  obtain ⟨rs, hrs, -, -⟩ := DonglePublisher.topicRecords_records
  rw [selfDescribed]
  exact ownDescribed_servable hrs h

theorem ingest_selfSourceInfo (g : Cache) (payload : Bytes) (nowMs : UInt32) :
    (ingestManifestData reader g payload nowMs).1.selfSourceInfo = g.selfSourceInfo := by
  cases hok : (ingestManifestData reader g payload nowMs).2 with
  | false => rw [ingest_refused hok]
  | true =>
    obtain ⟨d, -, hg⟩ := ingest_accepted hok
    rw [hg]
    exact (store_self g d payload nowMs).2

theorem OwnBlock.of_eq {g g' : Cache} (h : OwnBlock reader g)
    (heq : g'.selfSourceInfo = g.selfSourceInfo) : OwnBlock reader g' := by
  intro block hblock
  rw [heq] at hblock
  exact h block hblock

theorem Served.of_entries {g g' : Cache} (h : Served reader g) (heq : g'.entries = g.entries) :
    Served reader g' := by
  intro i hused
  rw [heq] at hused ⊢
  exact h i hused

/-- Whatever the calls since boot, every source can be described. -/
theorem run_served (laws : ReaderLaws reader) {ops : List Op}
    (hops : ∀ op ∈ ops, Configures reader op) :
    Served reader (run reader writer ops) ∧ OwnBlock reader (run reader writer ops) := by
  have hfold : ∀ (ops : List Op) (g : Cache), (∀ op ∈ ops, Configures reader op) →
      Served reader g ∧ OwnBlock reader g →
      Served reader (ops.foldl (step reader writer) g) ∧
        OwnBlock reader (ops.foldl (step reader writer) g) := by
    intro ops
    induction ops with
    | nil => exact fun g _ h => h
    | cons op ops ih =>
      intro g hops h
      refine ih _ (fun op' hop => hops op' (List.mem_cons_of_mem op hop)) ?_
      have hop := hops op List.mem_cons_self
      cases op with
      | configure selfUuid selfSourceInfo => exact ⟨h.1, .configure hop⟩
      | shouldRequestManifest sourceId bootId nowMs =>
        exact ⟨h.1.of_entries (shouldRequestManifest_entries ..),
          h.2.of_eq (shouldRequestManifest_selfSourceInfo ..)⟩
      | ingestManifestData payload nowMs =>
        exact ⟨h.1.ingest laws payload nowMs, h.2.of_eq (ingest_selfSourceInfo ..)⟩
      | buildTargetedResponse self request requestHeader outputCapacity => exact h
      | notePrimeSent => exact h
      | noteConsumeRejected => exact h
  refine hfold ops {} hops ⟨fun i hi => ?_, nofun⟩
  cases hi

end cached

/-! ## The answer at an index -/

section answer

variable {reader : ManifestReader} {writer : ManifestWriter} {g : Cache}

theorem listing_sourceId (self : Identity) (g : Cache) :
    (listing self g).map Shown.sourceId = self.sourceId :: ids g := by
  rw [listing, List.map_cons, ids_eq_catalog]
  rfl

theorem mem_listing_servable (hserved : Served reader g) (hown : OwnBlock reader g)
    {self : Identity} {s : Shown} (hs : s ∈ listing self g) : Servable reader s := by
  rcases List.mem_cons.1 hs with rfl | hs
  · exact hown.servable self
  · obtain ⟨i, hused, rfl⟩ := mem_catalog.1 hs
    exact (hserved i hused).servable

/-- What the head of an enumeration response says. -/
structure Places (dongle : Identity) (g : Cache) (index : Nat) (head : ManifestHeader) : Prop where
  source : (dongle.sourceId :: ids g)[index]? = some head.describedSourceId
  status : head.status = kStatusSuccess
  catalogIndex : head.catalogIndex.toNat = index
  catalogCount : head.catalogCount.toNat = enumerationCount g
  complete : head.flags &&& kFlagCatalogComplete ≠ 0 ↔ index + 1 = enumerationCount g

/-- There is an answer at every index of the catalog. -/
theorem enumeration_answer (wlaws : WriterLaws reader writer) (hserved : Served reader g)
    (hown : OwnBlock reader g) (dongle : Identity) (requestHeader : Header) {index : Nat}
    (hindex : index < enumerationCount g) {outputCapacity : Nat}
    (hcap : kManifestHeadSize + kMaxNameLength + kMaxSourceInfoBytes ≤ outputCapacity) :
    ∃ out head,
      buildEnumerationResponse writer dongle g index requestHeader outputCapacity = some out ∧
        reader.header out = .ok head ∧ Places dongle g index head := by
  have hlt : index < (listing dongle g).length := by
    rw [listing, List.length_cons]
    have := length_catalog g
    omega
  have hget : (listing dongle g)[index]? = some (listing dongle g)[index] :=
    List.getElem?_eq_getElem hlt
  have hs : Servable reader (listing dongle g)[index] :=
    mem_listing_servable hserved hown (List.getElem_mem hlt)
  have hroom : kManifestHeadSize + (listing dongle g)[index].name.length +
      ((listing dongle g)[index].info.getD kEmptySourceInfo).length ≤ outputCapacity := by
    have hname := hs.name_le
    have hinfo := hs.info_le
    omega
  have hsome : ((listing dongle g)[index].write writer requestHeader
      (place index (enumerationCount g)) outputCapacity).isSome = true :=
    hs.write_isSome wlaws requestHeader rfl rfl hroom
  obtain ⟨out, hout⟩ := Option.isSome_iff_exists.1 hsome
  obtain ⟨ts, hts⟩ := hs.topics
  obtain ⟨as, has⟩ := hs.actions
  obtain ⟨ts', as', -, -, hcarries, -⟩ := hs.carries wlaws rfl rfl hts has hout
  refine ⟨out, _, by rw [buildEnumerationResponse_eq, hget, Option.bind_some, hout],
    hcarries.header, ?_⟩
  have hsmall : enumerationCount g < 2 ^ 16 := by
    rw [length_ids]
    have := length_ids_le g
    simp only [kCapacity] at this
    omega
  refine { source := ?_, status := rfl, catalogIndex := ?_, catalogCount := ?_, complete := ?_ }
  · rw [← listing_sourceId, List.getElem?_map, hget]
    rfl
  · exact UInt16.toNat_ofNat_of_lt' (hindex.trans hsmall)
  · exact UInt16.toNat_ofNat_of_lt' hsmall
  · show (if index + 1 = enumerationCount g then kFlagCatalogComplete else 0) &&& _ ≠ 0 ↔ _
    split <;> rename_i h
    · exact iff_of_true (by decide) h
    · exact iff_of_false (by decide) h

end answer

end BallyDongle.ManifestCache
