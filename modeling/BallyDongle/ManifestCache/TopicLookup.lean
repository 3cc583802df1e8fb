import BallyDongle.ManifestCache.Catalog

/-!
# Looking up a topic

`lookupTopicMaxRateMillihz` walks the records of an entry octet by octet. `walk` is its
loop with the reads it makes. Every entry that a run leaves holds a run of whole topic
records, as many as it counts; the walk stays inside that run, and finds the first record
that carries the topic (`lookup_topic`).
-/

namespace BallyDongle.ManifestCache

open Btp

/-! ## The walk -/

structure Walk where
  reads : List ByteView := []
  outMaxRateMillihz : Option UInt32 := none

/-- `size_t` arithmetic of the target. -/
def sizeAdd (a b : Nat) : Nat := (a + b) % 2 ^ 32

/-- The loop, `count` records before its end, at `pos`. -/
def walk (topicId : UInt16) (records : Bytes) (recordsSize : Nat) : (count pos : Nat) → Walk
  | 0, _ => {}
  | count + 1, pos =>
    if recordsSize < sizeAdd pos 4 then {}
    else
      let contentSize := (readU32 records pos).getD 0
      let recordTotalLen := sizeAdd 4 contentSize.toNat
      if recordsSize < sizeAdd pos recordTotalLen ∨ contentSize < 12 then { reads := [⟨pos, 4⟩] }
      else
        let content := pos + 4
        if (readU16 records content).getD 0 = topicId then
          { reads := [⟨pos, 4⟩, ⟨content, 2⟩, ⟨content + 8, 4⟩]
            outMaxRateMillihz := some ((readU32 records (content + 8)).getD 0) }
        else
          let rest := walk topicId records recordsSize count (sizeAdd pos recordTotalLen)
          { rest with reads := ⟨pos, 4⟩ :: ⟨content, 2⟩ :: rest.reads }

/-- `lookupTopicMaxRateMillihz`, with its reads. -/
def lookupWalk (g : Cache) (selfSourceId sourceId topicId : UInt32) : Walk :=
  if topicId = 0 ∨ 0xFFFF < topicId then {}
  else if sourceId = selfSourceId then
    { outMaxRateMillihz := DonglePublisher.lookupTopicMaxRateMillihz topicId.toUInt16 }
  else
    match findEntry g sourceId with
    | none => {}
    | some entry =>
      walk topicId.toUInt16 entry.records entry.recordsSize entry.topicCount.toNat 0

/-! ## What the records say -/

/-- The topic record of this id. -/
def CarriesTopic (topicId : UInt32) (record : Bytes) : Prop :=
  (readU16 record 4).map UInt16.toUInt32 = some topicId

instance (topicId : UInt32) (record : Bytes) : Decidable (CarriesTopic topicId record) :=
  inferInstanceAs (Decidable (_ = _))

/-- `max_rate_millihz` of a topic record. -/
def maxRateOf (record : Bytes) : Option UInt32 := readU32 record 12

/-- The topic records of an entry. -/
structure TopicRun (e : Entry) (ts : List Bytes) : Prop where
  records : Records (slice e.records 0 e.topicRecordsSize) ts
  count : ts.length = e.topicCount.toNat

/-- An entry holds the runs that its sizes speak of. -/
structure Entry.HoldsRuns (e : Entry) : Prop where
  topics_le : e.topicRecordsSize ≤ e.recordsSize
  size_le : e.recordsSize ≤ kMaxRecordsBytes
  stored : e.recordsSize ≤ e.records.length
  topics : ∃ ts, TopicRun e ts

/-- What a lookup does with the topic records of the entry it finds. -/
structure LooksUp (g : Cache) (selfSourceId sourceId topicId : UInt32) (e : Entry)
    (ts : List Bytes) : Prop where
  /-- the loop is the function the rest of the model calls -/
  walks : (lookupWalk g selfSourceId sourceId topicId).outMaxRateMillihz =
    lookupTopicMaxRateMillihz g selfSourceId sourceId topicId
  /-- no action record is read, nor anything past the records -/
  inside : ∀ view ∈ (lookupWalk g selfSourceId sourceId topicId).reads,
    view.offset + view.size ≤ e.topicRecordsSize
  bounded : e.topicRecordsSize ≤ e.recordsSize ∧ e.recordsSize ≤ e.records.length
  found : (lookupTopicMaxRateMillihz g selfSourceId sourceId topicId).isSome ↔
    (1 ≤ topicId ∧ topicId ≤ 0xFFFF) ∧ ∃ r ∈ ts, CarriesTopic topicId r
  first : ∀ before r after, ts = before ++ r :: after → (∀ r' ∈ before, ¬CarriesTopic topicId r') →
    CarriesTopic topicId r → 1 ≤ topicId → topicId ≤ 0xFFFF →
      ∃ rate, maxRateOf r = some rate ∧
        lookupTopicMaxRateMillihz g selfSourceId sourceId topicId = some rate

/-! ## Reads behind a position -/

theorem readU32_add (data : Bytes) (pos offset : Nat) :
    readU32 data (pos + offset) = readU32 (data.drop pos) offset := by
  rw [readU32, readU32, List.drop_drop]

theorem readU16_add (data : Bytes) (pos offset : Nat) :
    readU16 data (pos + offset) = readU16 (data.drop pos) offset := by
  rw [readU16, readU16, List.drop_drop]

theorem readU32_append {front : Bytes} {offset : Nat} (h : offset + 4 ≤ front.length)
    (rest : Bytes) :
    readU32 (front ++ rest) offset = readU32 front offset ∧ (readU32 front offset).isSome := by
  have hlen : 4 ≤ (front.drop offset).length := by
    rw [List.length_drop]
    omega
  rw [readU32, readU32, List.drop_append_of_le_length (by omega)]
  generalize front.drop offset = octets at hlen ⊢
  rcases octets with _ | ⟨_, _ | ⟨_, _ | ⟨_, _ | ⟨_, _⟩⟩⟩⟩
  case cons.cons.cons.cons => exact ⟨rfl, rfl⟩
  all_goals simp at hlen

theorem readU16_append {front : Bytes} {offset : Nat} (h : offset + 2 ≤ front.length)
    (rest : Bytes) :
    readU16 (front ++ rest) offset = readU16 front offset ∧ (readU16 front offset).isSome := by
  have hlen : 2 ≤ (front.drop offset).length := by
    rw [List.length_drop]
    omega
  rw [readU16, readU16, List.drop_append_of_le_length (by omega)]
  generalize front.drop offset = octets at hlen ⊢
  rcases octets with _ | ⟨_, _ | ⟨_, _⟩⟩
  case cons.cons => exact ⟨rfl, rfl⟩
  all_goals simp at hlen

/-- A topic record long enough for the fields that the lookup reads. -/
structure IsTopicRecord (r : Bytes) : Prop where
  framed : IsRecord r
  long : 16 ≤ r.length

/-- The size, the id and the rate of a topic record at the head of some octets. -/
theorem IsTopicRecord.reads {r : Bytes} (h : IsTopicRecord r) (rest : Bytes) :
    ∃ contentSize topicId rate, readU32 (r ++ rest) 0 = some contentSize ∧
      readU16 (r ++ rest) 4 = some topicId ∧ readU32 (r ++ rest) 12 = some rate ∧
      readU16 r 4 = some topicId ∧ maxRateOf r = some rate ∧
      ¬contentSize < 12 ∧ r.length = 4 + contentSize.toNat := by
  have hlong := h.long
  obtain ⟨n, hsize, hlen⟩ := h.framed
  obtain ⟨hsame, hsome⟩ := @readU32_append r 0 (by omega) rest
  obtain ⟨contentSize, hcontent⟩ := Option.isSome_iff_exists.1 hsome
  obtain ⟨hsameId, hsomeId⟩ := @readU16_append r 4 (by omega) rest
  obtain ⟨topicId, hid⟩ := Option.isSome_iff_exists.1 hsomeId
  obtain ⟨hsameRate, hsomeRate⟩ := @readU32_append r 12 (by omega) rest
  obtain ⟨rate, hrate⟩ := Option.isSome_iff_exists.1 hsomeRate
  have hprefix : readU32 (r.take 4) 0 = some contentSize := by
    have hfour : (r.take 4).length = 4 := by
      rw [List.length_take]
      omega
    have happend := (@readU32_append (r.take 4) 0 (by omega) (r.drop 4)).1
    rw [List.take_append_drop] at happend
    rw [← happend, hcontent]
  have hn : n = contentSize.toNat := by
    rw [recordSize, hprefix] at hsize
    exact (Option.some.inj hsize).symm
  have hmin : ¬contentSize < 12 := by
    intro hlt
    have hnat : contentSize.toNat < 12 := hlt
    omega
  exact ⟨contentSize, topicId, rate, hsame.trans hcontent, hsameId.trans hid, hsameRate.trans hrate,
    hid, hrate, hmin, hn ▸ hlen⟩

/-! ## One walk -/

section walk

variable {topicId : UInt16} {ts : List Bytes}

def hasTopicId (topicId : UInt16) (r : Bytes) : Bool := readU16 r 4 == some topicId

/-- The rate of the first record of this id. -/
def firstRate (topicId : UInt16) (ts : List Bytes) : Option UInt32 :=
  (ts.find? (hasTopicId topicId)).bind maxRateOf

theorem firstRate_cons {r : Bytes} {id : UInt16} (hid : readU16 r 4 = some id) :
    firstRate topicId (r :: ts) = if id = topicId then maxRateOf r else firstRate topicId ts := by
  by_cases h : id = topicId
  · have hhas : hasTopicId topicId r = true := by rw [hasTopicId, hid, h, beq_self_eq_true]
    rw [if_pos h, firstRate, List.find?_cons_of_pos hhas, Option.bind_some]
  · have hhas : ¬hasTopicId topicId r = true := by
      rw [hasTopicId, hid, beq_iff_eq]
      exact fun heq => h (Option.some.inj heq)
    rw [if_neg h, firstRate, List.find?_cons_of_neg hhas, firstRate]

theorem walkTopics_eq (hts : ∀ r ∈ ts, IsTopicRecord r) (tail : Bytes) :
    walkTopics topicId ts.length (ts.flatten ++ tail) = firstRate topicId ts := by
  induction ts with
  | nil => rfl
  | cons r ts ih =>
    have hr := hts r (.head _)
    have hlong := hr.long
    obtain ⟨contentSize, id, rate, hsize, hid, hrate, hid', hrate', hmin, hlen⟩ :=
      hr.reads (ts.flatten ++ tail)
    have henough : ¬((r ++ (ts.flatten ++ tail)).length < 4 + contentSize.toNat ∨
        contentSize < 12) := by
      rw [List.length_append, not_or]
      exact ⟨by omega, hmin⟩
    rw [List.length_cons, List.flatten_cons, List.append_assoc, walkTopics, hsize,
      Option.bind_eq_bind, Option.bind_some, if_neg henough, hid, hrate, firstRate_cons hid', hrate',
      ← hlen, List.drop_left, ih fun r' hr' => hts r' (.tail _ hr')]
    by_cases h : id = topicId
    · rw [if_pos h, if_pos (congrArg some h)]
    · rw [if_neg h, if_neg fun heq => h (Option.some.inj heq)]

variable {records : Bytes} {recordsSize pos : Nat}

theorem sizeAdd_of_lt {a b : Nat} (h : a + b < 2 ^ 32) : sizeAdd a b = a + b := Nat.mod_eq_of_lt h

/-- A walk that starts where `ts` starts reads nothing else, and finds what is first in it. -/
theorem walk_run (hts : ∀ r ∈ ts, IsTopicRecord r) (hsize : recordsSize < 2 ^ 32)
    (hend : pos + ts.flatten.length ≤ recordsSize) {tail : Bytes}
    (hat : records.drop pos = ts.flatten ++ tail) :
    (walk topicId records recordsSize ts.length pos).outMaxRateMillihz = firstRate topicId ts ∧
      ∀ view ∈ (walk topicId records recordsSize ts.length pos).reads,
        pos ≤ view.offset ∧ view.offset + view.size ≤ pos + ts.flatten.length := by
  induction ts generalizing pos with
  | nil => exact ⟨rfl, nofun⟩
  | cons r ts ih =>
    have hr := hts r (.head _)
    have hlong := hr.long
    rw [List.flatten_cons, List.length_append] at hend
    rw [List.flatten_cons, List.append_assoc] at hat
    obtain ⟨contentSize, id, rate, hsizeOf, hid, hrate, hid', hrate', hmin, hlen⟩ :=
      hr.reads (ts.flatten ++ tail)
    have hreadSize : (readU32 records pos).getD 0 = contentSize := by
      rw [← Nat.add_zero pos, readU32_add, hat, hsizeOf, Option.getD_some]
    have hreadId : (readU16 records (pos + 4)).getD 0 = id := by
      rw [readU16_add, hat, hid, Option.getD_some]
    have hreadRate : (readU32 records (pos + 4 + 8)).getD 0 = rate := by
      rw [Nat.add_assoc, readU32_add, hat, hrate, Option.getD_some]
    have hprefix : ¬recordsSize < sizeAdd pos 4 := by
      rw [sizeAdd_of_lt (by omega)]
      omega
    have htotal : sizeAdd 4 contentSize.toNat = r.length := by
      rw [sizeAdd_of_lt (by omega), hlen]
    have hnext : sizeAdd pos r.length = pos + r.length := sizeAdd_of_lt (by omega)
    have henough : ¬(recordsSize < pos + r.length ∨ contentSize < 12) := by
      rw [not_or]
      exact ⟨by omega, hmin⟩
    have hdrop : records.drop (pos + r.length) = ts.flatten ++ tail := by
      rw [← List.drop_drop, hat, List.drop_left]
    obtain ⟨hrest, hreads⟩ := ih (fun r' hr' => hts r' (.tail _ hr')) (by omega) hdrop
    rw [List.length_cons, walk, if_neg hprefix]
    dsimp only
    rw [hreadSize, htotal, hnext, if_neg henough, hreadId, hreadRate, firstRate_cons hid', hrate',
      List.flatten_cons, List.length_append]
    by_cases h : id = topicId
    · rw [if_pos h, if_pos h]
      refine ⟨rfl, fun view hview => ?_⟩
      simp only [List.mem_cons, List.not_mem_nil, or_false] at hview
      rcases hview with rfl | rfl | rfl <;> dsimp only <;> omega
    · rw [if_neg h, if_neg h]
      refine ⟨hrest, fun view hview => ?_⟩
      rcases List.mem_cons.1 hview with rfl | hview
      · dsimp only
        omega
      rcases List.mem_cons.1 hview with rfl | hview
      · dsimp only
        omega
      · have := hreads view hview
        omega

end walk

/-! ## What a run leaves in the table -/

section run

variable {reader : ManifestReader} {writer : ManifestWriter} {g : Cache} {e : Entry}
  {d : Descriptor} {payload : Bytes}

theorem Entry.HoldsRuns.refresh (h : e.HoldsRuns) (d : Descriptor) (nowMs : UInt32) :
    (e.refresh d nowMs).HoldsRuns := by
  obtain ⟨ts, hts⟩ := h.topics
  exact ⟨h.topics_le, h.size_le, h.stored, ts, hts.records, hts.count⟩

/-- A full answer fills an entry with the runs of the payload. -/
theorem Descriptor.Valid.holdsRuns (laws : ReaderLaws reader) (hd : d.Valid reader payload)
    (hfull : d.notModified = false) (e : Entry) : (e.storeContent d payload).HoldsRuns := by
  have hfits := hd.fits laws
  have hlen : (slice payload d.topics.offset d.recordsSize).length = d.recordsSize :=
    length_slice hfits
  have htopics_le : d.topics.size ≤ d.recordsSize := Nat.le_add_right ..
  refine ⟨htopics_le, hd.size_le hfull, ?_, ?_⟩
  · show d.recordsSize ≤ (memcpy _ _).length
    rw [memcpy, List.length_append]
    omega
  · obtain ⟨ts, -, hts, -, hcount, -⟩ := hd.records laws
    refine ⟨ts, ?_, hcount⟩
    have hrun : slice (e.storeContent d payload).records 0 d.topics.size = d.topics.octets payload := by
      show slice (memcpy _ _) 0 d.topics.size = _
      rw [slice_memcpy _ _ (by omega), slice_slice _ _ _ _ _ (by omega), Nat.add_zero,
        ByteView.octets]
    show Records (slice (e.storeContent d payload).records 0 d.topics.size) ts
    rw [hrun]
    exact hts

/-- Every entry in use holds its runs. -/
def Held (g : Cache) : Prop := ∀ i, (g.entries i).used = true → (g.entries i).HoldsRuns

theorem Held.of_entries {g' : Cache} (h : Held g) (heq : g'.entries = g.entries) : Held g' := by
  intro i hused
  rw [heq] at hused ⊢
  exact h i hused

theorem Held.store (laws : ReaderLaws reader) (h : Held g) (hd : Accepts reader g payload d)
    (nowMs : UInt32) : Held (store g d payload nowMs) := by
  intro i hused
  by_cases hi : i = findOrAllocateEntry g d.header.describedSourceId
  · rw [store_entry_self hi, Entry.ingest]
    cases hnot : d.notModified with
    | false => exact hd.valid.holdsRuns laws hnot _
    | true =>
      -- the slot is the robot's own, and keeps its runs
      obtain ⟨k, hk⟩ := Option.ne_none_iff_exists'.1 (hd.known hnot)
      rw [findOrAllocateEntry_of_some hk] at hi
      subst hi
      exact (h i (Entry.key_eq_some.1 (entrySlot_key hk)).1).refresh d nowMs
  · rw [store_entry_of_ne hi] at hused ⊢
    exact h i hused

theorem Held.step (laws : ReaderLaws reader) (h : Held g) (op : Op) :
    Held (step reader writer g op) := by
  cases op with
  | shouldRequestManifest sourceId bootId nowMs =>
    exact h.of_entries (shouldRequestManifest_entries ..)
  | ingestManifestData payload nowMs =>
    cases hok : (ingestManifestData reader g payload nowMs).2 with
    | false =>
      rw [ManifestCache.step, ingest_refused hok]
      exact h.of_entries rfl
    | true =>
      obtain ⟨d, hd, hg⟩ := ingest_accepted hok
      rw [ManifestCache.step, hg]
      exact (h.store laws hd nowMs).of_entries rfl
  | configure _ _ => exact h.of_entries rfl
  | buildTargetedResponse _ _ _ _ => exact h.of_entries rfl
  | notePrimeSent => exact h.of_entries rfl
  | noteConsumeRejected => exact h.of_entries rfl

theorem run_held (laws : ReaderLaws reader) (ops : List Op) : Held (run reader writer ops) := by
  have hstart : Held ({} : Cache) := fun i hused => nomatch hused
  exact (Run.Throughout.of_allSteps (fun _ op h _ => h.step laws op) hstart
    (Run.AllSteps.trivial _ ops)).final

/-! ## The lookup -/

variable {self s topicId : UInt32} {ts : List Bytes}

theorem findEntry_held (h : Held g) (he : findEntry g s = some e) : e.HoldsRuns := by
  rw [findEntry, Option.map_eq_some_iff] at he
  obtain ⟨i, hi, rfl⟩ := he
  exact h i (Entry.key_eq_some.1 (entrySlot_key hi)).1

theorem carriesTopic_iff (hle : topicId ≤ 0xFFFF) (r : Bytes) :
    CarriesTopic topicId r ↔ hasTopicId topicId.toUInt16 r = true := by
  have hback : topicId.toUInt16.toUInt32 = topicId := by
    have hnat : topicId.toNat ≤ 0xFFFF := hle
    rw [← UInt32.toNat_inj, UInt16.toNat_toUInt32, UInt32.toNat_toUInt16]
    omega
  rw [CarriesTopic, hasTopicId, beq_iff_eq]
  cases readU16 r 4 with
  | none => simp
  | some id =>
    rw [Option.map_some, Option.some_inj, Option.some_inj]
    constructor
    · rintro rfl
      exact (UInt16.toUInt16_toUInt32 id).symm
    · rintro rfl
      exact hback

theorem firstRate_isSome (hts : ∀ r ∈ ts, IsTopicRecord r) (hle : topicId ≤ 0xFFFF) :
    (firstRate topicId.toUInt16 ts).isSome ↔ ∃ r ∈ ts, CarriesTopic topicId r := by
  constructor
  · intro h
    obtain ⟨rate, hrate⟩ := Option.isSome_iff_exists.1 h
    obtain ⟨r, hfind, -⟩ := Option.bind_eq_some_iff.1 hrate
    exact ⟨r, List.mem_of_find?_eq_some hfind,
      (carriesTopic_iff hle r).2 (List.find?_some hfind)⟩
  · rintro ⟨r, hr, hcarries⟩
    obtain ⟨r', hfind⟩ := Option.isSome_iff_exists.1
      (List.find?_isSome.2 ⟨r, hr, (carriesTopic_iff hle r).1 hcarries⟩)
    obtain ⟨-, -, rate, -, -, -, -, hrate, -⟩ := (hts r' (List.mem_of_find?_eq_some hfind)).reads []
    rw [firstRate, hfind, Option.bind_some, hrate]
    rfl

theorem firstRate_first {before after : List Bytes} {r : Bytes} (hle : topicId ≤ 0xFFFF)
    (hbefore : ∀ r' ∈ before, ¬CarriesTopic topicId r') (hr : CarriesTopic topicId r) :
    firstRate topicId.toUInt16 (before ++ r :: after) = maxRateOf r := by
  have hfind : (before ++ r :: after).find? (hasTopicId topicId.toUInt16) = some r := by
    rw [List.find?_eq_some_iff_append]
    refine ⟨(carriesTopic_iff hle r).1 hr, before, after, rfl, fun r' hr' => ?_⟩
    rw [Bool.not_eq_true']
    exact Bool.eq_false_iff.2 fun h => hbefore r' hr' ((carriesTopic_iff hle r').2 h)
  rw [firstRate, hfind, Option.bind_some]

theorem Entry.HoldsRuns.looksUp (h : e.HoldsRuns) (he : findEntry g s = some e) (hs : s ≠ self)
    (hrun : TopicRun e ts) (hlong : ∀ r ∈ ts, 4 + 12 ≤ r.length) (topicId : UInt32) :
    LooksUp g self s topicId e ts := by
  have hts : ∀ r ∈ ts, IsTopicRecord r := fun r hr => ⟨hrun.records.framed r hr, hlong r hr⟩
  have htopics := h.topics_le
  have hsize := h.size_le
  have hstored := h.stored
  have hflat : ts.flatten = e.records.take e.topicRecordsSize := by
    rw [← hrun.records.run_eq, slice, List.drop_zero]
  have hflatLen : ts.flatten.length = e.topicRecordsSize := by
    rw [hflat, List.length_take]
    omega
  have hat : e.records.drop 0 = ts.flatten ++ e.records.drop e.topicRecordsSize := by
    rw [hflat, List.take_append_drop, List.drop_zero]
  have htake : e.records.take e.recordsSize =
      ts.flatten ++ (e.records.drop e.topicRecordsSize).take (e.recordsSize - e.topicRecordsSize) := by
    rw [hflat, ← List.take_add, Nat.add_sub_cancel' htopics]
  by_cases hrange : topicId = 0 ∨ 0xFFFF < topicId
  · have hwalk : lookupWalk g self s topicId = {} := by rw [lookupWalk, if_pos hrange]
    have hlookup : lookupTopicMaxRateMillihz g self s topicId = none := by
      rw [lookupTopicMaxRateMillihz, if_pos hrange]
    have hout : ¬(1 ≤ topicId ∧ topicId ≤ 0xFFFF) := by
      rintro ⟨hge, hle⟩
      rcases hrange with rfl | hgt
      · exact absurd hge (by decide)
      · exact UInt32.not_le.2 hgt hle
    refine ⟨by rw [hwalk, hlookup], ?_, ⟨htopics, hstored⟩, ?_, ?_⟩
    · rw [hwalk]
      intro view hview
      cases hview
    · rw [hlookup]
      exact iff_of_false (by decide) fun hboth => hout hboth.1
    · exact fun _ _ _ _ _ _ hge hle => absurd ⟨hge, hle⟩ hout
  · have hle : topicId ≤ 0xFFFF := UInt32.not_lt.1 fun hgt => hrange (.inr hgt)
    have hge : 1 ≤ topicId := by
      have hne : topicId.toNat ≠ 0 := fun h0 => hrange (.inl (UInt32.toNat_inj.1 h0))
      exact UInt32.le_iff_toNat_le.2 (Nat.pos_of_ne_zero hne)
    obtain ⟨hrate, hreads⟩ := @walk_run topicId.toUInt16 ts e.records e.recordsSize 0 hts
      (Nat.lt_of_le_of_lt hsize (by decide)) (by omega) _ hat
    have hwalk : lookupWalk g self s topicId =
        walk topicId.toUInt16 e.records e.recordsSize ts.length 0 := by
      rw [lookupWalk, if_neg hrange, if_neg hs, he, hrun.count]
    have hlookup : lookupTopicMaxRateMillihz g self s topicId = firstRate topicId.toUInt16 ts := by
      rw [lookupTopicMaxRateMillihz, if_neg hrange, if_neg hs, he, Option.bind_some, ← hrun.count,
        htake, walkTopics_eq hts]
    refine ⟨?_, ?_, ⟨htopics, hstored⟩, ?_, ?_⟩
    · rw [hwalk, hlookup, hrate]
    · intro view hview
      rw [hwalk] at hview
      have := (hreads view hview).2
      omega
    · rw [hlookup, firstRate_isSome hts hle]
      exact ⟨fun hex => ⟨⟨hge, hle⟩, hex⟩, And.right⟩
    · rintro before r after rfl hbefore hr - -
      rw [hlookup, firstRate_first hle hbefore hr]
      obtain ⟨-, -, rate, -, -, -, -, hrate, -⟩ :=
        (hts r (List.mem_append_right _ (.head _))).reads []
      exact ⟨rate, hrate, hrate⟩

/-- In every state that a run of the cache reaches, a lookup about another source walks its
topic records, all of them and nothing else. -/
theorem lookup_topic (laws : ReaderLaws reader) (writer : ManifestWriter) (ops : List Op)
    (hs : s ≠ self) (he : findEntry (run reader writer ops) s = some e) :
    (∃ ts, TopicRun e ts) ∧
      ∀ ts, TopicRun e ts → (∀ r ∈ ts, 4 + 12 ≤ r.length) →
        ∀ topicId, LooksUp (run reader writer ops) self s topicId e ts := by
  have hheld := findEntry_held (run_held laws ops) he
  exact ⟨hheld.topics, fun ts hrun hlong topicId => hheld.looksUp he hs hrun hlong topicId⟩

/-- A topic record, with the fields past the rate cut to two octets. -/
def robotTopic (topicId : UInt16) (rate : UInt32) : Bytes :=
  le32 14 ++ le16 topicId ++ List.replicate 6 0 ++ le32 rate ++ [0, 0]

/-- A robot with two topics, the second of them twice. -/
def robotTopics : List Bytes := [robotTopic 5 1000, robotTopic 0x0102 2000, robotTopic 0x0102 9]

def robotCached : Cache :=
  run Layout.reader Layout.writer
    [.ingestManifestData (Layout.robotAnswer 0x9F442484 1 5 2 "robot" robotTopics) 1000]

theorem lookup_topic_robot :
    LooksUp robotCached 7 0x9F442484 0x0102 (robotCached.entries 0) robotTopics := by
  have hrun : TopicRun (robotCached.entries 0) robotTopics := by
    refine ⟨⟨by decide +kernel, fun r hr => ?_, by decide⟩, by decide +kernel⟩
    simp only [robotTopics, List.mem_cons, List.not_mem_nil, or_false] at hr
    rcases hr with rfl | rfl | rfl <;> exact ⟨14, by decide, by decide⟩
  exact (lookup_topic Layout.reader_laws Layout.writer _ (by decide) (by decide +kernel)).2
    robotTopics hrun (by decide) 0x0102

end run

end BallyDongle.ManifestCache
