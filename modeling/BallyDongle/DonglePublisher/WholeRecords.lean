import Mathlib.Data.List.TakeWhile
import BallyDongle.Btp.ManifestLayout
import BallyDongle.DonglePublisher.Schema

/-!
# Whole records

What `topicRecords` reports of any table in a buffer of any size. The records that fit are
whole, but the one that does not fit leaves what was written of it before the buffer ended,
and the size reported is that of the cursor (`reports_whole_iff`). A size of the board has 32
bits, and no buffer is so long that the sum of a cursor and the length of a text wraps.
-/

namespace BallyDongle.DonglePublisher.WholeRecords

open Btp

/-! ## What is reported -/

/-- The globals after so many calls: the first builds the records. -/
def built (capacity : Nat) (topics : List TopicDesc) : Nat → Option (Bytes × UInt16)
  | 0 => none
  | calls + 1 => some ((built capacity topics calls).getD (writeRecords capacity topics))

/-- What a call reports after so many others. -/
def report (capacity : Nat) (topics : List TopicDesc) (calls : Nat) : Bytes × UInt16 :=
  (built capacity topics calls).getD (writeRecords capacity topics)

/-- The field records of a topic record: its size in front, and nothing after as many of them
as it says. -/
def readTopicRecord (record : Bytes) : Option (List Bytes) := do
  let size ← readU32 record 0
  guard (record.length = 4 + size.toNat)
  let fieldCount ← readU16 record 10
  let (_, rest) ← SizedFields.takeFields 2 Layout.textSize 2 (record.drop 16)
  let (fields, rest) ← SizedFields.takeFields 4 recordSize fieldCount.toNat rest
  guard (rest = [])
  return fields

/-- The records where the buffer never ends. -/
def unlimitedRecords (topics : List TopicDesc) : List Bytes :=
  (topics.takeWhile fun topic => decide topic.Writable).map topicOctets

/-- The octets are so many topic records, and these are the first that there are. -/
def Whole (topics : List TopicDesc) (octets : Bytes) (topicCount : UInt16) : Prop :=
  ∃ records, octets = records.flatten ∧ records.length = topicCount.toNat ∧
    (∀ record ∈ records, (readTopicRecord record).isSome = true) ∧
      records <+: unlimitedRecords topics

/-- The records that fit one after the other. -/
def fittingRecords (capacity : Nat) (topics : List TopicDesc) : List Bytes :=
  Layout.fitting capacity (unlimitedRecords topics)

/-- The table ends with the buffer: every topic fits, or the first that does not finds no room
even for its size; and 16 bits hold the number of topics that fit and of the fields of each. -/
def EndsWithBuffer (capacity : Nat) (topics : List TopicDesc) : Prop :=
  ((fittingRecords capacity topics).length = topics.length ∨
      capacity < (fittingRecords capacity topics).flatten.length + 4) ∧
    (fittingRecords capacity topics).length < 2 ^ 16 ∧
      ∀ topic ∈ topics.take (fittingRecords capacity topics).length, topic.fields.length < 2 ^ 16

theorem report_eq (capacity : Nat) (topics : List TopicDesc) (calls : Nat) :
    report capacity topics calls = writeRecords capacity topics := by
  induction calls with
  | zero => rfl
  | succ calls ih => exact ih

/-! ## What is written -/

theorem unlimitedRecords_cons (topic : TopicDesc) (topics : List TopicDesc) :
    unlimitedRecords (topic :: topics) =
      if topic.Writable then topicOctets topic :: unlimitedRecords topics else [] := by
  by_cases hable : topic.Writable <;> simp [unlimitedRecords, hable]

theorem writeTopics_fitting {w : Writer} (hroom : w.out.length ≤ w.capacity)
    (topics : List TopicDesc) :
    ∃ part, writeTopics w topics =
        ({ w with out := w.out ++
            ((fittingRecords (w.capacity - w.out.length) topics).flatten ++ part) },
          (fittingRecords (w.capacity - w.out.length) topics).length) ∧
      (part = [] ↔
        (fittingRecords (w.capacity - w.out.length) topics).length = topics.length ∨
          w.capacity < w.out.length +
            (fittingRecords (w.capacity - w.out.length) topics).flatten.length + 4) := by
  induction topics generalizing w with
  | nil => exact ⟨[], by simp [writeTopics, fittingRecords, unlimitedRecords, Layout.fitting],
      iff_of_true rfl (.inl rfl)⟩
  | cons topic topics ih =>
    by_cases hfits : topic.Writable ∧ w.out.length + (topicOctets topic).length ≤ w.capacity
    · have hrecords : fittingRecords (w.capacity - w.out.length) (topic :: topics) =
          topicOctets topic ::
            fittingRecords (w.capacity - (w.out ++ topicOctets topic).length) topics := by
        rw [fittingRecords, unlimitedRecords_cons, if_pos hfits.1, Layout.fitting,
          if_pos (by omega), List.length_append, ← Nat.sub_sub]
        rfl
      have hnext : (w.out ++ topicOctets topic).length ≤ w.capacity := by
        rw [List.length_append]
        exact hfits.2
      obtain ⟨part, hrest, hpart⟩ := ih (w := { w with out := w.out ++ topicOctets topic }) hnext
      refine ⟨part, ?_, ?_⟩
      · rw [writeTopics, (emits_topicRecord topic).done w hfits.1 hfits.2]
        dsimp only
        rw [hrest, hrecords]
        simp only [List.flatten_cons, List.append_assoc, List.length_cons]
      · rw [hpart, hrecords]
        simp only [List.flatten_cons, List.length_append, List.length_cons, Nat.add_right_cancel_iff,
          Nat.add_assoc]
    · have hrecords : fittingRecords (w.capacity - w.out.length) (topic :: topics) = [] := by
        rw [fittingRecords, unlimitedRecords_cons]
        split
        · rename_i hable
          exact if_neg fun hle => hfits ⟨hable, by omega⟩
        · rfl
      obtain ⟨part, hwrite, hpart⟩ := (emits_topicContent topic).sized_stopped hroom hfits
      have hstop : writeTopicRecord w topic = _ := hwrite
      refine ⟨part, ?_, ?_⟩
      · rw [writeTopics, hstop, hrecords]
        rfl
      · rw [hpart, hrecords]
        simp

/-! ## What a client reads -/

theorem isField_textOctets {text : String} (h : Short text) :
    SizedFields.IsField 2 Layout.textSize (textOctets text) := by
  have hread := readU16_le16 (literal text).length.toUInt16 []
  rw [List.append_nil] at hread
  refine ⟨(literal text).length, ?_, by rw [textOctets, List.length_append]; rfl⟩
  show Layout.textSize (le16 (literal text).length.toUInt16) = _
  rw [Layout.textSize, hread, Option.map_some]
  exact congrArg some (UInt16.toNat_ofNat_of_lt' (Nat.lt_succ_of_le h))

theorem take_texts {texts : List String} (h : ∀ text ∈ texts, Short text) (rest : Bytes) :
    SizedFields.takeFields 2 Layout.textSize texts.length (texts.flatMap textOctets ++ rest) =
      some (texts.map textOctets, rest) := by
  have hfields : ∀ octets ∈ texts.map textOctets,
      SizedFields.IsField 2 Layout.textSize octets := by
    intro octets hoctets
    obtain ⟨text, htext, rfl⟩ := List.mem_map.1 hoctets
    exact isField_textOctets (h text htext)
  have htake := SizedFields.takeFields_append hfields rest
  rwa [List.length_map, ← List.flatMap_def] at htake

theorem take_fields {fields : List FieldDesc}
    (h : (fields.flatMap fieldOctets).length < 2 ^ 32) {count : Nat} (hcount : count ≤ fields.length) :
    SizedFields.takeFields 4 recordSize count (fields.flatMap fieldOctets) =
      some ((fields.take count).map fieldOctets, (fields.drop count).flatMap fieldOctets) := by
  have hrecords : ∀ octets ∈ (fields.take count).map fieldOctets,
      SizedFields.IsField 4 recordSize octets := by
    intro octets hoctets
    obtain ⟨field, hfield, rfl⟩ := List.mem_map.1 hoctets
    have hle := @length_le_flatMap _ _ fieldOctets _ _ (List.mem_of_mem_take hfield)
    exact isRecord_fieldOctets (hle.trans_lt h)
  have htake := SizedFields.takeFields_append hrecords ((fields.drop count).flatMap fieldOctets)
  rwa [List.length_map, List.length_take, Nat.min_eq_left hcount, ← List.flatMap_def,
    ← List.flatMap_append, List.take_append_drop] at htake

/-- What is left behind as many fields as the count says. -/
theorem drop_fields (fields : List FieldDesc) :
    (fields.drop (fields.length % 2 ^ 16)).flatMap fieldOctets = [] ↔ fields.length < 2 ^ 16 := by
  rw [List.flatMap_eq_nil_iff]
  refine ⟨fun hempty => ?_, fun hlt => ?_⟩
  · by_contra hge
    have hmod := Nat.mod_lt fields.length (y := 2 ^ 16) (by decide)
    have hnext : fields.length % 2 ^ 16 < fields.length := by omega
    have hnil := hempty fields[fields.length % 2 ^ 16]
      (by rw [List.drop_eq_getElem_cons hnext]; exact List.mem_cons_self)
    exact absurd hnil (List.cons_ne_nil _ _)
  · rw [Nat.mod_eq_of_lt hlt, List.drop_length]
    exact nofun

/-- A record is read to its end unless it has more fields than its count can say. -/
theorem readTopicRecord_isSome {topic : TopicDesc} (hable : topic.Writable)
    (hlength : (topicOctets topic).length < 2 ^ 32) :
    (readTopicRecord (topicOctets topic)).isSome = true ↔ topic.fields.length < 2 ^ 16 := by
  have hsize : readU32 (topicOctets topic) 0 =
      some ((topicOctets topic).length - 4).toUInt32 := by
    rw [topicOctets, length_sized, Nat.add_sub_cancel_left]
    exact readU32_le32 _ _
  have hwhole : (topicOctets topic).length =
      4 + ((topicOctets topic).length - 4).toUInt32.toNat := by
    rw [UInt32.toNat_ofNat_of_lt' (Nat.sub_lt_of_lt hlength), length_topicOctets, topicRecordSize]
    omega
  have hcount : readU16 (topicOctets topic) 10 = some topic.fields.length.toUInt16 :=
    readU16_le16 topic.fields.length.toUInt16 []
  have hdrop : (topicOctets topic).drop 16 =
      [topic.name, ""].flatMap textOctets ++ topic.fields.flatMap fieldOctets := rfl
  have htexts : SizedFields.takeFields 2 Layout.textSize 2
      ([topic.name, ""].flatMap textOctets ++ topic.fields.flatMap fieldOctets) = _ :=
    take_texts hable.1 _
  have hfields : (topic.fields.flatMap fieldOctets).length < 2 ^ 32 := by
    have hsuffix := (List.suffix_append ([topic.name, ""].flatMap textOctets)
      (topic.fields.flatMap fieldOctets)).length_le
    rw [← hdrop, List.length_drop] at hsuffix
    omega
  have hnat : topic.fields.length.toUInt16.toNat = topic.fields.length % 2 ^ 16 := rfl
  rw [readTopicRecord, hsize, hcount, hdrop]
  simp only [Option.bind_eq_bind, Option.bind_some]
  rw [guard, if_pos hwhole, Option.pure_def, Option.bind_some, htexts, Option.bind_some, hnat,
    take_fields hfields (Nat.mod_le topic.fields.length (2 ^ 16)), Option.bind_some, guard]
  dsimp only
  rw [← drop_fields]
  split
  · exact iff_of_true rfl ‹_›
  · exact iff_of_false Bool.false_ne_true ‹_›

/-! ## When the report is whole -/

/-- Of runs of records with the same octets neither is longer, as no record is empty. -/
theorem eq_of_flatten_prefix {α : Type} {xs ys zs : List (List α)} (hne : ∀ z ∈ zs, z ≠ [])
    (hxs : xs <+: zs) (hys : ys <+: zs) {part : List α} (h : xs.flatten = ys.flatten ++ part)
    (hlength : xs.length ≤ ys.length) : part = [] ∧ xs = ys := by
  obtain ⟨rest, rfl⟩ := List.prefix_of_prefix_length_le hxs hys hlength
  rw [List.flatten_append, List.append_assoc, List.self_eq_append_right, List.append_eq_nil_iff,
    List.flatten_eq_nil_iff] at h
  have hrest : rest = [] := by
    cases rest with
    | nil => rfl
    | cons r rest =>
      have hmem : r ∈ zs := hys.subset (by simp)
      exact absurd (h.1 r List.mem_cons_self) (hne r hmem)
  rw [hrest, List.append_nil]
  exact ⟨h.2, rfl⟩

theorem fittingRecords_isPrefix (capacity : Nat) (topics : List TopicDesc) :
    fittingRecords capacity topics <+: unlimitedRecords topics :=
  Layout.fitting_prefix capacity _

/-- The topics that fit can all be written, and what fits are their records. -/
theorem fittingRecords_eq (capacity : Nat) (topics : List TopicDesc) :
    fittingRecords capacity topics =
        (topics.take (fittingRecords capacity topics).length).map topicOctets ∧
      ∀ topic ∈ topics.take (fittingRecords capacity topics).length, topic.Writable := by
  have hprefix := fittingRecords_isPrefix capacity topics
  have hle : (fittingRecords capacity topics).length ≤
      (topics.takeWhile fun topic => decide topic.Writable).length := by
    have hlength := hprefix.length_le
    rwa [unlimitedRecords, List.length_map] at hlength
  have htake : topics.take (fittingRecords capacity topics).length =
      (topics.takeWhile fun topic => decide topic.Writable).take
        (fittingRecords capacity topics).length := by
    rw [List.prefix_iff_eq_take.1 (List.takeWhile_prefix _), List.take_take, Nat.min_eq_left hle]
  rw [htake, List.map_take]
  refine ⟨List.prefix_iff_eq_take.1 hprefix, fun topic htopic => ?_⟩
  have hdecide := List.mem_takeWhile_imp (List.mem_of_mem_take htopic)
  exact of_decide_eq_true hdecide

/-- Those that fit are read to their ends unless one has more fields than its count can say. -/
theorem fittingRecords_read {capacity : Nat} (hcapacity : capacity < 2 ^ 32)
    (topics : List TopicDesc) :
    (∀ record ∈ fittingRecords capacity topics, (readTopicRecord record).isSome = true) ↔
      ∀ topic ∈ topics.take (fittingRecords capacity topics).length,
        topic.fields.length < 2 ^ 16 := by
  obtain ⟨heq, hable⟩ := fittingRecords_eq capacity topics
  have hlength : ∀ record ∈ fittingRecords capacity topics, record.length < 2 ^ 32 := by
    intro record hrecord
    have hle := (List.sublist_flatten_of_mem hrecord).length_le
    exact (hle.trans (Layout.length_fitting_le capacity _)).trans_lt hcapacity
  rw [heq, List.forall_mem_map] at hlength
  conv_lhs => rw [heq, List.forall_mem_map]
  exact forall₂_congr fun topic htopic =>
    readTopicRecord_isSome (hable topic htopic) (hlength topic htopic)

theorem whole_iff {capacity : Nat} (hcapacity : capacity < 2 ^ 32) (topics : List TopicDesc) :
    Whole topics (writeRecords capacity topics).1 (writeRecords capacity topics).2 ↔
      EndsWithBuffer capacity topics := by
  obtain ⟨part, hwrite, hpart⟩ :=
    writeTopics_fitting (w := { out := [], capacity }) (Nat.zero_le _) topics
  have hreport : writeRecords capacity topics = ((fittingRecords capacity topics).flatten ++ part,
      (fittingRecords capacity topics).length.toUInt16) := by
    rw [writeRecords, hwrite]
    rfl
  have hends : part = [] ↔ (fittingRecords capacity topics).length = topics.length ∨
      capacity < (fittingRecords capacity topics).flatten.length + 4 := by
    rw [hpart]
    simp only [List.length_nil, Nat.sub_zero, Nat.zero_add]
  have hnat : (fittingRecords capacity topics).length.toUInt16.toNat =
      (fittingRecords capacity topics).length % 2 ^ 16 := rfl
  rw [hreport, Whole, EndsWithBuffer, ← hends, ← fittingRecords_read hcapacity]
  dsimp only
  constructor
  · rintro ⟨records, hoctets, hcount, hread, hfirst⟩
    have hne : ∀ record ∈ unlimitedRecords topics, record ≠ [] := by
      intro record hrecord
      obtain ⟨topic, -, rfl⟩ := List.mem_map.1 hrecord
      exact List.cons_ne_nil _ _
    rw [hnat] at hcount
    obtain ⟨hnone, rfl⟩ := eq_of_flatten_prefix hne hfirst (fittingRecords_isPrefix capacity topics)
      hoctets.symm (hcount.trans_le (Nat.mod_le _ _))
    exact ⟨hnone, hcount.trans_lt (Nat.mod_lt _ (by decide)), hread⟩
  · rintro ⟨rfl, hcount, hread⟩
    refine ⟨_, List.append_nil _, ?_, hread, fittingRecords_isPrefix capacity topics⟩
    rw [hnat, Nat.mod_eq_of_lt hcount]

/-- However often the records are asked for, they are whole when the table ends with the buffer
and at no other time. -/
theorem reports_whole_iff (capacity : UInt32) (topics : List TopicDesc) (calls : Nat) :
    Whole topics (report capacity.toNat topics calls).1 (report capacity.toNat topics calls).2 ↔
      EndsWithBuffer capacity.toNat topics := by
  rw [report_eq]
  exact whole_iff capacity.toNat_lt topics

/-- The old buffer holds two of the dongle's own topics and the beginning of the third. -/
theorem old_buffer_not_whole :
    ¬∀ (capacity : UInt32) (topics : List TopicDesc) (calls : Nat),
      Whole topics (report capacity.toNat topics calls).1 (report capacity.toNat topics calls).2 := by
  intro h
  have hrecords : unlimitedRecords kTopicDescs = kTopicDescs.map topicOctets := by
    rw [unlimitedRecords, List.takeWhile_eq_self_iff.2]
    exact fun topic htopic => decide_eq_true (kTopicDescs_writable topic htopic)
  have hsizes : (kTopicDescs.map topicOctets).map List.length = [663, 679, 399] := by
    rw [List.map_map, Function.comp_def]
    simp only [length_topicOctets]
    decide +kernel
  obtain ⟨link, usb, peers, hthree⟩ : ∃ link usb peers, kTopicDescs.map topicOctets =
    [link, usb, peers] := ⟨_, _, _, rfl⟩
  rw [hthree] at hsizes hrecords
  simp only [List.map_cons, List.cons.injEq] at hsizes
  obtain ⟨hlink, husb, hpeers, -⟩ := hsizes
  have hfits : fittingRecords 1500 kTopicDescs = [link, usb] := by
    rw [fittingRecords, hrecords]
    simp [Layout.fitting, hlink, husb, hpeers]
  have hcapacity : (1500 : UInt32).toNat = 1500 := rfl
  have hends := h 1500 kTopicDescs 0
  rw [report_eq, hcapacity, whole_iff (by decide), EndsWithBuffer, hfits] at hends
  rcases hends.1 with hall | hroom
  · have hthree : kTopicDescs.length = 3 := rfl
    rw [hthree] at hall
    exact absurd hall (by simp)
  · simp [hlink, husb] at hroom

end BallyDongle.DonglePublisher.WholeRecords
