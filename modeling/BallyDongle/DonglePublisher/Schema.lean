import BallyDongle.Btp.Manifest
import BallyDongle.DonglePublisher

/-!
# The records of the dongle's own topics

The field tables of `DonglePublisher.cpp` and the manifest records written from
them. A record is written with its size left open and patched afterwards; the
buffer holds all three.
-/

namespace BallyDongle.DonglePublisher

open Btp

def kTypeUint8 : UInt8 := 0x01
def kTypeUint32 : UInt8 := 0x03
def kTypeUint64 : UInt8 := 0x04
def kTypeInt8 : UInt8 := 0x05
def kEncodingPackedLe : UInt8 := 0x05
def kTopicFlagSubscribable : UInt8 := 0x01
def kFieldFlagVariableCount : UInt8 := 0x02
def kUsbDropClassCount : UInt16 := 4
def kRecordsCapacity : Nat := 2048

structure FieldDesc where
  fieldId : UInt16
  order : UInt16
  name : String
  type : UInt8
  unit : String
  elementCount : UInt16
  maxElementCount : UInt16
  flags : UInt8
  deriving Repr

structure TopicDesc where
  topicId : UInt16
  name : String
  maxRateMillihz : UInt32
  fields : List FieldDesc
  deriving Repr

def kLinkFields : List FieldDesc := [
  ⟨1, 0, "datagrams", kTypeUint32, "1", 1, 0, 0⟩,
  ⟨2, 1, "fragments_accepted", kTypeUint32, "1", 1, 0, 0⟩,
  ⟨3, 2, "routed_telemetry", kTypeUint32, "1", 1, 0, 0⟩,
  ⟨4, 3, "routed_log", kTypeUint32, "1", 1, 0, 0⟩,
  ⟨5, 4, "routed_command", kTypeUint32, "1", 1, 0, 0⟩,
  ⟨6, 5, "routed_control", kTypeUint32, "1", 1, 0, 0⟩,
  ⟨7, 6, "routed_terminal", kTypeUint32, "1", 1, 0, 0⟩,
  ⟨8, 7, "dropped_rx", kTypeUint32, "1", 1, 0, 0⟩,
  ⟨9, 8, "dropped_decode", kTypeUint32, "1", 1, 0, 0⟩,
  ⟨10, 9, "dropped_crc", kTypeUint32, "1", 1, 0, 0⟩,
  ⟨11, 10, "dropped_reassembly", kTypeUint32, "1", 1, 0, 0⟩,
  ⟨12, 11, "dropped_queue_full", kTypeUint32, "1", 1, 0, 0⟩]

def kUsbFields : List FieldDesc := [
  ⟨1, 0, "frames_rx", kTypeUint64, "1", 1, 0, 0⟩,
  ⟨2, 1, "frames_tx", kTypeUint64, "1", 1, 0, 0⟩,
  ⟨3, 2, "crc_errors", kTypeUint64, "1", 1, 0, 0⟩,
  ⟨4, 3, "decode_errors", kTypeUint64, "1", 1, 0, 0⟩,
  ⟨5, 4, "reassembly_rejected", kTypeUint64, "1", 1, 0, 0⟩,
  ⟨6, 5, "telemetry_dropped", kTypeUint64, "1", 1, 0, 0⟩,
  ⟨7, 6, "dropped_by_class", kTypeUint64, "1", kUsbDropClassCount, 0, 0⟩,
  ⟨8, 7, "relay_down_ok", kTypeUint64, "1", 1, 0, 0⟩,
  ⟨9, 8, "relay_down_unbound", kTypeUint64, "1", 1, 0, 0⟩,
  ⟨10, 9, "relay_down_no_peer", kTypeUint64, "1", 1, 0, 0⟩,
  ⟨11, 10, "relay_down_oversized", kTypeUint64, "1", 1, 0, 0⟩,
  ⟨12, 11, "relay_down_send_failed", kTypeUint64, "1", 1, 0, 0⟩]

def kPeersFields : List FieldDesc := [
  ⟨1, 0, "channel", kTypeUint8, "1", 0, kMaxPeers.toUInt16, kFieldFlagVariableCount⟩,
  ⟨2, 1, "source_id", kTypeUint32, "1", 0, kMaxPeers.toUInt16, kFieldFlagVariableCount⟩,
  ⟨3, 2, "boot_id", kTypeUint32, "1", 0, kMaxPeers.toUInt16, kFieldFlagVariableCount⟩,
  ⟨4, 3, "mac", kTypeUint8, "1", 0, (kMaxPeers * 6).toUInt16, kFieldFlagVariableCount⟩,
  ⟨5, 4, "last_seen_ms", kTypeUint32, "ms", 0, kMaxPeers.toUInt16, kFieldFlagVariableCount⟩,
  ⟨6, 5, "online", kTypeUint8, "1", 0, kMaxPeers.toUInt16, kFieldFlagVariableCount⟩,
  ⟨7, 6, "rssi", kTypeInt8, "dBm", 0, kMaxPeers.toUInt16, kFieldFlagVariableCount⟩,
  ⟨8, 7, "rtt_ms", kTypeUint32, "ms", 0, kMaxPeers.toUInt16, kFieldFlagVariableCount⟩]

/-- `kTopics` with the columns the manifest needs. -/
def kTopicDescs : List TopicDesc := [
  ⟨kLinkTopicId, "hub.link", kLinkMaxRateMillihz, kLinkFields⟩,
  ⟨kUsbTopicId, "hub.usb", kUsbMaxRateMillihz, kUsbFields⟩,
  ⟨kPeersTopicId, "hub.peers", kPeersMaxRateMillihz, kPeersFields⟩]

/-! ## The append cursor -/

structure Writer where
  out : Bytes
  capacity : Nat

namespace Writer

def raw (w : Writer) (data : Bytes) : Writer × Bool :=
  if w.out.length + data.length > w.capacity then (w, false)
  else ({ w with out := w.out ++ data }, true)

/-- Pieces one after the other, up to the first that does not fit. -/
def puts (w : Writer) : List Bytes → Writer × Bool
  | [] => (w, true)
  | piece :: pieces =>
    match w.raw piece with
    | (w, true) => w.puts pieces
    | (w, false) => (w, false)

def patchU32 (w : Writer) (offset : Nat) (value : UInt32) : Writer :=
  { w with out := w.out.take offset ++ u32 value ++ w.out.drop (offset + 4) }

theorem puts_eq (w : Writer) (pieces : List Bytes)
    (h : w.out.length + pieces.flatten.length ≤ w.capacity) :
    w.puts pieces = ({ w with out := w.out ++ pieces.flatten }, true) := by
  induction pieces generalizing w with
  | nil => simp [puts]
  | cons piece pieces ih =>
    rw [List.flatten_cons, List.length_append] at h
    rw [puts, raw, if_neg (by omega)]
    have hrest : w.out.length + piece.length + pieces.flatten.length ≤ w.capacity := by omega
    dsimp only
    rw [ih { w with out := w.out ++ piece } (by rwa [List.length_append])]
    simp

end Writer

/-- Length, then the octets; a text too long for its length is refused. -/
def utf8 (w : Writer) (text : String) : Writer × Bool :=
  let octets := literal text
  if octets.length > 0xFFFF then (w, false)
  else w.puts (u16 octets.length.toUInt16 :: if octets = [] then [] else [octets])

/-- Texts one after the other, up to the first that does not fit. -/
def utf8s (w : Writer) : List String → Writer × Bool
  | [] => (w, true)
  | text :: texts =>
    match utf8 w text with
    | (w, true) => utf8s w texts
    | (w, false) => (w, false)

def f64One : Bytes := [0, 0, 0, 0, 0, 0, 0xF0, 0x3F]
def f64Zero : Bytes := [0, 0, 0, 0, 0, 0, 0, 0]

/-- A piecewise write with its size in front, patched in at the end. -/
def writeSized (w : Writer) (body : Writer → Writer × Bool) : Writer × Bool :=
  match w.raw (u32 0) with
  | (w, false) => (w, false)
  | (reserved, true) =>
    match body reserved with
    | (w', false) => (w', false)
    | (w', true) =>
      (w'.patchU32 w.out.length (w'.out.length - reserved.out.length).toUInt32, true)

/-- A field as far as its texts. -/
def fieldHead (field : FieldDesc) : List Bytes :=
  [u16 field.fieldId, u16 field.order, u8 field.type, u8 field.flags, u16 field.elementCount,
    u16 field.maxElementCount, f64One, f64Zero, u16 0]

def writeFieldRecord (w : Writer) (field : FieldDesc) : Writer × Bool :=
  writeSized w fun w =>
    match w.puts (fieldHead field) with
    | (w, true) => utf8s w [field.name, field.unit, ""]
    | (w, false) => (w, false)

def writeFields (w : Writer) : List FieldDesc → Writer × Bool
  | [] => (w, true)
  | field :: fields =>
    match writeFieldRecord w field with
    | (w, true) => writeFields w fields
    | (w, false) => (w, false)

/-- A topic as far as its texts. -/
def topicHead (topic : TopicDesc) : List Bytes :=
  [u16 topic.topicId, u16 kSchemaVersion, u8 kEncodingPackedLe, u8 kTopicFlagSubscribable,
    u16 topic.fields.length.toUInt16, u32 topic.maxRateMillihz]

def writeTopicRecord (w : Writer) (topic : TopicDesc) : Writer × Bool :=
  writeSized w fun w =>
    match w.puts (topicHead topic) with
    | (w, true) =>
      match utf8s w [topic.name, ""] with
      | (w, true) => writeFields w topic.fields
      | (w, false) => (w, false)
    | (w, false) => (w, false)

/-- The cursor after the topics that fitted and the beginning of the one that did not, and the
number of those that fitted. -/
def writeTopics (w : Writer) : List TopicDesc → Writer × Nat
  | [] => (w, 0)
  | topic :: topics =>
    match writeTopicRecord w topic with
    | (w, true) =>
      let (w, written) := writeTopics w topics
      (w, written + 1)
    | (w, false) => (w, 0)

/-- The octets up to the cursor and the number of topics, which is counted in 16 bits. -/
def writeRecords (capacity : Nat) (topics : List TopicDesc) : Bytes × UInt16 :=
  let (w, written) := writeTopics { out := [], capacity } topics
  (w.out, written.toUInt16)

def topicRecords : Bytes × UInt16 := writeRecords kRecordsCapacity kTopicDescs

/-! ## What a write leaves -/

/-- A write appends `data` if it is `able` to and there is room. Else it fails, and leaves what
it had appended so far. -/
structure Emits (write : Writer → Writer × Bool) (data : Bytes) (able : Prop) : Prop where
  done : ∀ w, able → w.out.length + data.length ≤ w.capacity →
    write w = ({ w with out := w.out ++ data }, true)
  stopped : ∀ w, w.out.length ≤ w.capacity → ¬(able ∧ w.out.length + data.length ≤ w.capacity) →
    ∃ part, write w = ({ w with out := w.out ++ part }, false)

section emits

variable {write first next body : Writer → Writer × Bool} {data data' : Bytes} {able able' : Prop}

theorem Emits.congr (h : Emits write data able) (hdata : data = data') (hable : able ↔ able') :
    Emits write data' able' := by
  rw [← hdata, ← propext hable]
  exact h

theorem emits_nothing : Emits (fun w => (w, true)) [] True where
  done w _ _ := by rw [List.append_nil]
  stopped w hroom hnot := absurd ⟨trivial, hroom⟩ hnot

theorem emits_refused (data : Bytes) (h : ¬able) : Emits (fun w => (w, false)) data able where
  done _ hable _ := absurd hable h
  stopped w _ _ := ⟨[], by rw [List.append_nil]⟩

theorem emits_raw (data : Bytes) : Emits (·.raw data) data True where
  done w _ hroom := if_neg (by omega)
  stopped w _ hnot := by
    refine ⟨[], ?_⟩
    rw [List.append_nil]
    exact if_pos (by simpa using hnot)

/-- One write, and the other if the first was taken. -/
theorem Emits.andThen (h : Emits first data able) (h' : Emits next data' able') :
    Emits
      (fun w => match first w with
        | (w, true) => next w
        | (w, false) => (w, false))
      (data ++ data') (able ∧ able') where
  done w hable hroom := by
    rw [List.length_append] at hroom
    have hrest : (w.out ++ data).length + data'.length ≤ w.capacity := by
      rw [List.length_append]
      omega
    rw [h.done w hable.1 (by omega)]
    dsimp only
    rw [h'.done _ hable.2 hrest, List.append_assoc]
  stopped w hroom hnot := by
    by_cases hfirst : able ∧ w.out.length + data.length ≤ w.capacity
    · have hlength : (w.out ++ data).length ≤ w.capacity := by
        rw [List.length_append]
        exact hfirst.2
      have hrest : ¬(able' ∧ (w.out ++ data).length + data'.length ≤ w.capacity) := by
        rintro ⟨hable', hfits⟩
        rw [List.length_append] at hfits
        refine hnot ⟨⟨hfirst.1, hable'⟩, ?_⟩
        rw [List.length_append]
        omega
      obtain ⟨part, hpart⟩ := h'.stopped { w with out := w.out ++ data } hlength hrest
      rw [h.done w hfirst.1 hfirst.2]
      refine ⟨data ++ part, ?_⟩
      dsimp only
      rw [hpart, List.append_assoc]
    · obtain ⟨part, hpart⟩ := h.stopped w hroom hfirst
      rw [hpart]
      exact ⟨part, rfl⟩

theorem emits_puts (pieces : List Bytes) : Emits (·.puts pieces) pieces.flatten True := by
  induction pieces with
  | nil => exact emits_nothing
  | cons piece pieces ih => exact ((emits_raw piece).andThen ih).congr rfl (iff_of_eq (and_true _))

/-- The octets with their number in front. -/
def sized (data : Bytes) : Bytes := u32 data.length.toUInt32 ++ data

theorem length_sized (data : Bytes) : (sized data).length = 4 + data.length := by
  rw [sized, List.length_append]
  rfl

/-- With no room for the size nothing is left of what did not fit. -/
theorem Emits.sized_stopped (h : Emits body data able) {w : Writer}
    (hroom : w.out.length ≤ w.capacity)
    (hnot : ¬(able ∧ w.out.length + (sized data).length ≤ w.capacity)) :
    ∃ part, writeSized w body = ({ w with out := w.out ++ part }, false) ∧
      (part = [] ↔ w.capacity < w.out.length + 4) := by
  have hfour : (u32 0).length = 4 := rfl
  rw [length_sized] at hnot
  rw [writeSized]
  by_cases hsize : w.out.length + 4 ≤ w.capacity
  · have hreserved : (w.out ++ u32 0).length = w.out.length + 4 := List.length_append
    obtain ⟨part, hpart⟩ := h.stopped { w with out := w.out ++ u32 0 } (hreserved.trans_le hsize)
      fun hfits => hnot ⟨hfits.1, by rw [← Nat.add_assoc, ← hreserved]; exact hfits.2⟩
    rw [(emits_raw (u32 0)).done w trivial (by omega)]
    dsimp only
    rw [hpart]
    exact ⟨u32 0 ++ part, by rw [List.append_assoc], iff_of_false nofun (Nat.not_lt.2 hsize)⟩
  · refine ⟨[], ?_, iff_of_true rfl (Nat.not_le.1 hsize)⟩
    rw [Writer.raw, if_pos (by omega), List.append_nil]

theorem Emits.sized (h : Emits body data able) : Emits (writeSized · body) (sized data) able where
  done w hable hroom := by
    have hfour : (u32 0).length = 4 := rfl
    have hreserved : (w.out ++ u32 0).length = w.out.length + 4 := List.length_append
    rw [length_sized] at hroom
    have hsize : (w.out ++ u32 0 ++ data).length - (w.out ++ u32 0).length = data.length := by
      rw [List.length_append, Nat.add_sub_cancel_left]
    have hpatch : (w.out ++ u32 0 ++ data).take w.out.length ++ u32 data.length.toUInt32 ++
        (w.out ++ u32 0 ++ data).drop (w.out.length + 4) =
          w.out ++ DonglePublisher.sized data := by
      rw [List.drop_left' hreserved, List.append_assoc w.out, List.take_left, List.append_assoc,
        DonglePublisher.sized]
    rw [writeSized, (emits_raw (u32 0)).done w trivial (by omega)]
    dsimp only
    rw [h.done { w with out := w.out ++ u32 0 } hable (by dsimp only; omega)]
    dsimp only
    rw [hsize, Writer.patchU32, hpatch]
  stopped w hroom hnot := by
    obtain ⟨part, hpart, -⟩ := h.sized_stopped hroom hnot
    exact ⟨part, hpart⟩

end emits

/-! ## The records -/

def textOctets (text : String) : Bytes := u16 (literal text).length.toUInt16 ++ literal text

/-- The length of a text can be written. -/
def Short (text : String) : Prop := (literal text).length ≤ 0xFFFF

instance (text : String) : Decidable (Short text) := inferInstanceAs (Decidable (_ ≤ _))

def fieldOctets (field : FieldDesc) : Bytes :=
  sized ((fieldHead field).flatten ++ [field.name, field.unit, ""].flatMap textOctets)

def topicOctets (topic : TopicDesc) : Bytes :=
  sized ((topicHead topic).flatten ++
    ([topic.name, ""].flatMap textOctets ++ topic.fields.flatMap fieldOctets))

def FieldDesc.Writable (field : FieldDesc) : Prop := ∀ text ∈ [field.name, field.unit, ""], Short text

def TopicDesc.Writable (topic : TopicDesc) : Prop :=
  (∀ text ∈ [topic.name, ""], Short text) ∧ ∀ field ∈ topic.fields, field.Writable

instance (field : FieldDesc) : Decidable field.Writable := inferInstanceAs (Decidable (∀ _ ∈ _, _))

instance (topic : TopicDesc) : Decidable topic.Writable := inferInstanceAs (Decidable (_ ∧ _))

def textsSize (texts : List String) : Nat := (texts.map fun text => 2 + (literal text).length).sum

def fieldRecordSize (field : FieldDesc) : Nat :=
  4 + (28 + textsSize [field.name, field.unit, ""])

def topicRecordSize (topic : TopicDesc) : Nat :=
  4 + (12 + (textsSize [topic.name, ""] + (topic.fields.map fieldRecordSize).sum))

theorem length_texts (texts : List String) : (texts.flatMap textOctets).length = textsSize texts := by
  have htext : ∀ text, (textOctets text).length = 2 + (literal text).length := fun text => by
    rw [textOctets, List.length_append]
    rfl
  simp only [List.length_flatMap, htext, textsSize]

theorem length_fieldOctets (field : FieldDesc) : (fieldOctets field).length = fieldRecordSize field := by
  rw [fieldOctets, length_sized, List.length_append, length_texts]
  rfl

theorem length_topicOctets (topic : TopicDesc) : (topicOctets topic).length = topicRecordSize topic := by
  rw [topicOctets, length_sized, List.length_append, List.length_append, length_texts,
    List.length_flatMap, topicRecordSize]
  simp only [length_fieldOctets]
  rfl

theorem length_le_flatMap {α β : Type} {f : α → List β} {xs : List α} {x : α} (h : x ∈ xs) :
    (f x).length ≤ (xs.flatMap f).length := by
  rw [List.flatMap_def]
  exact (List.sublist_flatten_of_mem (List.mem_map_of_mem h)).length_le

/-- What is no longer than a text may be has no text in it that is. -/
theorem short_of_length {texts : List String} (h : (texts.flatMap textOctets).length ≤ 0xFFFF) :
    ∀ text ∈ texts, Short text := by
  intro text htext
  have hle := @length_le_flatMap _ _ textOctets _ _ htext
  rw [textOctets, List.length_append] at hle
  rw [Short]
  omega

theorem FieldDesc.writable_of_length {field : FieldDesc} (h : (fieldOctets field).length ≤ 0xFFFF) :
    field.Writable := by
  rw [fieldOctets, length_sized, List.length_append] at h
  exact short_of_length (by omega)

theorem TopicDesc.writable_of_length {topic : TopicDesc} (h : (topicOctets topic).length ≤ 0xFFFF) :
    topic.Writable := by
  rw [topicOctets, length_sized, List.length_append, List.length_append] at h
  refine ⟨short_of_length (by omega), fun field hfield => ?_⟩
  have hle := @length_le_flatMap _ _ fieldOctets _ _ hfield
  exact field.writable_of_length (by omega)

theorem emits_utf8 (text : String) : Emits (utf8 · text) (textOctets text) (Short text) := by
  have hpieces : (u16 (literal text).length.toUInt16 ::
      if literal text = [] then [] else [literal text]).flatten = textOctets text := by
    rw [List.flatten_cons, textOctets]
    split
    · rename_i hempty
      rw [hempty]
      rfl
    · rw [List.flatten_singleton]
  by_cases hshort : Short text
  · have hputs := (emits_puts (u16 (literal text).length.toUInt16 ::
      if literal text = [] then [] else [literal text])).congr hpieces (iff_of_true trivial hshort)
    have hwrite : (utf8 · text) = (·.puts (u16 (literal text).length.toUInt16 ::
        if literal text = [] then [] else [literal text])) :=
      funext fun w => if_neg (Nat.not_lt.2 hshort)
    rw [hwrite]
    exact hputs
  · have hwrite : (utf8 · text) = fun w => (w, false) :=
      funext fun w => if_pos (Nat.not_le.1 hshort)
    rw [hwrite]
    exact emits_refused _ hshort

theorem emits_utf8s (texts : List String) :
    Emits (utf8s · texts) (texts.flatMap textOctets) (∀ text ∈ texts, Short text) := by
  induction texts with
  | nil => exact emits_nothing.congr rfl (by simp)
  | cons text texts ih =>
    exact ((emits_utf8 text).andThen ih).congr List.flatMap_cons.symm List.forall_mem_cons.symm

theorem emits_fieldRecord (field : FieldDesc) :
    Emits (writeFieldRecord · field) (fieldOctets field) field.Writable :=
  (((emits_puts (fieldHead field)).andThen (emits_utf8s _)).congr rfl (iff_of_eq (true_and _))).sized

theorem emits_fields (fields : List FieldDesc) :
    Emits (writeFields · fields) (fields.flatMap fieldOctets) (∀ field ∈ fields, field.Writable) := by
  induction fields with
  | nil => exact emits_nothing.congr rfl (by simp)
  | cons field fields ih =>
    exact ((emits_fieldRecord field).andThen ih).congr List.flatMap_cons.symm
      List.forall_mem_cons.symm

/-- A topic between its size and its end. -/
theorem emits_topicContent (topic : TopicDesc) :
    Emits
      (fun w => match w.puts (topicHead topic) with
        | (w, true) =>
          match utf8s w [topic.name, ""] with
          | (w, true) => writeFields w topic.fields
          | (w, false) => (w, false)
        | (w, false) => (w, false))
      ((topicHead topic).flatten ++
        ([topic.name, ""].flatMap textOctets ++ topic.fields.flatMap fieldOctets))
      topic.Writable :=
  ((emits_puts (topicHead topic)).andThen
    ((emits_utf8s [topic.name, ""]).andThen (emits_fields topic.fields))).congr rfl (iff_of_eq (true_and _))

theorem emits_topicRecord (topic : TopicDesc) :
    Emits (writeTopicRecord · topic) (topicOctets topic) topic.Writable :=
  (emits_topicContent topic).sized

/-- Topics with room for all are all written. -/
theorem writeTopics_all {w : Writer} {topics : List TopicDesc}
    (hable : ∀ topic ∈ topics, topic.Writable)
    (hroom : w.out.length + (topics.flatMap topicOctets).length ≤ w.capacity) :
    writeTopics w topics = ({ w with out := w.out ++ topics.flatMap topicOctets }, topics.length) := by
  induction topics generalizing w with
  | nil => rw [writeTopics, List.flatMap_nil, List.append_nil, List.length_nil]
  | cons topic topics ih =>
    rw [List.flatMap_cons, List.length_append] at hroom
    rw [List.forall_mem_cons] at hable
    have hrest : (w.out ++ topicOctets topic).length + (topics.flatMap topicOctets).length ≤
        w.capacity := by
      rw [List.length_append]
      omega
    rw [writeTopics, (emits_topicRecord topic).done w hable.1 (by omega)]
    dsimp only
    rw [ih (w := { w with out := w.out ++ topicOctets topic }) hable.2 hrest]
    simp only [List.flatMap_cons, List.append_assoc, List.length_cons]

theorem isRecord_sized {data : Bytes} (h : data.length < 2 ^ 32) : IsRecord (sized data) := by
  have hread := readU32_le32 data.length.toUInt32 []
  rw [List.append_nil] at hread
  refine ⟨data.length, ?_, length_sized data⟩
  show recordSize (le32 data.length.toUInt32) = _
  rw [recordSize, hread, Option.map_some]
  exact congrArg some (UInt32.toNat_ofNat_of_lt' h)

theorem isRecord_topicOctets {topic : TopicDesc} (h : (topicOctets topic).length < 2 ^ 32) :
    IsRecord (topicOctets topic) := by
  rw [topicOctets, length_sized] at h
  exact isRecord_sized (by omega)

theorem isRecord_fieldOctets {field : FieldDesc} (h : (fieldOctets field).length < 2 ^ 32) :
    IsRecord (fieldOctets field) := by
  rw [fieldOctets, length_sized] at h
  exact isRecord_sized (by omega)

/-! ## The dongle's own topics -/

theorem length_kTopicDescs_octets : (kTopicDescs.flatMap topicOctets).length = 1741 := by
  have hsum : (kTopicDescs.map topicRecordSize).sum = 1741 := by decide +kernel
  rw [List.length_flatMap, ← hsum]
  simp only [length_topicOctets]

theorem kTopicDescs_writable : ∀ topic ∈ kTopicDescs, topic.Writable := by
  intro topic htopic
  have hlength := @length_le_flatMap _ _ topicOctets _ _ htopic
  rw [length_kTopicDescs_octets] at hlength
  exact topic.writable_of_length (by omega)

/-- The buffer holds all of them. -/
theorem topicRecords_eq : topicRecords = (kTopicDescs.flatMap topicOctets, 3) := by
  have hwrite := writeTopics_all (w := { out := [], capacity := kRecordsCapacity })
    kTopicDescs_writable (by rw [length_kTopicDescs_octets]; decide)
  rw [topicRecords, writeRecords, hwrite]
  dsimp only
  rw [List.nil_append]
  rfl

theorem length_topicRecords : topicRecords.1.length = 1741 := by
  rw [topicRecords_eq]
  exact length_kTopicDescs_octets

/-- The dongle's own topics are one record each. -/
theorem topicRecords_records :
    ∃ rs, Records topicRecords.1 rs ∧ rs.length = topicRecords.2.toNat ∧
      topicRecords.2.toNat = kTopicDescs.length := by
  rw [topicRecords_eq]
  refine ⟨kTopicDescs.map topicOctets, ⟨List.flatMap_def, fun r hr => ?_, by decide⟩, rfl, rfl⟩
  obtain ⟨topic, htopic, rfl⟩ := List.mem_map.1 hr
  have hlength := @length_le_flatMap _ _ topicOctets _ _ htopic
  rw [length_kTopicDescs_octets] at hlength
  exact isRecord_topicOctets (by omega)

end BallyDongle.DonglePublisher
