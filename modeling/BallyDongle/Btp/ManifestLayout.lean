import BallyDongle.Btp.Manifest
import Mathlib.Data.Option.Basic

/-!
# A reader and a writer of MANIFEST_DATA

The layout that `test_manifest_cache` builds payloads by, read and written: a
head of sixty octets, the name, the source_info block from format 2 on, the
records. `layout_reader` and `layout_writer` show that the pair is as the
firmware relies on.
-/

namespace BallyDongle.Btp.Layout

/-! ## The head -/

def take8 : Bytes → Option (UInt8 × Bytes)
  | [] => none
  | b :: data => some (b, data)

def take16 (data : Bytes) : Option (UInt16 × Bytes) := (readU16 data 0).map (·, data.drop 2)

def take32 (data : Bytes) : Option (UInt32 × Bytes) := (readU32 data 0).map (·, data.drop 4)

def takeUuid (data : Bytes) : Option (Vector UInt8 16 × Bytes) :=
  if h : (data.take 16).length = 16 then some (⟨(data.take 16).toArray, by simpa using h⟩, data.drop 16)
  else none

@[simp] theorem take16_le16 (v : UInt16) (rest : Bytes) : take16 (le16 v ++ rest) = some (v, rest) := by
  rw [take16, readU16_le16]
  rfl

@[simp] theorem take32_le32 (v : UInt32) (rest : Bytes) : take32 (le32 v ++ rest) = some (v, rest) := by
  rw [take32, readU32_le32]
  rfl

@[simp] theorem takeUuid_toList (uuid : Vector UInt8 16) (rest : Bytes) :
    takeUuid (uuid.toList ++ rest) = some (uuid, rest) := by
  have hlen : uuid.toList.length = 16 := by simp
  have htake : (uuid.toList ++ rest).take 16 = uuid.toList := List.take_left' hlen
  have hdrop : (uuid.toList ++ rest).drop 16 = rest := List.drop_left' hlen
  have hback : uuid.toList.toArray = uuid.toArray := by
    simp [Vector.toList]
  simp [takeUuid, htake, hdrop, hback]

/-- What the head may say: a known role and format, a name whose length fits. -/
def validHead (h : ManifestHeader) : Bool :=
  (h.sourceRole = 1 || h.sourceRole = 2) && 1 ≤ h.manifestFormatVersion &&
    h.manifestFormatVersion ≤ 3 && h.sourceName.length < 2 ^ 16

def readFields (data : Bytes) : Option ManifestHeader := do
  let (requestSourceId, data) ← take32 data
  let (requestBootId, data) ← take32 data
  let (replyToSequence, data) ← take32 data
  let (status, data) ← take8 data
  let (flags, data) ← take8 data
  let (errorCode, data) ← take16 data
  let (manifestFormatVersion, data) ← take16 data
  let (reserved, data) ← take16 data
  let (configRevision, data) ← take32 data
  let (sourceUuid, data) ← takeUuid data
  let (describedSourceId, data) ← take32 data
  let (describedBootId, data) ← take32 data
  let (sourceRole, data) ← take8 data
  let (sourceFlags, data) ← take8 data
  let (catalogIndex, data) ← take16 data
  let (catalogCount, data) ← take16 data
  let (topicCount, data) ← take16 data
  let (actionCount, data) ← take16 data
  let (nameLength, data) ← take16 data
  guard (reserved = 0 ∧ nameLength.toNat ≤ data.length)
  return {
    request := { requestSourceId, requestBootId, replyToSequence }
    status, flags, errorCode, manifestFormatVersion, configRevision, sourceUuid
    describedSourceId, describedBootId, sourceRole, sourceFlags, catalogIndex, catalogCount
    topicCount, actionCount, sourceName := data.take nameLength.toNat }

def readHead (data : Bytes) : Option ManifestHeader := (readFields data).filter validHead

def putHead (h : ManifestHeader) : Bytes :=
  le32 h.request.requestSourceId ++ (le32 h.request.requestBootId ++
    (le32 h.request.replyToSequence ++ (h.status :: h.flags :: (le16 h.errorCode ++
    (le16 h.manifestFormatVersion ++ (le16 0 ++ (le32 h.configRevision ++
    (h.sourceUuid.toList ++ (le32 h.describedSourceId ++ (le32 h.describedBootId ++
    (h.sourceRole :: h.sourceFlags :: (le16 h.catalogIndex ++ (le16 h.catalogCount ++
    (le16 h.topicCount ++ (le16 h.actionCount ++
    (le16 h.sourceName.length.toUInt16 ++ h.sourceName))))))))))))))))

theorem length_putHead (h : ManifestHeader) :
    (putHead h).length = kManifestHeadSize + h.sourceName.length := by
  simp [putHead, le16, le32, kManifestHeadSize]
  omega

theorem bind_take8 {α : Type} (b : UInt8) (rest : Bytes) (f : UInt8 × Bytes → Option α) :
    (take8 (b :: rest) >>= f) = f (b, rest) := rfl

theorem bind_take16 {α : Type} (v : UInt16) (rest : Bytes) (f : UInt16 × Bytes → Option α) :
    (take16 (le16 v ++ rest) >>= f) = f (v, rest) := by
  rw [take16_le16]
  rfl

theorem bind_take32 {α : Type} (v : UInt32) (rest : Bytes) (f : UInt32 × Bytes → Option α) :
    (take32 (le32 v ++ rest) >>= f) = f (v, rest) := by
  rw [take32_le32]
  rfl

theorem bind_takeUuid {α : Type} (uuid : Vector UInt8 16) (rest : Bytes)
    (f : Vector UInt8 16 × Bytes → Option α) :
    (takeUuid (uuid.toList ++ rest) >>= f) = f (uuid, rest) := by
  rw [takeUuid_toList]
  rfl

theorem readHead_putHead {h : ManifestHeader} (hv : validHead h = true) (rest : Bytes) :
    readHead (putHead h ++ rest) = some h := by
  have hlen : h.sourceName.length < 2 ^ 16 := by
    simp [validHead] at hv
    omega
  have hnat : h.sourceName.length.toUInt16.toNat = h.sourceName.length := by
    simp [Nat.toUInt16]
    omega
  have hfields : readFields (putHead h ++ rest) = some h := by
    rw [readFields, putHead]
    simp only [List.append_assoc, List.cons_append]
    -- each field is taken before the rest is looked at
    simp only [↓bind_take32, ↓bind_take16, ↓bind_take8, ↓bind_takeUuid]
    simp [hnat]
  rw [readHead, hfields, Option.filter_some, if_pos hv]

theorem readHead_valid {data : Bytes} {h : ManifestHeader} (hr : readHead data = some h) :
    validHead h = true :=
  (Option.filter_eq_some_iff.1 hr).2

/-! ## The parts behind the head -/

/-- The `u16` length of a text. -/
def textSize (front : Bytes) : Option Nat := (readU16 front 0).map UInt16.toNat

/-- A block: the number of entries, then a key, a label and a value for each. -/
def takeInfo (data : Bytes) : Option (Bytes × Bytes) := do
  let (count, rest) ← take16 data
  let (texts, rest) ← SizedFields.takeFields 2 textSize (3 * count.toNat) rest
  return (data.take 2 ++ texts.flatten, rest)

theorem readU16_take {data : Bytes} {v : UInt16} (h : readU16 data 0 = some v) :
    2 ≤ data.length ∧ ∀ rest, readU16 (data.take 2 ++ rest) 0 = some v := by
  rw [readU16, List.drop_zero] at h
  match data, h with
  | b0 :: b1 :: _, h => exact ⟨by simp, fun _ => h⟩

theorem takeInfo_eq_some {data info rest : Bytes} (h : takeInfo data = some (info, rest)) :
    data = info ++ rest ∧ 2 ≤ info.length ∧ ∀ rest', takeInfo (info ++ rest') = some (info, rest') := by
  rw [takeInfo, Option.bind_eq_bind, Option.bind_eq_some_iff] at h
  obtain ⟨⟨count, tail⟩, hcount, h⟩ := h
  rw [Option.bind_eq_bind, Option.bind_eq_some_iff] at h
  obtain ⟨⟨texts, tail'⟩, htexts, h⟩ := h
  cases h
  rw [take16, Option.map_eq_some_iff] at hcount
  obtain ⟨v, hread, hv⟩ := hcount
  cases hv
  obtain ⟨hlen, hhex⟩ := readU16_take hread
  obtain ⟨hsplit, htotal, hfields⟩ := SizedFields.takeFields_eq_some htexts
  have htwo : (data.take 2).length = 2 := by
    rw [List.length_take]
    omega
  refine ⟨?_, ?_, fun rest' => ?_⟩
  · rw [List.append_assoc, ← hsplit, List.take_append_drop]
  · rw [List.length_append]
    omega
  · rw [List.append_assoc, takeInfo, take16, hhex, Option.map_some, Option.bind_eq_bind,
      Option.bind_some, List.drop_left' htwo, List.take_left' htwo]
    dsimp only
    rw [← htotal, SizedFields.takeFields_append hfields]
    rfl

theorem takeInfo_empty (rest : Bytes) : takeInfo (kEmptySourceInfo ++ rest) = some ([0, 0], rest) := rfl

/-! ## The reader -/

/-- What follows the head and its name. -/
def afterHead (payload : Bytes) (h : ManifestHeader) : Bytes :=
  payload.drop (kManifestHeadSize + h.sourceName.length)

/-- The block, which format 1 does not have, and what follows it. -/
def splitInfo (payload : Bytes) (h : ManifestHeader) : Option (Bytes × Bytes) :=
  if h.manifestFormatVersion < 2 then some ([], afterHead payload h)
  else takeInfo (afterHead payload h)

def splitRecords (payload : Bytes) : Option (ByteView × ByteView) := do
  let h ← readHead payload
  let (_, data) ← splitInfo payload h
  let (topics, data') ← SizedFields.takeFields 4 recordSize h.topicCount.toNat data
  let (actions, data'') ← SizedFields.takeFields 4 recordSize h.actionCount.toNat data'
  if data'' = [] then
    some ({ offset := payload.length - data.length, size := topics.flatten.length },
      { offset := payload.length - data'.length, size := actions.flatten.length })
  else none

def orError {α : Type} (r : Option α) : Except MessageError α :=
  match r with
  | none => .error .other
  | some a => .ok a

theorem orError_eq_ok {α : Type} {r : Option α} {a : α} : orError r = .ok a ↔ r = some a := by
  cases r <;> simp [orError]

def reader : ManifestReader where
  header payload := orError (readHead payload)
  rawSourceInfo payload :=
    orError do
      let h ← readHead payload
      let (info, _) ← splitInfo payload h
      return info
  rawRecords payload := orError (splitRecords payload)

theorem splitInfo_suffix {payload info data : Bytes} {h : ManifestHeader}
    (hs : splitInfo payload h = some (info, data)) : ∃ front, payload = front ++ data := by
  have hafter : payload = payload.take (kManifestHeadSize + h.sourceName.length) ++
      afterHead payload h := (List.take_append_drop ..).symm
  rw [splitInfo] at hs
  split at hs
  · cases hs
    exact ⟨_, hafter⟩
  · obtain ⟨hsplit, -, -⟩ := takeInfo_eq_some hs
    rw [hsplit, ← List.append_assoc] at hafter
    exact ⟨_, hafter⟩

/-- What `splitRecords` found, behind a head and a block. -/
structure Split (payload : Bytes) (h : ManifestHeader) (t a : ByteView) (front : Bytes)
    (ts as : List Bytes) : Prop where
  payload_eq : payload = front ++ (ts.flatten ++ as.flatten)
  topics : t = { offset := front.length, size := ts.flatten.length }
  actions : a = { offset := front.length + ts.flatten.length, size := as.flatten.length }
  topicCount : ts.length = h.topicCount.toNat
  actionCount : as.length = h.actionCount.toNat
  framedTopics : ∀ r ∈ ts, IsRecord r
  framedActions : ∀ r ∈ as, IsRecord r

theorem splitRecords_eq_some {payload : Bytes} {t a : ByteView}
    (hs : splitRecords payload = some (t, a)) :
    ∃ h front ts as, readHead payload = some h ∧ Split payload h t a front ts as := by
  simp only [splitRecords, Option.bind_eq_bind, Option.bind_eq_some_iff, Option.ite_none_right_eq_some,
    Option.some.injEq, Prod.exists, Prod.mk.injEq] at hs
  obtain ⟨h, hh, info, data, hinfo, ts, data', hts, as, data'', has, hend, rfl, rfl⟩ := hs
  subst hend
  obtain ⟨front, hfront⟩ := splitInfo_suffix hinfo
  obtain ⟨hdata, htopics, hframed⟩ := SizedFields.takeFields_eq_some hts
  obtain ⟨hdata', hactions, hframed'⟩ := SizedFields.takeFields_eq_some has
  rw [List.append_nil] at hdata'
  subst hdata' hdata hfront
  refine ⟨h, front, ts, as, hh, ⟨rfl, ?_, ?_, htopics, hactions, hframed, hframed'⟩⟩
  · simp
  · simp
    omega

theorem reader_laws : ReaderLaws reader where
  adjacent := by
    intro payload topics actions hr
    obtain ⟨h, front, ts, as, -, hs⟩ := splitRecords_eq_some (orError_eq_ok.1 hr)
    rw [hs.topics, hs.actions]
  within := by
    intro payload topics actions hr
    obtain ⟨h, front, ts, as, -, hs⟩ := splitRecords_eq_some (orError_eq_ok.1 hr)
    rw [hs.actions, hs.payload_eq]
    simp
    omega
  counted := by
    intro payload header topics actions hh hr
    obtain ⟨h, front, ts, as, hread, hs⟩ := splitRecords_eq_some (orError_eq_ok.1 hr)
    cases hread.symm.trans (orError_eq_ok.1 hh)
    have htopics : topics.octets payload = ts.flatten := by
      rw [hs.topics, hs.payload_eq, ByteView.octets, slice, List.drop_left, List.take_left]
    have hactions : actions.octets payload = as.flatten := by
      rw [hs.actions, hs.payload_eq, ByteView.octets, slice, ← List.append_assoc,
        List.drop_left' (by simp), List.take_length]
    refine ⟨ts, as, ⟨htopics, hs.framedTopics, ?_⟩, ⟨hactions, hs.framedActions, ?_⟩,
      hs.topicCount, hs.actionCount⟩
    · rw [hs.topicCount]
      exact header.topicCount.toNat_lt
    · rw [hs.actionCount]
      exact header.actionCount.toNat_lt

/-! ## The writer -/

/-- The records that fit, up to the first that does not. -/
def fitting (room : Nat) : List Bytes → List Bytes
  | [] => []
  | r :: rs => if r.length ≤ room then r :: fitting (room - r.length) rs else []

structure Draft where
  capacity : Nat
  header : Option ManifestHeader := none
  info : Bytes := kEmptySourceInfo
  topics : List Bytes := []
  actions : List Bytes := []

/-- The octets in front of the records. -/
def Draft.front (d : Draft) : Nat :=
  (d.header.map fun h => kManifestHeadSize + h.sourceName.length).getD 0 + d.info.length

def Draft.begin (d : Draft) (h : ManifestHeader) : Option Draft :=
  if validHead h && 2 ≤ h.manifestFormatVersion &&
      ({ d with header := some h } : Draft).front ≤ d.capacity then
    some { d with header := some h }
  else none

def Draft.putInfo (d : Draft) (info : Bytes) : Option Draft :=
  if ({ d with info } : Draft).front ≤ d.capacity then some { d with info } else none

def Draft.putRecords (d : Draft) (topics actions : Bytes) : Option Draft := do
  let ts ← SizedFields.allFields 4 recordSize topics.length topics
  let as ← SizedFields.allFields 4 recordSize actions.length actions
  let ts := fitting (d.capacity - d.front) ts
  let as := fitting (d.capacity - d.front - ts.flatten.length) as
  some { d with topics := ts, actions := as }

def Draft.finish (d : Draft) : Option Bytes :=
  d.header.map fun h =>
    putHead (h.withCounts d.topics.length d.actions.length) ++
      (d.info ++ (d.topics.flatten ++ d.actions.flatten))

def writer : ManifestWriter where
  State := Draft
  start outCapacity := { capacity := outCapacity }
  begin := Draft.begin
  putRawSourceInfo := Draft.putInfo
  putRawRecords := Draft.putRecords
  finish := Draft.finish

theorem fitting_prefix (room : Nat) (rs : List Bytes) : fitting room rs <+: rs := by
  induction rs generalizing room with
  | nil => exact List.prefix_refl []
  | cons r rs ih =>
    rw [fitting]
    split
    · exact List.cons_prefix_cons.2 ⟨rfl, ih _⟩
    · exact List.nil_prefix

theorem fitting_all {room : Nat} {rs : List Bytes} (h : rs.flatten.length ≤ room) :
    fitting room rs = rs := by
  induction rs generalizing room with
  | nil => rfl
  | cons r rs ih =>
    rw [List.flatten_cons, List.length_append] at h
    rw [fitting, if_pos (by omega), ih (by omega)]

theorem length_fitting_le (room : Nat) (rs : List Bytes) :
    (fitting room rs).flatten.length ≤ room := by
  induction rs generalizing room with
  | nil => exact Nat.zero_le room
  | cons r rs ih =>
    rw [fitting]
    split
    · rw [List.flatten_cons, List.length_append]
      have := ih (room - r.length)
      omega
    · exact Nat.zero_le room

theorem allFields_records {run : Bytes} {rs : List Bytes} (h : Records run rs) :
    SizedFields.allFields 4 recordSize run.length run = some rs := by
  rw [h.run_eq]
  exact SizedFields.allFields_flatten (by decide) h.framed
    (SizedFields.length_le_flatten (by decide) h.framed)

theorem validHead_iff {h : ManifestHeader} :
    validHead h = true ↔ (h.sourceRole = 1 ∨ h.sourceRole = 2) ∧ 1 ≤ h.manifestFormatVersion ∧
      h.manifestFormatVersion ≤ 3 ∧ h.sourceName.length < 2 ^ 16 := by
  simp [validHead, and_assoc]

/-- A head the catalog writes is one the reader takes. -/
theorem validHead_describes {h : ManifestHeader} (hd : Describes reader h) :
    validHead h = true ∧ h.manifestFormatVersion = 3 := by
  cases hd with
  | relayed request flags sourceFlags catalogIndex catalogCount carried success carried' =>
    have hhead := validHead_iff.1 (readHead_valid (orError_eq_ok.1 carried))
    have hname := validHead_iff.1 (readHead_valid (orError_eq_ok.1 carried'))
    refine ⟨validHead_iff.2 ⟨hhead.1, ?_, ?_, ?_⟩, rfl⟩
    · show (1 : UInt16) ≤ 3
      decide
    · show (3 : UInt16) ≤ 3
      decide
    · refine Nat.lt_of_le_of_lt ?_ hname.2.2.2
      refine Nat.le_trans (List.takeWhile_prefix _).length_le ?_
      rw [List.length_take]
      omega
  | dongle success format role name =>
    refine ⟨validHead_iff.2 ⟨.inr role, ?_, ?_, by omega⟩, format⟩
    · rw [format]
      decide
    · rw [format]
      decide

/-- The octets a draft ends as. -/
def finished (h : ManifestHeader) (info : Bytes) (ts as : List Bytes) : Bytes :=
  putHead (h.withCounts ts.length as.length) ++ (info ++ (ts.flatten ++ as.flatten))

theorem putRecords_eq {topics actions : Bytes} {ts as : List Bytes} (d : Draft)
    (hts : Records topics ts) (has : Records actions as) :
    d.putRecords topics actions =
      some { d with
        topics := fitting (d.capacity - d.front) ts
        actions := fitting (d.capacity - d.front -
          (fitting (d.capacity - d.front) ts).flatten.length) as } := by
  rw [Draft.putRecords, allFields_records hts, allFields_records has]
  rfl

section write

variable {h : ManifestHeader} {info : Option Bytes} {topics actions payload : Bytes}
  {ts as : List Bytes} {outCapacity : Nat}

/-- A draft with its head and block. -/
def draft (h : ManifestHeader) (info : Option Bytes) (outCapacity : Nat) : Draft :=
  { capacity := outCapacity, header := some h, info := info.getD kEmptySourceInfo }

theorem draft_front : (draft h info outCapacity).front =
    kManifestHeadSize + h.sourceName.length + (info.getD kEmptySourceInfo).length := rfl

theorem finish_draft (hts : Records topics ts) (has : Records actions as) :
    ((draft h info outCapacity).putRecords topics actions).bind Draft.finish =
      some (finished h (info.getD kEmptySourceInfo)
        (fitting (outCapacity - (draft h info outCapacity).front) ts)
        (fitting (outCapacity - (draft h info outCapacity).front -
          (fitting (outCapacity - (draft h info outCapacity).front) ts).flatten.length) as)) := by
  rw [putRecords_eq _ hts has]
  rfl

theorem write_eq (h : ManifestHeader) (info : Option Bytes) (topics actions : Bytes)
    (outCapacity : Nat) :
    writer.write h info topics actions outCapacity =
      if (validHead h && 2 ≤ h.manifestFormatVersion &&
          (draft h none outCapacity).front ≤ outCapacity) = true ∧
          (info = none ∨ (draft h info outCapacity).front ≤ outCapacity) then
        ((draft h info outCapacity).putRecords topics actions).bind Draft.finish
      else none := by
  have hbegun : writer.begin (writer.start outCapacity) h =
      if (validHead h && 2 ≤ h.manifestFormatVersion &&
          (draft h none outCapacity).front ≤ outCapacity) = true then
        some (draft h none outCapacity)
      else none := rfl
  rw [ManifestWriter.write, hbegun]
  split
  · rename_i hbegin
    cases info with
    | none =>
      rw [if_pos ⟨hbegin, .inl rfl⟩]
      rfl
    | some info =>
      have hput : writer.putRawSourceInfo (draft h none outCapacity) info =
          if (draft h (some info) outCapacity).front ≤ outCapacity then
            some (draft h (some info) outCapacity)
          else none := rfl
      show ((writer.putRawSourceInfo (draft h none outCapacity) info).bind _) = _
      rw [hput]
      split
      · rename_i hinfo
        rw [if_pos ⟨hbegin, .inr hinfo⟩]
        rfl
      · rename_i hinfo
        rw [if_neg fun hboth => hinfo (hboth.2.resolve_left nofun)]
        rfl
  · rename_i hbegin
    rw [if_neg fun hboth => hbegin hboth.1]
    rfl

theorem write_eq_some (hts : Records topics ts) (has : Records actions as)
    (hw : writer.write h info topics actions outCapacity = some payload) :
    ∃ room, outCapacity = kManifestHeadSize + h.sourceName.length +
        (info.getD kEmptySourceInfo).length + room ∧
      payload = finished h (info.getD kEmptySourceInfo) (fitting room ts)
        (fitting (room - (fitting room ts).flatten.length) as) := by
  rw [write_eq, finish_draft hts has, Option.ite_none_right_eq_some] at hw
  obtain ⟨⟨hbegin, hinfo⟩, hw⟩ := hw
  cases hw
  have hfront : (draft h info outCapacity).front ≤ outCapacity := by
    rcases hinfo with rfl | hinfo
    · simp at hbegin
      exact hbegin.2
    · exact hinfo
  refine ⟨outCapacity - (draft h info outCapacity).front, ?_, rfl⟩
  rw [draft_front] at hfront ⊢
  omega

theorem write_isSome (hd : Describes reader h) (hts : Records topics ts) (has : Records actions as)
    (hinfo : 2 ≤ (info.getD kEmptySourceInfo).length)
    (hroom : kManifestHeadSize + h.sourceName.length + (info.getD kEmptySourceInfo).length ≤
      outCapacity) : (writer.write h info topics actions outCapacity).isSome = true := by
  obtain ⟨hvalid, hformat⟩ := validHead_describes hd
  have hbegin : (draft h none outCapacity).front ≤ outCapacity := by
    rw [draft_front]
    show _ + _ + 2 ≤ _
    omega
  rw [write_eq, finish_draft hts has, if_pos]
  · rfl
  · refine ⟨?_, .inr (draft_front ▸ hroom)⟩
    simp [hvalid, hformat, hbegin]

end write

/-! ## Reading what was written -/

section readBack

variable {h : ManifestHeader} {info : Bytes} {ts as : List Bytes}

theorem finished_head (hv : validHead h = true) :
    readHead (finished h info ts as) = some (h.withCounts ts.length as.length) :=
  readHead_putHead (h := h.withCounts ts.length as.length) hv _

theorem finished_after :
    afterHead (finished h info ts as) (h.withCounts ts.length as.length) =
      info ++ (ts.flatten ++ as.flatten) := by
  have hlen := length_putHead (h.withCounts ts.length as.length)
  rw [afterHead, finished, List.drop_left' hlen]

theorem finished_info (hformat : h.manifestFormatVersion = 3)
    (hinfo : ∀ rest, takeInfo (info ++ rest) = some (info, rest)) :
    splitInfo (finished h info ts as) (h.withCounts ts.length as.length) =
      some (info, ts.flatten ++ as.flatten) := by
  have hblock : ¬(h.withCounts ts.length as.length).manifestFormatVersion < 2 := by
    show ¬h.manifestFormatVersion < 2
    rw [hformat]
    decide
  rw [splitInfo, if_neg hblock, finished_after]
  exact hinfo _

theorem slice_suffix (front back : Bytes) (size : Nat) :
    slice (front ++ back) ((front ++ back).length - back.length) size = back.take size := by
  rw [slice, List.length_append, Nat.add_sub_cancel, List.drop_left]

theorem finished_split (hv : validHead h = true) (hformat : h.manifestFormatVersion = 3)
    (hinfo : ∀ rest, takeInfo (info ++ rest) = some (info, rest))
    (hts : ∀ r ∈ ts, IsRecord r) (has : ∀ r ∈ as, IsRecord r) (htn : ts.length < 2 ^ 16)
    (han : as.length < 2 ^ 16) :
    Carries reader (finished h info ts as) (h.withCounts ts.length as.length) info ts.flatten
      as.flatten := by
  have hhead : readHead (finished h info ts as) = some (h.withCounts ts.length as.length) :=
    finished_head hv
  have hsplit : splitInfo (finished h info ts as) (h.withCounts ts.length as.length) =
      some (info, ts.flatten ++ as.flatten) := finished_info hformat hinfo
  have htopics := SizedFields.takeFields_append hts as.flatten
  have hactions := SizedFields.takeFields_append has []
  have htcount : (h.withCounts ts.length as.length).topicCount.toNat = ts.length := by
    show ts.length.toUInt16.toNat = _
    simp [Nat.toUInt16]
    omega
  have hacount : (h.withCounts ts.length as.length).actionCount.toNat = as.length := by
    show as.length.toUInt16.toNat = _
    simp [Nat.toUInt16]
    omega
  rw [List.append_nil] at hactions
  have hruns : splitRecords (finished h info ts as) =
      some ({ offset := (finished h info ts as).length - (ts.flatten ++ as.flatten).length
              size := ts.flatten.length },
        { offset := (finished h info ts as).length - as.flatten.length
          size := as.flatten.length }) := by
    rw [splitRecords, hhead, Option.bind_eq_bind, Option.bind_some, hsplit, Option.bind_eq_bind,
      Option.bind_some]
    dsimp only
    rw [htcount, htopics, Option.bind_eq_bind, Option.bind_some]
    dsimp only
    rw [hacount, hactions, Option.bind_some]
    rfl
  have hwhole : finished h info ts as =
      (putHead (h.withCounts ts.length as.length) ++ info) ++ (ts.flatten ++ as.flatten) := by
    rw [finished, List.append_assoc]
  refine ⟨orError_eq_ok.2 hhead, ?_, _, _, orError_eq_ok.2 hruns, ?_, ?_⟩
  · refine orError_eq_ok.2 ?_
    rw [hhead, Option.bind_eq_bind, Option.bind_some, hsplit]
    rfl
  · rw [ByteView.octets, hwhole, slice_suffix, List.take_left]
  · rw [ByteView.octets, hwhole, ← List.append_assoc, slice_suffix, List.take_length]

end readBack

theorem takeInfo_of_isSourceInfo {info : Bytes} (h : IsSourceInfo reader info) :
    2 ≤ info.length ∧ ∀ rest, takeInfo (info ++ rest) = some (info, rest) := by
  rcases h with rfl | ⟨hlen, payload, hread⟩
  · exact ⟨by decide, takeInfo_empty⟩
  · refine ⟨hlen, ?_⟩
    have hread' := orError_eq_ok.1 hread
    rw [Option.bind_eq_bind, Option.bind_eq_some_iff] at hread'
    obtain ⟨h, -, hread'⟩ := hread'
    rw [Option.bind_eq_bind, Option.bind_eq_some_iff] at hread'
    obtain ⟨⟨info', rest'⟩, hsplit, heq⟩ := hread'
    cases heq
    rw [splitInfo] at hsplit
    split at hsplit
    · cases hsplit
      exact absurd hlen (by decide)
    · exact (takeInfo_eq_some hsplit).2.2

theorem isSourceInfo_getD {info : Option Bytes}
    (h : ∀ block, info = some block → IsSourceInfo reader block) :
    IsSourceInfo reader (info.getD kEmptySourceInfo) := by
  cases info with
  | none => exact .inl rfl
  | some block => exact h block rfl

theorem writer_laws : WriterLaws reader writer where
  carries := by
    intro header info topics actions outCapacity payload ts as hd hinfo hts has hw
    obtain ⟨hvalid, hformat⟩ := validHead_describes hd
    obtain ⟨-, htake⟩ := takeInfo_of_isSourceInfo (isSourceInfo_getD hinfo)
    obtain ⟨room, hcap, rfl⟩ := write_eq_some hts has hw
    have hpre := fitting_prefix room ts
    have hpre' := fitting_prefix (room - (fitting room ts).flatten.length) as
    refine ⟨_, _, hpre, hpre', finished_split hvalid hformat htake
      (fun r hr => hts.framed r (hpre.subset hr)) (fun r hr => has.framed r (hpre'.subset hr))
      (Nat.lt_of_le_of_lt hpre.length_le hts.counted)
      (Nat.lt_of_le_of_lt hpre'.length_le has.counted), fun hroom => ?_⟩
    rw [hts.run_eq, has.run_eq] at hroom
    have hall : fitting room ts = ts := fitting_all (by omega)
    refine ⟨hall, ?_⟩
    rw [hall]
    exact fitting_all (by omega)
  accepts := by
    intro header info topics actions outCapacity ts as hd hinfo hts has hroom
    obtain ⟨hlen, -⟩ := takeInfo_of_isSourceInfo (isSourceInfo_getD hinfo)
    exact write_isSome hd hts has hlen hroom

theorem length_putRecords_le {d d' : Draft} {topics actions : Bytes} (hfront : d.front ≤ d.capacity)
    (h : d.putRecords topics actions = some d') :
    d'.header = d.header ∧
      d'.front + (d'.topics.flatten ++ d'.actions.flatten).length ≤ d.capacity := by
  rw [Draft.putRecords, Option.bind_eq_bind, Option.bind_eq_some_iff] at h
  obtain ⟨ts, -, h⟩ := h
  obtain ⟨as, -, h⟩ := Option.bind_eq_some_iff.1 h
  cases h
  refine ⟨rfl, ?_⟩
  show d.front + _ ≤ _
  have htopics := length_fitting_le (d.capacity - d.front) ts
  have hactions := length_fitting_le
    (d.capacity - d.front - (fitting (d.capacity - d.front) ts).flatten.length) as
  rw [List.length_append]
  dsimp only
  omega

theorem writer_within : WithinBuffer writer := by
  intro header info topics actions outCapacity payload h
  rw [write_eq, Option.ite_none_right_eq_some] at h
  obtain ⟨⟨hbegin, hinfo⟩, h⟩ := h
  have hfront : (draft header info outCapacity).front ≤ (draft header info outCapacity).capacity := by
    rcases hinfo with rfl | hinfo
    · exact of_decide_eq_true (Bool.and_eq_true_iff.1 hbegin).2
    · exact hinfo
  obtain ⟨d, hput, hfinish⟩ := Option.bind_eq_some_iff.1 h
  obtain ⟨hhead, hlen⟩ := length_putRecords_le hfront hput
  rw [Draft.finish, hhead] at hfinish
  cases hfinish
  rw [Draft.front, hhead] at hlen
  rw [List.length_append, List.length_append, length_putHead]
  show kManifestHeadSize + header.sourceName.length + _ ≤ outCapacity
  have hsize : kManifestHeadSize + header.sourceName.length + d.info.length +
    (d.topics.flatten ++ d.actions.flatten).length ≤ outCapacity := hlen
  omega

/-! ## Nothing between the parts -/

theorem length_take8 {data rest : Bytes} {v : UInt8} (h : take8 data = some (v, rest)) :
    data.length = 1 + rest.length := by
  cases data with
  | nil => cases h
  | cons b data =>
    cases h
    rw [List.length_cons, Nat.add_comm]

theorem length_take16 {data rest : Bytes} {v : UInt16} (h : take16 data = some (v, rest)) :
    data.length = 2 + rest.length := by
  rw [take16, Option.map_eq_some_iff] at h
  obtain ⟨v', hread, hv⟩ := h
  cases hv
  have hlen := (readU16_take hread).1
  rw [List.length_drop]
  omega

theorem length_take32 {data rest : Bytes} {v : UInt32} (h : take32 data = some (v, rest)) :
    data.length = 4 + rest.length := by
  rw [take32, Option.map_eq_some_iff] at h
  obtain ⟨v', hread, hv⟩ := h
  cases hv
  rw [readU32, List.drop_zero] at hread
  match data, hread with
  | b0 :: b1 :: b2 :: b3 :: data, _ =>
    show data.length + 4 = 4 + data.length
    rw [Nat.add_comm]

theorem length_takeUuid {data rest : Bytes} {v : Vector UInt8 16} (h : takeUuid data = some (v, rest)) :
    data.length = 16 + rest.length := by
  rw [takeUuid] at h
  split at h
  · rename_i hlen
    cases h
    rw [List.length_take] at hlen
    rw [List.length_drop]
    omega
  · cases h

theorem guard_eq_some {p : Prop} [Decidable p] {u : Unit} : (guard p : Option Unit) = some u ↔ p := by
  rw [guard]
  split
  · exact iff_of_true rfl ‹p›
  · exact iff_of_false (fun h => by cases h) ‹¬p›

/-- A field that was read leaves the rest to the reader that follows. -/
theorem length_bind {α β : Type} {n : Nat} {data : Bytes} {field : Option (α × Bytes)}
    {next : α × Bytes → Option β} {b : β}
    (hfield : ∀ v rest, field = some (v, rest) → data.length = n + rest.length)
    (h : (field >>= next) = some b) :
    ∃ v rest, data.length = n + rest.length ∧ next (v, rest) = some b := by
  obtain ⟨⟨v, rest⟩, hread, hnext⟩ := Option.bind_eq_some_iff.1 h
  exact ⟨v, rest, hfield v rest hread, hnext⟩

/-- The fields of a head take up its size. -/
theorem length_readFields {data : Bytes} {h : ManifestHeader} (hr : readFields data = some h) :
    kManifestHeadSize + h.sourceName.length ≤ data.length := by
  rw [readFields] at hr
  obtain ⟨_, _, h1, hr⟩ := length_bind (fun _ _ => length_take32) hr
  obtain ⟨_, _, h2, hr⟩ := length_bind (fun _ _ => length_take32) hr
  obtain ⟨_, _, h3, hr⟩ := length_bind (fun _ _ => length_take32) hr
  obtain ⟨_, _, h4, hr⟩ := length_bind (fun _ _ => length_take8) hr
  obtain ⟨_, _, h5, hr⟩ := length_bind (fun _ _ => length_take8) hr
  obtain ⟨_, _, h6, hr⟩ := length_bind (fun _ _ => length_take16) hr
  obtain ⟨_, _, h7, hr⟩ := length_bind (fun _ _ => length_take16) hr
  obtain ⟨_, _, h8, hr⟩ := length_bind (fun _ _ => length_take16) hr
  obtain ⟨_, _, h9, hr⟩ := length_bind (fun _ _ => length_take32) hr
  obtain ⟨_, _, h10, hr⟩ := length_bind (fun _ _ => length_takeUuid) hr
  obtain ⟨_, _, h11, hr⟩ := length_bind (fun _ _ => length_take32) hr
  obtain ⟨_, _, h12, hr⟩ := length_bind (fun _ _ => length_take32) hr
  obtain ⟨_, _, h13, hr⟩ := length_bind (fun _ _ => length_take8) hr
  obtain ⟨_, _, h14, hr⟩ := length_bind (fun _ _ => length_take8) hr
  obtain ⟨_, _, h15, hr⟩ := length_bind (fun _ _ => length_take16) hr
  obtain ⟨_, _, h16, hr⟩ := length_bind (fun _ _ => length_take16) hr
  obtain ⟨_, _, h17, hr⟩ := length_bind (fun _ _ => length_take16) hr
  obtain ⟨_, _, h18, hr⟩ := length_bind (fun _ _ => length_take16) hr
  obtain ⟨_, _, h19, hr⟩ := length_bind (fun _ _ => length_take16) hr
  obtain ⟨_, hguard, hhead⟩ := Option.bind_eq_some_iff.1 hr
  have hname := (guard_eq_some.1 hguard).2
  cases hhead
  rw [List.length_take, kManifestHeadSize]
  omega

theorem splitInfo_append {payload info data : Bytes} {h : ManifestHeader}
    (hs : splitInfo payload h = some (info, data)) : afterHead payload h = info ++ data := by
  rw [splitInfo] at hs
  split at hs
  · cases hs
    rfl
  · exact (takeInfo_eq_some hs).1

theorem reader_whole : WholePayload reader := by
  intro payload header info topics actions hc
  obtain ⟨t, a, hruns, rfl, rfl⟩ := hc.runs
  have hinfo := orError_eq_ok.1 hc.info
  have hhead := orError_eq_ok.1 hc.header
  have hruns' := orError_eq_ok.1 hruns
  simp only [splitRecords, Option.bind_eq_bind, Option.bind_eq_some_iff,
    Option.ite_none_right_eq_some, Option.some.injEq, Prod.exists, Prod.mk.injEq] at hruns'
  obtain ⟨h, hread, info', data, hsplit, ts, data', hts, as, data'', has, rfl, ht, ha⟩ := hruns'
  cases hread.symm.trans hhead
  rw [hhead, Option.bind_eq_bind, Option.bind_some, hsplit] at hinfo
  cases hinfo
  have hfields := length_readFields (Option.filter_eq_some_iff.1 hhead).1
  have hafter := congrArg List.length (splitInfo_append hsplit)
  have hdata := congrArg List.length (SizedFields.takeFields_eq_some hts).1
  have hdata' := congrArg List.length (SizedFields.takeFields_eq_some has).1
  have hadjacent := reader_laws.adjacent _ _ _ hruns
  have hwithin := reader_laws.within _ _ _ hruns
  subst ht ha
  simp only [List.length_append, List.length_nil] at hafter hdata hdata'
  rw [afterHead, List.length_drop] at hafter
  simp only [ByteView.octets, slice, List.length_take, List.length_drop] at hadjacent hwithin ⊢
  omega

/-- The answer of a robot, as `build_manifest_data` of the tests lays it out, in format 3
and without info. -/
def robotAnswer (sourceId bootId revision : UInt32) (flags : UInt8) (name : String)
    (topics : List Bytes) : Bytes :=
  finished
    { request :=
        { requestSourceId := 0xD0D0D0D0, requestBootId := 0xABCDEF01, replyToSequence := 7 }
      status := 0, flags, errorCode := 0, manifestFormatVersion := 3, configRevision := revision
      sourceUuid := Vector.replicate 16 0xAA, describedSourceId := sourceId
      describedBootId := bootId, sourceRole := 1, sourceFlags := 1, catalogIndex := 0
      catalogCount := 1, sourceName := literal name }
    kEmptySourceInfo topics []

end BallyDongle.Btp.Layout
