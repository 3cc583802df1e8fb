import BallyDongle.ManifestCache.Serve

/-!
# Ingest

What `ingestManifestData` does to the cache. `readDescriptor` decides; a refusal
touches nothing but a counter, and an accepted answer writes one slot, whose new
content is the payload's (`shown_ingest`) whatever the slot held before. `Inv`
is what every run keeps: no id in two slots.
-/

namespace BallyDongle.ManifestCache

open Btp

/-! ## Slots and their ids -/

/-- The robot an entry is for. -/
def Entry.key (e : Entry) : Option UInt32 := if e.used then some e.sourceId else none

def PendingRequest.key (p : PendingRequest) : Option UInt32 :=
  if p.used then some p.sourceId else none

theorem Entry.key_eq_some {e : Entry} {s : UInt32} :
    e.key = some s ↔ e.used = true ∧ e.sourceId = s := by
  simp [Entry.key]

theorem PendingRequest.key_eq_some {p : PendingRequest} {s : UInt32} :
    p.key = some s ↔ p.used = true ∧ p.sourceId = s := by
  simp [PendingRequest.key]

theorem entrySlot_eq (g : Cache) (s : UInt32) :
    entrySlot g s = SlotTable.find Entry.key s g.entries := by
  refine SlotTable.first_congr fun i => ?_
  rw [Bool.eq_iff_iff, Bool.and_eq_true, beq_iff_eq, decide_eq_true_iff, Entry.key_eq_some]

theorem findPending_eq (g : Cache) (s : UInt32) :
    findPending g s = SlotTable.find PendingRequest.key s g.pending := by
  refine SlotTable.first_congr fun i => ?_
  rw [Bool.eq_iff_iff, Bool.and_eq_true, beq_iff_eq, decide_eq_true_iff,
    PendingRequest.key_eq_some]

theorem entrySlot_eq_none {g : Cache} {s : UInt32} :
    entrySlot g s = none ↔ ∀ i, (g.entries i).key ≠ some s := by
  rw [entrySlot_eq, SlotTable.find_eq_none]

theorem entrySlot_key {g : Cache} {s : UInt32} {i : Fin kCapacity} (h : entrySlot g s = some i) :
    (g.entries i).key = some s := by
  rw [entrySlot_eq] at h
  exact SlotTable.find_key h

/-- No robot in two slots, of either table. -/
structure Inv (g : Cache) : Prop where
  entries : SlotTable.Distinct Entry.key g.entries
  pending : SlotTable.Distinct PendingRequest.key g.pending

theorem inv_init : Inv {} where
  entries := by
    intro i j k hi
    cases hi
  pending := by
    intro i j k hi
    cases hi

/-! ## What is written -/

theorem cString_memcpy (buffer name : Bytes) :
    cString (memcpy buffer (name ++ [0])) = cString name := by
  rw [memcpy, cString, List.append_assoc, List.takeWhile_append, cString]
  split
  · rename_i h
    rw [List.singleton_append, List.takeWhile_cons_of_neg (by decide), List.append_nil]
    exact (List.takeWhile_prefix _).eq_of_length h |>.symm
  · rfl

theorem slice_memcpy (buffer data : Bytes) {offset size : Nat} (h : offset + size ≤ data.length) :
    slice (memcpy buffer data) offset size = slice data offset size := by
  rw [slice, memcpy, List.drop_append_of_le_length (by omega), List.take_append_of_le_length, slice]
  rw [List.length_drop]
  omega

theorem slice_slice (data : Bytes) (offset size offset' size' : Nat) (h : offset' + size' ≤ size) :
    slice (slice data offset size) offset' size' = slice data (offset + offset') size' := by
  rw [slice, slice, List.drop_take, List.take_take, List.drop_drop, slice]
  rw [Nat.min_eq_left (by omega)]

theorem length_slice {data : Bytes} {offset size : Nat} (h : offset + size ≤ data.length) :
    (slice data offset size).length = size := by
  rw [slice, List.length_take, List.length_drop]
  omega

/-- The name as a client gets it: 64 octets at most, and no NUL. -/
def cutName (name : Bytes) : Bytes := cString (name.take kMaxNameLength)

/-- What a full answer says of its source. -/
def Descriptor.shown (d : Descriptor) (payload : Bytes) : Shown :=
  { configRevision := d.header.configRevision
    uuid := some d.header.sourceUuid
    sourceId := d.header.describedSourceId
    bootId := d.header.describedBootId
    role := d.header.sourceRole
    online := d.header.sourceFlags &&& kSourceOnline ≠ 0
    name := cutName d.header.sourceName
    info := some d.info
    topics := d.topics.octets payload
    actions := d.actions.octets payload }

/-- What the checks guarantee of a descriptor. -/
structure Descriptor.Valid (reader : ManifestReader) (d : Descriptor) (payload : Bytes) : Prop where
  header : reader.header payload = .ok d.header
  success : d.header.status = kResultSuccess
  source : d.header.describedSourceId ≠ 0
  boot : d.header.describedBootId ≠ 0
  info : d.info = kEmptySourceInfo ∨ reader.rawSourceInfo payload = .ok d.info
  info_ge : 2 ≤ d.info.length
  info_le : d.info.length ≤ kMaxSourceInfoBytes
  runs : reader.rawRecords payload = .ok (d.topics, d.actions)
  size_le : d.notModified = false → d.recordsSize ≤ kMaxRecordsBytes

theorem toOption_eq_some {ε α : Type} {r : Except ε α} {a : α} :
    r.toOption = some a ↔ r = .ok a := by
  cases r <;> simp [Except.toOption]

theorem readDescriptor_valid {reader : ManifestReader} {payload : Bytes} {d : Descriptor}
    (h : readDescriptor reader payload = some d) : d.Valid reader payload := by
  simp only [readDescriptor, Option.bind_eq_bind, Option.bind_eq_some_iff, Option.guard_eq_some',
    toOption_eq_some, Option.pure_def, Option.some.injEq] at h
  obtain ⟨header, hheader, -, hsuccess, -, ⟨hsource, hboot⟩, info, hinfo, -, hlen, -, -, runs, hruns,
    -, hsize, rfl⟩ := h
  refine
    { header := hheader, success := hsuccess, source := hsource, boot := hboot
      info := ?_, info_ge := ?_, info_le := ?_, runs := hruns, size_le := ?_ }
  · dsimp only
    split
    · exact .inr hinfo
    · exact .inl rfl
  · dsimp only
    split
    · assumption
    · decide
  · dsimp only
    split
    · rename_i hge
      exact hlen hge
    · decide
  · intro hfull
    simpa [Descriptor.recordsSize, Descriptor.notModified] using hsize.resolve_left
      (by simpa [Descriptor.notModified] using hfull)

section shown

variable {reader : ManifestReader} {payload : Bytes} {d : Descriptor}

theorem Descriptor.Valid.fits (laws : ReaderLaws reader) (hd : d.Valid reader payload) :
    d.topics.offset + d.recordsSize ≤ payload.length := by
  have hadj := laws.adjacent _ _ _ hd.runs
  have hin := laws.within _ _ _ hd.runs
  rw [Descriptor.recordsSize]
  omega

theorem shown_refresh (e : Entry) (d : Descriptor) (payload : Bytes) (nowMs : UInt32)
    (hinfo : 2 ≤ d.info.length) :
    (e.refresh d nowMs).shown =
      { d.shown payload with
        name := e.shown.name, topics := e.shown.topics, actions := e.shown.actions } := by
  have hread : (e.refresh d nowMs).described.info = some d.info := by
    have hslice : slice (memcpy e.sourceInfo d.info) 0 d.info.length = d.info := by
      rw [slice_memcpy _ _ (by omega), slice, List.drop_zero, List.take_length]
    simp [Described.info, Entry.described, Entry.refresh, hinfo, hslice]
  rw [Entry.shown, Described.shown, hread]
  rfl

theorem shown_storeContent (laws : ReaderLaws reader) (hd : d.Valid reader payload) (e : Entry) :
    (e.storeContent d payload).shown =
      { e.shown with
        name := cutName d.header.sourceName
        topics := d.topics.octets payload
        actions := d.actions.octets payload } := by
  have hfits := hd.fits laws
  have hadj := laws.adjacent _ _ _ hd.runs
  have hlen : (slice payload d.topics.offset d.recordsSize).length = d.recordsSize :=
    length_slice hfits
  have hname : cString (e.storeContent d payload).described.name = cutName d.header.sourceName :=
    cString_memcpy _ _
  have htopics : (e.storeContent d payload).described.topics = d.topics.octets payload := by
    show slice (memcpy _ _) 0 d.topics.size = _
    rw [Descriptor.recordsSize] at hlen
    rw [slice_memcpy _ _ (by rw [Descriptor.recordsSize]; omega),
      slice_slice _ _ _ _ _ (by rw [Descriptor.recordsSize]; omega), Nat.add_zero, ByteView.octets]
  have hactions : (e.storeContent d payload).described.actions = d.actions.octets payload := by
    show slice (memcpy _ _) d.topics.size (d.recordsSize - d.topics.size) = _
    rw [Descriptor.recordsSize] at hlen
    rw [slice_memcpy _ _ (by rw [Descriptor.recordsSize]; omega),
      slice_slice _ _ _ _ _ (by rw [Descriptor.recordsSize]; omega), ByteView.octets, hadj,
      Descriptor.recordsSize, Nat.add_sub_cancel_left]
  rw [Entry.shown, Described.shown, hname, htopics, hactions]
  rfl

/-- After a full answer a slot shows the payload, whatever it held before. -/
theorem shown_ingest_full (laws : ReaderLaws reader) (hd : d.Valid reader payload)
    (hfull : d.notModified = false) (e : Entry) (nowMs : UInt32) :
    (e.ingest d payload nowMs).shown = d.shown payload := by
  rw [Entry.ingest, if_neg (by rw [hfull]; decide), shown_storeContent laws hd,
    shown_refresh _ _ payload _ hd.info_ge]
  rfl

/-- After a NOT_MODIFIED it shows the payload about what it had. -/
theorem shown_ingest_notModified (hd : d.Valid reader payload) (hnot : d.notModified = true)
    (e : Entry) (nowMs : UInt32) :
    (e.ingest d payload nowMs).shown =
      { d.shown payload with
        name := e.shown.name, topics := e.shown.topics, actions := e.shown.actions } := by
  rw [Entry.ingest, if_pos hnot, shown_refresh _ _ payload _ hd.info_ge]

end shown

/-! ## What an ingest does -/

variable {reader : ManifestReader} {g : Cache} {payload : Bytes} {nowMs : UInt32} {d : Descriptor}

/-- The descriptor passes the checks, the one against the table included. -/
structure Accepts (reader : ManifestReader) (g : Cache) (payload : Bytes) (d : Descriptor) : Prop where
  read : readDescriptor reader payload = some d
  known : d.notModified = true → entrySlot g d.header.describedSourceId ≠ none

theorem Accepts.valid (h : Accepts reader g payload d) : d.Valid reader payload :=
  readDescriptor_valid h.read

/-- A refusal counts itself and nothing else. -/
theorem ingest_refused (h : (ingestManifestData reader g payload nowMs).2 = false) :
    (ingestManifestData reader g payload nowMs).1 = { g with ingestFail := g.ingestFail + 1 } := by
  revert h
  unfold ingestManifestData ingestManifestDataImpl
  split <;> rename_i hok <;> split at hok
  · cases hok
  · split at hok
    · cases hok
    · cases hok
      simp
  · cases hok
    simp
  · split at hok
    · cases hok
      simp
    · cases hok

theorem ingest_accepted (h : (ingestManifestData reader g payload nowMs).2 = true) :
    ∃ d, Accepts reader g payload d ∧
      (ingestManifestData reader g payload nowMs).1 =
        { store g d payload nowMs with ingestOk := (store g d payload nowMs).ingestOk + 1 } := by
  revert h
  unfold ingestManifestData ingestManifestDataImpl
  split <;> rename_i hok <;> split at hok
  · cases hok
  · rename_i d hd
    split at hok
    · cases hok
    · rename_i hknown
      cases hok
      intro _
      refine ⟨d, ⟨hd, fun hnot hnone => ?_⟩, rfl⟩
      simp [hnone, hnot] at hknown
  · cases hok
    simp
  · split at hok
    · cases hok
      simp
    · cases hok

theorem ingest_of_accepts (h : Accepts reader g payload d) :
    ingestManifestData reader g payload nowMs =
      ({ store g d payload nowMs with ingestOk := (store g d payload nowMs).ingestOk + 1 }, true) := by
  have hguard : ((entrySlot g d.header.describedSourceId).isNone && d.notModified) = false := by
    cases hnot : d.notModified with
    | false => simp
    | true => simpa [Option.isSome_iff_ne_none] using h.known hnot
  simp [ingestManifestData, ingestManifestDataImpl, h.read, hguard]

/-! ## The slot an answer goes to -/

theorem findOrAllocateEntry_of_some {s : UInt32} {i : Fin kCapacity} (h : entrySlot g s = some i) :
    findOrAllocateEntry g s = i := by
  rw [findOrAllocateEntry, h]

/-- A free slot if there is one; else every slot is taken. -/
theorem findOrAllocateEntry_of_none {s : UInt32} (h : entrySlot g s = none) :
    (g.entries (findOrAllocateEntry g s)).used = false ∨ ∀ i, (g.entries i).used = true := by
  rw [findOrAllocateEntry, h]
  dsimp only
  cases hfree : SlotTable.first (fun e => !Entry.used e) g.entries with
  | none =>
    right
    intro i
    simpa using SlotTable.first_eq_none.1 hfree i
  | some i =>
    left
    rw [SlotTable.allocate_free hfree]
    simpa using SlotTable.first_holds hfree

/-- In a full table the entry heard from least recently goes. -/
theorem findOrAllocateEntry_oldest {s : UInt32} (h : entrySlot g s = none)
    (hfull : ∀ i, (g.entries i).used = true) (i : Fin kCapacity) :
    (g.entries (findOrAllocateEntry g s)).lastSeenMs ≤ (g.entries i).lastSeenMs := by
  rw [findOrAllocateEntry, h]
  exact @SlotTable.allocate_full _ _ Entry.used (fun e => e.lastSeenMs.toNat) _ _ hfull i

theorem ingest_key (e : Entry) (d : Descriptor) (payload : Bytes) (nowMs : UInt32) :
    (e.ingest d payload nowMs).key = some d.header.describedSourceId := by
  rw [Entry.key_eq_some, Entry.ingest]
  split <;> exact ⟨rfl, rfl⟩

theorem store_entries (g : Cache) (d : Descriptor) (payload : Bytes) (nowMs : UInt32) :
    (store g d payload nowMs).entries =
      Function.update g.entries (findOrAllocateEntry g d.header.describedSourceId)
        ((g.entries (findOrAllocateEntry g d.header.describedSourceId)).ingest d payload nowMs) := by
  rw [store, clearPending]
  dsimp only
  split <;> rfl

theorem store_entry_self {i : Fin kCapacity} (h : i = findOrAllocateEntry g d.header.describedSourceId) :
    (store g d payload nowMs).entries i = (g.entries i).ingest d payload nowMs := by
  rw [store_entries, h, Function.update_self]

theorem store_entry_of_ne {i : Fin kCapacity}
    (h : i ≠ findOrAllocateEntry g d.header.describedSourceId) :
    (store g d payload nowMs).entries i = g.entries i := by
  rw [store_entries, Function.update_of_ne h]

theorem store_pending (g : Cache) (d : Descriptor) (payload : Bytes) (nowMs : UInt32) :
    (store g d payload nowMs).pending = (clearPending g d.header.describedSourceId).pending := by
  rw [store, clearPending, clearPending]
  dsimp only
  unfold findPending
  split <;> rename_i h <;> dsimp only at h <;> rw [h]

theorem store_catalogRevision (g : Cache) (d : Descriptor) (payload : Bytes) (nowMs : UInt32) :
    (store g d payload nowMs).catalogRevision =
      if changed g d.header then g.catalogRevision + 1 else g.catalogRevision := rfl

/-- Written, the id of an answer sits in its slot alone. -/
theorem store_distinct (hd : SlotTable.Distinct Entry.key g.entries) (d : Descriptor)
    (payload : Bytes) (nowMs : UInt32) :
    SlotTable.Distinct Entry.key (store g d payload nowMs).entries := by
  rw [store_entries]
  cases hslot : entrySlot g d.header.describedSourceId with
  | none => exact hd.update_new (entrySlot_eq_none.1 hslot) (ingest_key ..)
  | some i =>
    rw [findOrAllocateEntry_of_some hslot]
    exact hd.update_same ((ingest_key ..).trans (entrySlot_key hslot).symm)

/-! ## Pending requests -/

theorem clearPending_distinct {s : UInt32} (hd : SlotTable.Distinct PendingRequest.key g.pending) :
    SlotTable.Distinct PendingRequest.key (clearPending g s).pending := by
  rw [clearPending]
  split
  · exact hd
  · exact hd.update_free rfl

/-- No request for `s` is left, and no other is touched. -/
theorem clearPending_key {s : UInt32} (hd : SlotTable.Distinct PendingRequest.key g.pending)
    (i : Fin kCapacity) :
    ((clearPending g s).pending i).key ≠ some s ∧
      ((g.pending i).key ≠ some s → (clearPending g s).pending i = g.pending i) := by
  rw [clearPending]
  split
  · rename_i h
    rw [findPending_eq, SlotTable.find_eq_none] at h
    exact ⟨h i, fun _ => rfl⟩
  · rename_i j h
    rw [findPending_eq] at h
    have hj := SlotTable.find_key h
    dsimp only
    rcases eq_or_ne i j with rfl | hne
    · rw [Function.update_self]
      exact ⟨nofun, fun hk => absurd hj hk⟩
    · rw [Function.update_of_ne hne]
      exact ⟨fun hk => hne (hd hk hj), fun _ => rfl⟩

end BallyDongle.ManifestCache
