import BallyDongle.DonglePublisher.Schema

/-!
# source_info blocks

A block is a count and that many entries of three texts, a key, a label and a
value. `serializeSourceInfo` writes the entries that have a value, or nothing at
all when they do not fit (`serializeSourceInfo_eq_block`); `decodeSourceInfo` reads a
block back.
-/

namespace BallyDongle.ManifestCache

open Btp
open DonglePublisher (Writer)

/-- A null pointer reads as the empty text in each of the three. -/
structure SourceInfoEntry where
  key : Bytes
  label : Bytes
  value : Bytes
  deriving DecidableEq, Repr

/-! ## Writing -/

def utf8 (w : Writer) (text : Bytes) : Writer × Bool :=
  if text.length > 0xFFFF then (w, false)
  else w.puts (le16 text.length.toUInt16 :: if text = [] then [] else [text])

/-- Texts one after the other, up to the first that does not fit. -/
def utf8s (w : Writer) : List Bytes → Writer × Bool
  | [] => (w, true)
  | text :: texts =>
    match utf8 w text with
    | (w, true) => utf8s w texts
    | (w, false) => (w, false)

def patchU16 (w : Writer) (offset : Nat) (value : UInt16) : Writer :=
  { w with out := w.out.take offset ++ le16 value ++ w.out.drop (offset + 2) }

/-- The entries with a value, and their number; `none` when one does not fit. -/
def writeEntries (w : Writer) (written : UInt16) : List SourceInfoEntry → Option (Writer × UInt16)
  | [] => some (w, written)
  | entry :: entries =>
    if written < 0xFFFF then
      if entry.value = [] then writeEntries w written entries
      else
        match utf8s w [entry.key, entry.label, entry.value] with
        | (w, true) => writeEntries w (written + 1) entries
        | (_, false) => none
    else some (w, written)

/-- The octets written: none when `capacity` is too small. -/
def serializeSourceInfo (entries : List SourceInfoEntry) (capacity : Nat) : Bytes :=
  match ({ out := [], capacity } : Writer).raw (le16 0) with
  | (_, false) => []
  | (w, true) =>
    match writeEntries w 0 entries with
    | none => []
    | some (w, written) => (patchU16 w 0 written).out

/-! ## Reading -/

def takeText (data : Bytes) : Option (Bytes × Bytes) := do
  let size ← readU16 data 0
  guard (2 + size.toNat ≤ data.length)
  return (slice data 2 size.toNat, data.drop (2 + size.toNat))

def takeEntries : (count : Nat) → (data : Bytes) → Option (List SourceInfoEntry × Bytes)
  | 0, data => some ([], data)
  | count + 1, data => do
    let (key, data) ← takeText data
    let (label, data) ← takeText data
    let (value, data) ← takeText data
    let (entries, rest) ← takeEntries count data
    return ({ key, label, value } :: entries, rest)

/-- The entries of a block that nothing follows. -/
def decodeSourceInfo (block : Bytes) : Option (List SourceInfoEntry) := do
  let count ← readU16 block 0
  let (entries, rest) ← takeEntries count.toNat (block.drop 2)
  guard (rest = [])
  return entries

/-! ## The block -/

def textField (text : Bytes) : Bytes := le16 text.length.toUInt16 ++ text

def SourceInfoEntry.octets (entry : SourceInfoEntry) : Bytes :=
  textField entry.key ++ (textField entry.label ++ textField entry.value)

/-- The entries that appear. -/
def shownEntries (entries : List SourceInfoEntry) : List SourceInfoEntry :=
  entries.filter fun entry => decide (entry.value ≠ [])

def entriesOctets (entries : List SourceInfoEntry) : Bytes :=
  ((shownEntries entries).map SourceInfoEntry.octets).flatten

def sourceInfoBlock (entries : List SourceInfoEntry) : Bytes :=
  le16 (shownEntries entries).length.toUInt16 ++ entriesOctets entries

@[simp] theorem length_textField (text : Bytes) : (textField text).length = 2 + text.length := by
  rw [textField, List.length_append]
  rfl

theorem SourceInfoEntry.length_octets (entry : SourceInfoEntry) :
    entry.octets.length = 6 + entry.key.length + entry.label.length + entry.value.length := by
  simp only [octets, List.length_append, length_textField]
  omega

/-! ## What is written is the block -/

/-- A write appends `data` if there is room, and fails if there is not. -/
def Puts (w : Writer) (result : Writer × Bool) (data : Bytes) : Prop :=
  if w.out.length + data.length ≤ w.capacity then
    result = ({ w with out := w.out ++ data }, true)
  else result.2 = false

theorem puts_fail (w : Writer) (pieces : List Bytes) (hroom : w.out.length ≤ w.capacity)
    (h : w.capacity < w.out.length + pieces.flatten.length) : (w.puts pieces).2 = false := by
  induction pieces generalizing w with
  | nil =>
    rw [List.flatten_nil, List.length_nil] at h
    omega
  | cons piece pieces ih =>
    rw [List.flatten_cons, List.length_append] at h
    rw [Writer.puts, Writer.raw]
    split
    · rename_i w' hraw
      split at hraw
      · cases hraw
      · cases hraw
        refine ih _ ?_ ?_
        · show (w.out ++ piece).length ≤ w.capacity
          rw [List.length_append]
          omega
        · show w.capacity < (w.out ++ piece).length + _
          rw [List.length_append]
          omega
    · rfl

theorem puts_pieces (w : Writer) (pieces : List Bytes) (hroom : w.out.length ≤ w.capacity) :
    Puts w (w.puts pieces) pieces.flatten := by
  rw [Puts]
  split
  · rename_i hfits
    exact Writer.puts_eq w pieces hfits
  · rename_i hover
    exact puts_fail w pieces hroom (by omega)

theorem puts_utf8 (w : Writer) (text : Bytes) (hroom : w.out.length ≤ w.capacity)
    (hshort : text.length ≤ 0xFFFF) : Puts w (utf8 w text) (textField text) := by
  have hpieces : (le16 text.length.toUInt16 :: if text = [] then [] else [text]).flatten =
      textField text := by
    rw [List.flatten_cons, textField]
    split
    · rename_i hempty
      rw [hempty]
      rfl
    · simp
  rw [utf8, if_neg (by omega), ← hpieces]
  exact puts_pieces w _ hroom

/-- A text, then the others. -/
theorem puts_utf8s (w : Writer) (texts : List Bytes) (hroom : w.out.length ≤ w.capacity)
    (hshort : ∀ text ∈ texts, text.length ≤ 0xFFFF) :
    Puts w (utf8s w texts) (texts.map textField).flatten := by
  induction texts generalizing w with
  | nil => simp [Puts, utf8s, hroom]
  | cons text texts ih =>
    have hfirst := puts_utf8 w text hroom (hshort text (.head _))
    rw [utf8s, List.map_cons, List.flatten_cons]
    rw [Puts] at hfirst
    split at hfirst
    · rename_i hfits
      have hrest := ih { w with out := w.out ++ textField text }
        (by rwa [← List.length_append] at hfits) fun text' h => hshort text' (.tail _ h)
      rw [hfirst]
      simpa [Puts, Nat.add_assoc] using hrest
    · rename_i hover
      rw [Puts, if_neg (by rw [List.length_append]; omega)]
      split
      · rename_i w' hok
        rw [hok] at hfirst
        cases hfirst
      · rfl

/-- A text too long for its length field is not written. -/
theorem utf8s_long (w : Writer) {texts : List Bytes} {text : Bytes} (hmem : text ∈ texts)
    (hlong : 0xFFFF < text.length) : (utf8s w texts).2 = false := by
  induction texts generalizing w with
  | nil => cases hmem
  | cons first texts ih =>
    rw [utf8s]
    split
    · rename_i w' hok
      rcases List.mem_cons.1 hmem with rfl | hrest
      · rw [utf8, if_pos hlong] at hok
        cases hok
      · exact ih w' hrest
    · rfl

@[simp] theorem shownEntries_cons (entry : SourceInfoEntry) (entries : List SourceInfoEntry) :
    shownEntries (entry :: entries) =
      if entry.value = [] then shownEntries entries else entry :: shownEntries entries := by
  by_cases h : entry.value = [] <;> simp [shownEntries, h]

theorem entriesOctets_cons (entry : SourceInfoEntry) (entries : List SourceInfoEntry) :
    entriesOctets (entry :: entries) =
      if entry.value = [] then entriesOctets entries else entry.octets ++ entriesOctets entries := by
  by_cases h : entry.value = [] <;> simp [entriesOctets, h]

def SourceInfoEntry.texts (entry : SourceInfoEntry) : List Bytes :=
  [entry.key, entry.label, entry.value]

/-- The length fields hold the lengths of the texts. -/
def SourceInfoEntry.Short (entry : SourceInfoEntry) : Prop :=
  ∀ text ∈ entry.texts, text.length ≤ 0xFFFF

instance (entry : SourceInfoEntry) : Decidable entry.Short :=
  inferInstanceAs (Decidable (∀ _ ∈ _, _))

theorem SourceInfoEntry.short_of_length {entry : SourceInfoEntry}
    (h : entry.octets.length ≤ 0xFFFF) : entry.Short := by
  rw [entry.length_octets] at h
  intro text htext
  simp only [texts, List.mem_cons, List.not_mem_nil, or_false] at htext
  rcases htext with rfl | rfl | rfl <;> omega

/-- One entry: all of it, or the write fails. -/
theorem puts_entry (w : Writer) (entry : SourceInfoEntry) (hroom : w.out.length ≤ w.capacity) :
    if entry.Short then Puts w (utf8s w entry.texts) entry.octets
    else (utf8s w entry.texts).2 = false := by
  have hoctets : (entry.texts.map textField).flatten = entry.octets := by
    simp [SourceInfoEntry.octets, SourceInfoEntry.texts]
  split
  · rename_i hshort
    rw [← hoctets]
    exact puts_utf8s w entry.texts hroom hshort
  · rename_i hlong
    simp only [SourceInfoEntry.Short, not_forall, Nat.not_le] at hlong
    obtain ⟨text, hmem, hlong⟩ := hlong
    exact utf8s_long w hmem hlong

/-- A full count stops the loop, with nothing left to write. -/
theorem writeEntries_full (w : Writer) {written : UInt16} (entries : List SourceInfoEntry)
    (hfull : ¬written < 0xFFFF) : writeEntries w written entries = some (w, written) := by
  cases entries with
  | nil => rfl
  | cons entry entries => rw [writeEntries, if_neg hfull]

theorem writeEntries_eq (w : Writer) (written : UInt16) (entries : List SourceInfoEntry)
    (hroom : w.out.length ≤ w.capacity)
    (hcount : written.toNat + (shownEntries entries).length ≤ 0xFFFF) :
    writeEntries w written entries =
      if w.out.length + (entriesOctets entries).length ≤ w.capacity ∧
          ∀ entry ∈ shownEntries entries, entry.Short then
        some ({ w with out := w.out ++ entriesOctets entries },
          written + (shownEntries entries).length.toUInt16)
      else none := by
  induction entries generalizing w written with
  | nil => simp [writeEntries, entriesOctets, shownEntries, hroom]
  | cons entry entries ih =>
    have hmax : written < 0xFFFF ↔ written.toNat < 0xFFFF := UInt16.lt_iff_toNat_lt
    rw [shownEntries_cons] at hcount ⊢
    rw [entriesOctets_cons]
    by_cases hempty : entry.value = []
    · rw [if_pos hempty] at hcount ⊢
      rw [if_pos hempty]
      by_cases hlt : written < 0xFFFF
      · rw [writeEntries, if_pos hlt, if_pos hempty, ih w written hroom hcount]
      · have hfull := mt hmax.2 hlt
        have hnone : shownEntries entries = [] := List.eq_nil_of_length_eq_zero (by omega)
        simp [writeEntries_full w _ hlt, entriesOctets, hnone, hroom]
    · rw [if_neg hempty, List.length_cons] at hcount
      rw [if_neg hempty, if_neg hempty, writeEntries, if_pos (hmax.2 (by omega)), if_neg hempty]
      simp only [List.length_append, List.forall_mem_cons]
      have hentry := puts_entry w entry hroom
      rw [SourceInfoEntry.texts] at hentry
      have hstop : (utf8s w [entry.key, entry.label, entry.value]).2 = false →
          (match utf8s w [entry.key, entry.label, entry.value] with
            | (w, true) => writeEntries w (written + 1) entries
            | (_, false) => none) = none := by
        intro hfail
        split
        · rename_i hok
          rw [hok] at hfail
          cases hfail
        · rfl
      split at hentry
      · rename_i hshort
        rw [Puts] at hentry
        split at hentry
        · rename_i hfits
          have hnext : (written + 1).toNat = written.toNat + 1 := by
            rw [UInt16.toNat_add, show UInt16.toNat 1 = 1 from rfl]
            omega
          rw [hentry]
          dsimp only
          rw [ih { w with out := w.out ++ entry.octets } (written + 1)
            (by rw [List.length_append]; exact hfits) (by omega)]
          simp [hshort, Nat.add_assoc, Nat.toUInt16, UInt16.ofNat_add, UInt16.add_assoc,
            UInt16.add_comm 1]
        · rename_i hover
          rw [hstop hentry, if_neg fun h => hover (by omega)]
      · rename_i hlong
        rw [hstop hentry, if_neg fun h => hlong h.2.1]

/-- The block if it fits and its texts have lengths that can be written, and else nothing. -/
theorem serializeSourceInfo_eq_block (entries : List SourceInfoEntry) (capacity : Nat)
    (hcount : (shownEntries entries).length ≤ 0xFFFF) :
    serializeSourceInfo entries capacity =
      if (sourceInfoBlock entries).length ≤ capacity ∧
          ∀ entry ∈ shownEntries entries, entry.Short then
        sourceInfoBlock entries
      else [] := by
  have htwo : ∀ v : UInt16, (le16 v).length = 2 := fun _ => rfl
  rw [serializeSourceInfo, Writer.raw, sourceInfoBlock, List.length_append, htwo, htwo]
  split
  · rename_i hraw
    split at hraw
    · rename_i hover
      have hover : 0 + 2 > capacity := hover
      rw [if_neg fun h => by omega]
    · cases hraw
  · rename_i w hraw
    split at hraw
    · cases hraw
    · rename_i hroom
      cases hraw
      simp only [List.nil_append, List.length_nil] at hroom ⊢
      have hstart : (le16 0).length ≤ capacity := by
        rw [htwo]
        omega
      rw [writeEntries_eq _ 0 entries hstart (by simpa using hcount), htwo]
      dsimp only
      by_cases hfits : 2 + (entriesOctets entries).length ≤ capacity ∧
          ∀ entry ∈ shownEntries entries, entry.Short
      · rw [if_pos hfits, if_pos hfits]
        simp [patchU16, le16]
      · rw [if_neg hfits, if_neg hfits]

theorem length_octets_le {entries : List SourceInfoEntry} {entry : SourceInfoEntry}
    (h : entry ∈ shownEntries entries) : entry.octets.length ≤ (entriesOctets entries).length :=
  (List.sublist_flatten_of_mem (List.mem_map_of_mem h)).length_le

theorem length_le_entriesOctets (entries : List SourceInfoEntry) :
    entries.length ≤ ((entries.map SourceInfoEntry.octets).flatten).length := by
  induction entries with
  | nil => exact Nat.le_refl 0
  | cons entry entries ih =>
    rw [List.map_cons, List.flatten_cons, List.length_append, entry.length_octets, List.length_cons]
    omega

/-- In a block this small there are no long texts, and not too many entries. -/
theorem shown_of_length {entries : List SourceInfoEntry}
    (h : (sourceInfoBlock entries).length ≤ 0xFFFF) :
    (shownEntries entries).length ≤ 0xFFFF ∧ ∀ entry ∈ shownEntries entries, entry.Short := by
  have hcount := length_le_entriesOctets (shownEntries entries)
  rw [← entriesOctets] at hcount
  rw [sourceInfoBlock, List.length_append] at h
  refine ⟨by omega, fun entry hentry => ?_⟩
  have hoctets := length_octets_le hentry
  exact entry.short_of_length (by omega)

theorem serializeSourceInfo_eq (entries : List SourceInfoEntry) {capacity : Nat}
    (hcap : capacity ≤ 0xFFFF) (hcount : entries.length ≤ 0xFFFF) :
    serializeSourceInfo entries capacity =
      if (sourceInfoBlock entries).length ≤ capacity then sourceInfoBlock entries else [] := by
  rw [serializeSourceInfo_eq_block entries capacity
    ((List.length_filter_le _ _).trans hcount)]
  exact if_congr (and_iff_left_of_imp fun hfits => (shown_of_length (hfits.trans hcap)).2) rfl rfl

/-! ## Reading a block back -/

theorem takeText_append {text : Bytes} (h : text.length < 2 ^ 16) (rest : Bytes) :
    takeText (textField text ++ rest) = some (text, rest) := by
  have hsize : text.length.toUInt16.toNat = text.length := by
    simp [Nat.toUInt16]
    omega
  have hlen : (le16 text.length.toUInt16).length = 2 := rfl
  rw [takeText, textField, List.append_assoc, readU16_le16, Option.bind_eq_bind, Option.bind_some,
    hsize, slice, List.drop_left' hlen, List.take_left, ← List.append_assoc,
    List.drop_left' (by rw [List.length_append, hlen])]
  simp [guard, hlen]

theorem takeEntries_append {entries : List SourceInfoEntry}
    (hshort : ∀ entry ∈ entries, entry.Short) (rest : Bytes) :
    takeEntries entries.length ((entries.map SourceInfoEntry.octets).flatten ++ rest) =
      some (entries, rest) := by
  induction entries with
  | nil => rfl
  | cons entry entries ih =>
    have htext : ∀ text ∈ entry.texts, text.length < 2 ^ 16 := fun text htext =>
      Nat.lt_succ_of_le (hshort entry (.head _) text htext)
    have hkey := htext entry.key (.head _)
    have hlabel := htext entry.label (.tail _ (.head _))
    have hvalue := htext entry.value (.tail _ (.tail _ (.head _)))
    rw [List.length_cons, takeEntries, List.map_cons, List.flatten_cons, SourceInfoEntry.octets]
    simp only [List.append_assoc]
    simp only [Option.bind_eq_bind]
    rw [takeText_append hkey, Option.bind_some]
    dsimp only
    rw [takeText_append hlabel, Option.bind_some]
    dsimp only
    rw [takeText_append hvalue, Option.bind_some,
      ih fun other hother => hshort other (.tail _ hother)]
    rfl

/-- A block reads back as the entries that have a value, in order. -/
theorem decodeSourceInfo_block {entries : List SourceInfoEntry}
    (hcount : (shownEntries entries).length ≤ 0xFFFF)
    (hshort : ∀ entry ∈ shownEntries entries, entry.Short) :
    decodeSourceInfo (sourceInfoBlock entries) = some (shownEntries entries) := by
  have hlen : (le16 (shownEntries entries).length.toUInt16).length = 2 := rfl
  have hsize : (shownEntries entries).length.toUInt16.toNat = (shownEntries entries).length := by
    simp [Nat.toUInt16]
    omega
  have htake := takeEntries_append hshort []
  rw [List.append_nil] at htake
  rw [decodeSourceInfo, sourceInfoBlock, readU16_le16, Option.bind_eq_bind, Option.bind_some, hsize,
    List.drop_left' hlen, entriesOctets, htake]
  rfl

end BallyDongle.ManifestCache
