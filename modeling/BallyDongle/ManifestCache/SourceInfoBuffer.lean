import BallyDongle.Lib.OctetBuffer
import BallyDongle.ManifestCache.SourceInfo

/-!
# source_info blocks in memory

`serializeSourceInfo` as it writes the caller's buffer, which may hold anything: a store at
or beyond the capacity gives `none`. No call does, and what it leaves at the head of the buffer
is the list of octets that `ManifestCache.serializeSourceInfo` gives
(`serializeSourceInfo_shows`). Sizes are natural numbers: no buffer is so long that the sum of
a cursor and the length of a text wraps.
-/

namespace BallyDongle.ManifestCache.InBuffer

open Btp OctetBuffer
open DonglePublisher (Writer)

/-- The three pointers; a text is what stands before its NUL. A null table is one of null values. -/
structure SourceInfoPointers where
  key : Option Bytes
  label : Option Bytes
  value : Option Bytes

def utf8 (c : Cursor UInt8) (pointer : Option Bytes) : Option (Cursor UInt8 × Bool) :=
  let text := pointer.getD []
  if text.length > 0xFFFF then some (c, false)
  else
    Cursor.andThen (c.put (le16 text.length.toUInt16)) fun c =>
      if text = [] then some (c, true) else c.put text

/-- Whether the loop came to its end, beside the cursor and the number of entries written. -/
def writeEntries (c : Cursor UInt8) (written : UInt16) :
    List SourceInfoPointers → Option (Cursor UInt8 × UInt16 × Bool)
  | [] => some (c, written, true)
  | entry :: entries =>
    if written < 0xFFFF then
      if entry.value = none ∨ entry.value = some [] then writeEntries c written entries
      else
        (Cursor.andThen (utf8 c entry.key) fun c =>
            Cursor.andThen (utf8 c entry.label) fun c => utf8 c entry.value).bind fun (c, ok) =>
          if ok then writeEntries c (written + 1) entries else some (c, written, false)
    else some (c, written, true)

/-- The buffer afterwards and the size returned. -/
def serializeSourceInfo (entries : List SourceInfoPointers) (output : Bytes) (capacity : Nat) :
    Option (Bytes × Nat) :=
  (({ out := output, capacity } : Cursor UInt8).put (le16 0)).bind fun (c, ok) =>
    if ok then
      (writeEntries c 0 entries).bind fun (c, written, ok) =>
        if ok then (c.patch 0 (le16 written)).map fun c => (c.out, c.pos) else some (c.out, 0)
    else some (c.out, 0)

def SourceInfoPointers.read (entry : SourceInfoPointers) : SourceInfoEntry where
  key := entry.key.getD []
  label := entry.label.getD []
  value := entry.value.getD []

/-! ## The octets at the head of the buffer -/

/-- The cursor has written what the list of octets says, `least` octets or more. -/
structure Shows (size least : Nat) (c : Cursor UInt8) (w : Writer) : Prop where
  within : c.Within size
  out : w.out = c.written
  capacity : w.capacity = c.capacity
  least : least ≤ c.pos

/-- A write of both. -/
def Writes (size least : Nat) (result : Option (Cursor UInt8 × Bool)) (shown : Writer × Bool) :
    Prop :=
  ∃ c, result = some (c, shown.2) ∧ Shows size least c shown.1

variable {size least : Nat} {c : Cursor UInt8} {w : Writer}

theorem Shows.put (h : Shows size least c w) (data : Bytes) :
    Writes size least (c.put data) (w.raw data) := by
  have hpos := h.within.length_written
  rw [Writer.raw, h.out, h.capacity, hpos]
  split
  · rename_i hfull
    exact ⟨c, Cursor.put_full hfull, h⟩
  · rename_i hroom
    obtain ⟨c', hput, hwithin, hcapacity, hwritten⟩ := h.within.put (Nat.not_lt.1 hroom)
    have hpos' := hwithin.length_written
    rw [hwritten, List.length_append, hpos] at hpos'
    exact ⟨c', hput, hwithin, hwritten.symm, hcapacity.symm,
      h.least.trans (hpos' ▸ Nat.le_add_right _ _)⟩

theorem Writes.andThen {first : Option (Cursor UInt8 × Bool)} {shown : Writer × Bool}
    {next : Cursor UInt8 → Option (Cursor UInt8 × Bool)} {rest : Writer → Writer × Bool}
    (hnext : ∀ c w, Shows size least c w → Writes size least (next c) (rest w)) :
    Writes size least first shown →
      Writes size least (Cursor.andThen first next)
        (match shown with
          | (w, true) => rest w
          | (w, false) => (w, false)) := by
  rintro ⟨c, rfl, hshows⟩
  obtain ⟨w, ok⟩ := shown
  cases ok with
  | true => exact hnext c w hshows
  | false => exact ⟨c, rfl, hshows⟩

theorem puts_singleton (w : Writer) (data : Bytes) : w.puts [data] = w.raw data := by
  rw [Writer.puts]
  split <;> rename_i hraw <;> rw [hraw]
  rfl

theorem utf8s_singleton (w : Writer) (text : Bytes) :
    utf8s w [text] = ManifestCache.utf8 w text := by
  rw [utf8s]
  split <;> rename_i hraw <;> rw [hraw]
  rfl

theorem Shows.utf8 (h : Shows size least c w) (pointer : Option Bytes) :
    Writes size least (utf8 c pointer) (ManifestCache.utf8 w (pointer.getD [])) := by
  rw [InBuffer.utf8, ManifestCache.utf8]
  split
  · exact ⟨c, rfl, h⟩
  · rw [Writer.puts]
    refine Writes.andThen (fun c' w' h' => ?_) (h.put _)
    split
    · exact ⟨c', rfl, h'⟩
    · rw [puts_singleton]
      exact h'.put _

theorem Shows.texts (h : Shows size least c w) (entry : SourceInfoPointers) :
    Writes size least
      (Cursor.andThen (InBuffer.utf8 c entry.key) fun c =>
        Cursor.andThen (InBuffer.utf8 c entry.label) fun c => InBuffer.utf8 c entry.value)
      (utf8s w [entry.read.key, entry.read.label, entry.read.value]) := by
  show Writes size least _
    (utf8s w [entry.key.getD [], entry.label.getD [], entry.value.getD []])
  rw [utf8s]
  refine Writes.andThen (fun c' w' h' => ?_) (h.utf8 entry.key)
  rw [utf8s]
  refine Writes.andThen (fun c'' w'' h'' => ?_) (h'.utf8 entry.label)
  rw [utf8s_singleton]
  exact h''.utf8 entry.value

/-- The loops end alike. -/
def Ends (size least : Nat) (result : Option (Cursor UInt8 × UInt16 × Bool)) :
    Option (Writer × UInt16) → Prop
  | some (w, written) => ∃ c, result = some (c, written, true) ∧ Shows size least c w
  | none => ∃ c written, result = some (c, written, false) ∧ c.Within size

theorem read_value_eq_nil {entry : SourceInfoPointers} :
    entry.read.value = [] ↔ entry.value = none ∨ entry.value = some [] := by
  rw [SourceInfoPointers.read]
  cases entry.value <;> simp

theorem Shows.writeEntries (h : Shows size least c w) (written : UInt16)
    (entries : List SourceInfoPointers) :
    Ends size least (writeEntries c written entries)
      (ManifestCache.writeEntries w written (entries.map SourceInfoPointers.read)) := by
  induction entries generalizing c w written with
  | nil => exact ⟨c, rfl, h⟩
  | cons entry entries ih =>
    rw [InBuffer.writeEntries, List.map_cons, ManifestCache.writeEntries]
    split
    · rw [if_congr read_value_eq_nil rfl rfl]
      split
      · exact ih h written
      · obtain ⟨c', htexts, h'⟩ := h.texts entry
        rw [htexts, Option.bind_some]
        cases hshown : utf8s w [entry.read.key, entry.read.label, entry.read.value] with
        | mk w' ok =>
          rw [hshown] at h'
          cases ok with
          | true => exact ih h' (written + 1)
          | false => exact ⟨c', written, rfl, h'.within⟩
    · exact ⟨c, rfl, h⟩

/-- The call stays within its buffer, whatever the entries are, and writes what
`ManifestCache.serializeSourceInfo` says. -/
theorem serializeSourceInfo_shows (entries : List SourceInfoPointers) (output : Bytes) :
    ∃ out size, serializeSourceInfo entries output output.length = some (out, size) ∧
      out.length = output.length ∧
      out.take size =
        ManifestCache.serializeSourceInfo (entries.map SourceInfoPointers.read) output.length ∧
      (out.take size).length = size := by
  have hstart : ({ out := output, capacity := output.length } : Cursor UInt8).Within
      output.length := ⟨rfl, Nat.le_refl _, Nat.zero_le _⟩
  rw [InBuffer.serializeSourceInfo, ManifestCache.serializeSourceInfo, Writer.raw]
  by_cases hfull : output.length < 2
  · rw [Cursor.put_full (by simpa [le16] using hfull), if_pos (by simpa [le16] using hfull)]
    exact ⟨output, 0, rfl, rfl, rfl, rfl⟩
  · have hroom : 0 + (le16 0).length ≤ output.length := Nat.not_lt.1 hfull
    obtain ⟨c, hput, hwithin, hcapacity, hwritten⟩ := hstart.put hroom
    have hpos := hwithin.length_written
    rw [hwritten] at hpos
    have hshows : Shows output.length 2 c { out := [] ++ le16 0, capacity := output.length } :=
      ⟨hwithin, hwritten.symm, hcapacity.symm, Nat.le_of_eq hpos⟩
    rw [hput, if_neg (by simpa [le16] using hfull), Option.bind_some]
    dsimp only
    rw [if_pos rfl]
    have hloop := hshows.writeEntries 0 entries
    cases hlist : ManifestCache.writeEntries { out := [] ++ le16 0, capacity := output.length } 0
        (entries.map SourceInfoPointers.read) with
    | none =>
      rw [hlist] at hloop
      obtain ⟨c', written, hwrite, hwithin'⟩ := hloop
      rw [hwrite, Option.bind_some]
      exact ⟨c'.out, 0, rfl, hwithin'.length, rfl, rfl⟩
    | some result =>
      rw [hlist] at hloop
      obtain ⟨c', hwrite, h'⟩ := hloop
      have hin : 0 + (le16 result.2).length ≤ c'.pos := h'.least
      obtain ⟨c'', hpatch, hwithin'', hpos'', hwritten''⟩ := h'.within.patch hin
      rw [hwrite, Option.bind_some]
      dsimp only
      rw [if_pos rfl, hpatch]
      refine ⟨c''.out, c''.pos, rfl, hwithin''.length, ?_, hwithin''.length_written⟩
      show c''.written = (patchU16 result.1 0 result.2).out
      rw [hwritten'', patchU16, h'.out]
      rfl

/-! ## The round trip -/

/-- The count, and three texts after their lengths for each entry that has a value. -/
def blockSize (entries : List SourceInfoEntry) : Nat :=
  2 + ((shownEntries entries).map fun entry =>
    (2 + entry.key.length) + (2 + entry.label.length) + (2 + entry.value.length)).sum

theorem length_sourceInfoBlock (entries : List SourceInfoEntry) :
    (sourceInfoBlock entries).length = blockSize entries := by
  have hentry : List.length ∘ SourceInfoEntry.octets = fun entry =>
      (2 + entry.key.length) + (2 + entry.label.length) + (2 + entry.value.length) := by
    funext entry
    rw [Function.comp_apply, entry.length_octets]
    omega
  rw [sourceInfoBlock, List.length_append, entriesOctets, List.length_flatten, List.map_map, hentry,
    blockSize]
  rfl

theorem not_short {entry : SourceInfoEntry} :
    ¬entry.Short ↔ ∃ text ∈ entry.texts, 0xFFFF < text.length := by
  simp [SourceInfoEntry.Short]

/-- Every store is within the capacity. Nothing is returned just when the block does not fit or
a text has no length that can be written, and else what is returned reads back. -/
theorem source_info_round_trip (entries : List SourceInfoPointers) (output : Bytes) :
    ∃ out size, serializeSourceInfo entries output output.length = some (out, size) ∧
      out.length = output.length ∧
      ((shownEntries (entries.map SourceInfoPointers.read)).length ≤ 0xFFFF →
        (size = 0 ↔ output.length < blockSize (entries.map SourceInfoPointers.read) ∨
          ∃ entry ∈ shownEntries (entries.map SourceInfoPointers.read),
            ∃ text ∈ entry.texts, 0xFFFF < text.length) ∧
        (size ≠ 0 →
          decodeSourceInfo (out.take size) =
              some (shownEntries (entries.map SourceInfoPointers.read)) ∧
            (readU16 (out.take size) 0).map UInt16.toNat =
              some (shownEntries (entries.map SourceInfoPointers.read)).length)) := by
  obtain ⟨out, size, hcall, hlength, hoctets, hsize⟩ := serializeSourceInfo_shows entries output
  refine ⟨out, size, hcall, hlength, fun hcount => ?_⟩
  rw [serializeSourceInfo_eq_block _ _ hcount, length_sourceInfoBlock] at hoctets
  have hblock : 2 ≤ blockSize (entries.map SourceInfoPointers.read) := Nat.le_add_right _ _
  split at hoctets
  · rename_i hfits
    have hwritten : size = blockSize (entries.map SourceInfoPointers.read) := by
      rw [← hsize, hoctets, length_sourceInfoBlock]
    refine ⟨iff_of_false (by omega) ?_, fun _ => ?_⟩
    · rintro (hover | ⟨entry, hentry, hlong⟩)
      · omega
      · exact not_short.2 hlong (hfits.2 entry hentry)
    · have hnumber : (shownEntries (entries.map SourceInfoPointers.read)).length.toUInt16.toNat =
          (shownEntries (entries.map SourceInfoPointers.read)).length := by
        simp [Nat.toUInt16]
        omega
      rw [hoctets, decodeSourceInfo_block hcount hfits.2]
      refine ⟨rfl, ?_⟩
      rw [sourceInfoBlock, readU16_le16, Option.map_some, hnumber]
  · rename_i hnot
    have hzero : size = 0 := by
      rw [← hsize, hoctets]
      rfl
    refine ⟨iff_of_true hzero ?_, fun hsome => absurd hzero hsome⟩
    by_contra hneither
    rw [not_or] at hneither
    refine hnot ⟨Nat.not_lt.1 hneither.1, fun entry hentry => ?_⟩
    by_contra hlong
    exact hneither.2 ⟨entry, hentry, not_short.1 hlong⟩

/-- The model, and a version that is not set. -/
def modelEntries : List SourceInfoPointers := [
  ⟨some (literal "model"), some (literal "Model"), some (literal "T-Dongle-S3")⟩,
  ⟨some (literal "fw_version"), some (literal "Firmware"), none⟩]

theorem source_info_round_trip_model :
    ∃ out size, serializeSourceInfo modelEntries (List.replicate 64 0xFF) 64 = some (out, size) ∧
      (size = 0 ↔ 64 < blockSize (modelEntries.map SourceInfoPointers.read) ∨
        ∃ entry ∈ shownEntries (modelEntries.map SourceInfoPointers.read),
          ∃ text ∈ entry.texts, 0xFFFF < text.length) ∧
      (size ≠ 0 → decodeSourceInfo (out.take size) =
        some [⟨literal "model", literal "Model", literal "T-Dongle-S3"⟩]) := by
  obtain ⟨out, size, hcall, -, hround⟩ :=
    source_info_round_trip modelEntries (List.replicate 64 0xFF)
  obtain ⟨hzero, hsome⟩ := hround (by decide)
  exact ⟨out, size, hcall, hzero, fun hsize => (hsome hsize).1⟩

end BallyDongle.ManifestCache.InBuffer
