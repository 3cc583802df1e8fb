import BallyDongle.ManifestCache.Catalog
import BallyDongle.ManifestCache.SourceInfo

/-!
# The dongle describes itself

`buildDongleSourceInfo` of `AppRuntime.cpp`: eight entries about the firmware, the
chip and the partition, written into 256 octets. Six octets of lengths for each entry,
the keys and the labels leave room for 26 octets of what the build and the board
contribute (`own_description_iff`).
-/

namespace BallyDongle.AppRuntime

open Btp ManifestCache

/-- The text in a `char[n]`. -/
structure CharArray (n : Nat) where
  text : Bytes
  terminated : text.length < n
  noNul : 0 ∉ text

/-- `esp_app_desc_t`. -/
structure AppDesc where
  version : CharArray 32
  time : CharArray 16
  date : CharArray 16
  idfVer : CharArray 32

def kScratchSize : Nat := 48

/-- `snprintf` into the scratch buffer at a cursor: the text kept there, if it is there
whole, and the cursor behind it. -/
def intoScratch (cursor : Nat) (text : Bytes) : Bytes × Nat :=
  if 0 < text.length ∧ cursor + text.length + 1 ≤ kScratchSize then
    (text, cursor + text.length + 1)
  else ([], cursor)

/-- `%u`. -/
def decimal (n : Nat) : Bytes := literal (Nat.repr n)

/-- `%u.%u` of a chip revision, which counts hundredths. -/
def revisionText (revision : UInt16) : Bytes :=
  decimal (revision.toNat / 100) ++ literal "." ++ decimal (revision.toNat % 100)

/-- The table of the function, with the texts it does not spell out. -/
def entries (fwVersion built idfVer chipRev label : Bytes) : List SourceInfoEntry :=
  [ { key := literal "description", label := literal "Description", value := literal "Bally hub dongle" },
    { key := literal "model", label := literal "Model", value := literal "T-Dongle-S3" },
    { key := literal "fw_version", label := literal "Firmware", value := fwVersion },
    { key := literal "fw_build", label := literal "Built", value := built },
    { key := literal "idf_version", label := literal "ESP-IDF", value := idfVer },
    { key := literal "chip", label := literal "Chip", value := literal "ESP32-S3" },
    { key := literal "chip_revision", label := literal "Chip revision", value := chipRev },
    { key := literal "ota_partition", label := literal "Running partition", value := label } ]

/-- `gitRev` is `DONGLE_GIT_REV` where the build defines it; a null `app` or `running`
leaves its entries empty. -/
def dongleEntries (gitRev : Option Bytes) (app : Option AppDesc) (revision : UInt16)
    (running : Option (CharArray 17)) : List SourceInfoEntry :=
  let (built, cursor) := match app with
    | some app => intoScratch 0 (app.date.text ++ literal " " ++ app.time.text)
    | none => ([], 0)
  let (chipRev, _) := intoScratch cursor (revisionText revision)
  let fwVersion := gitRev.getD ((app.map (·.version.text)).getD [])
  entries fwVersion built ((app.map (·.idfVer.text)).getD []) chipRev
    ((running.map (·.text)).getD [])

/-- What it leaves in `g_dongleSourceInfo`. -/
def buildDongleSourceInfo (gitRev : Option Bytes) (app : Option AppDesc) (revision : UInt16)
    (running : Option (CharArray 17)) : Bytes :=
  serializeSourceInfo (dongleEntries gitRev app revision running) kDongleSourceInfoSize

/-! ## What has room -/

theorem length_decimal_le {n k : Nat} (hk : 0 < k) (h : n < 10 ^ k) : (decimal n).length ≤ k := by
  rw [decimal, literal, List.length_map]
  exact (Nat.length_repr_le_iff hk).2 h

/-- The longest is `655.35`. -/
theorem length_revisionText_le (revision : UInt16) : (revisionText revision).length ≤ 6 := by
  have hrev := revision.toNat_lt
  have hmajor : (decimal (revision.toNat / 100)).length ≤ 3 := length_decimal_le (by decide) (by omega)
  have hminor : (decimal (revision.toNat % 100)).length ≤ 2 := length_decimal_le (by decide) (by omega)
  rw [revisionText, List.length_append, List.length_append, show (literal ".").length = 1 by decide]
  omega

theorem revisionText_ne_nil (revision : UInt16) : revisionText revision ≠ [] := by
  simp [revisionText, literal]

def buildText (app : AppDesc) : Bytes := app.date.text ++ literal " " ++ app.time.text

/-- The scratch buffer holds both texts that are made in it. -/
theorem dongleEntries_eq (gitRev : Option Bytes) (app : AppDesc) (revision : UInt16)
    (running : CharArray 17) :
    dongleEntries gitRev (some app) revision (some running) =
      entries (gitRev.getD app.version.text) (buildText app) app.idfVer.text (revisionText revision)
        running.text := by
  have hdate := app.date.terminated
  have htime := app.time.terminated
  have hrev := length_revisionText_le revision
  have hrevpos := List.length_pos_iff.2 (revisionText_ne_nil revision)
  have hbuilt : (buildText app).length = app.date.text.length + 1 + app.time.text.length := by
    rw [buildText, List.length_append, List.length_append, show (literal " ").length = 1 by decide]
  have hfirst : intoScratch 0 (buildText app) = (buildText app, 0 + (buildText app).length + 1) := by
    rw [intoScratch, if_pos]
    rw [hbuilt, kScratchSize]
    omega
  have hsecond : intoScratch (0 + (buildText app).length + 1) (revisionText revision) =
      (revisionText revision,
        0 + (buildText app).length + 1 + (revisionText revision).length + 1) := by
    rw [intoScratch, if_pos]
    rw [hbuilt, kScratchSize]
    omega
  rw [dongleEntries]
  dsimp only [Option.map_some, Option.getD_some]
  rw [← buildText, hfirst]
  dsimp only
  rw [hsecond]

/-- Keys, labels and the texts that never change. -/
theorem length_block {fwVersion built idfVer chipRev label : Bytes} (hfw : fwVersion ≠ [])
    (hbuilt : built ≠ []) (hidf : idfVer ≠ []) (hrev : chipRev ≠ []) (hlabel : label ≠ []) :
    (sourceInfoBlock (entries fwVersion built idfVer chipRev label)).length =
      230 + fwVersion.length + built.length + idfVer.length + chipRev.length + label.length := by
  have hshown : shownEntries (entries fwVersion built idfVer chipRev label) =
      entries fwVersion built idfVer chipRev label := by
    rw [shownEntries, List.filter_eq_self]
    intro entry hentry
    simp only [entries, List.mem_cons, List.not_mem_nil, or_false] at hentry
    obtain rfl | rfl | rfl | rfl | rfl | rfl | rfl | rfl := hentry
    all_goals first
      | exact decide_eq_true ‹_›
      | decide
  rw [sourceInfoBlock, entriesOctets, hshown]
  simp [entries, SourceInfoEntry.length_octets, le16, literal]
  omega

/-- The block left behind is there, and reads back as every entry with a value. -/
structure Described (gitRev : Option Bytes) (app : AppDesc) (revision : UInt16)
    (running : CharArray 17) : Prop where
  present : buildDongleSourceInfo gitRev (some app) revision (some running) ≠ []
  decodes : decodeSourceInfo (buildDongleSourceInfo gitRev (some app) revision (some running)) =
    some (shownEntries (entries (gitRev.getD app.version.text) (buildText app) app.idfVer.text
      (revisionText revision) running.text))

/-- The dongle describes itself just when the texts that the build and the board
contribute come to 26 octets at most, the space between date and time among them. -/
theorem own_description_iff (gitRev : Option Bytes) (app : AppDesc) (revision : UInt16)
    (running : CharArray 17) (hfw : gitRev.getD app.version.text ≠ []) (hidf : app.idfVer.text ≠ [])
    (hlabel : running.text ≠ []) :
    Described gitRev app revision running ↔
      (gitRev.getD app.version.text).length + (app.date.text.length + 1 + app.time.text.length) +
        app.idfVer.text.length + (revisionText revision).length + running.text.length ≤ 26 := by
  have hbuilt : buildText app ≠ [] := by simp [buildText, literal]
  have hbuiltlen : (buildText app).length = app.date.text.length + 1 + app.time.text.length := by
    rw [buildText, List.length_append, List.length_append, show (literal " ").length = 1 by decide]
  have hlen := length_block hfw hbuilt hidf (revisionText_ne_nil revision) hlabel
  have hcount : (dongleEntries gitRev (some app) revision (some running)).length ≤ 0xFFFF := by
    rw [dongleEntries_eq]
    show 8 ≤ 0xFFFF
    decide
  have hwritten : buildDongleSourceInfo gitRev (some app) revision (some running) = _ :=
    serializeSourceInfo_eq _ (show kDongleSourceInfoSize ≤ 0xFFFF by decide) hcount
  rw [dongleEntries_eq, hlen, kDongleSourceInfoSize] at hwritten
  constructor
  · rintro ⟨hpresent, -⟩
    by_contra hover
    rw [if_neg (by omega)] at hwritten
    exact hpresent hwritten
  · intro hfits
    rw [if_pos (by omega)] at hwritten
    refine ⟨?_, ?_⟩
    · rw [hwritten, ← List.length_pos_iff, hlen]
      omega
    · rw [hwritten]
      have hsmall := shown_of_length (hlen.trans_le (by omega))
      exact decodeSourceInfo_block hsmall.1 hsmall.2

/-- A build as small as they come: one character each for the version of the firmware, of
the framework, and the partition. -/
def smallBuild : AppDesc where
  version := ⟨literal "1", by decide, by decide⟩
  time := ⟨literal "12:00:00", by decide, by decide⟩
  date := ⟨literal "Jan  1 2026", by decide, by decide⟩
  idfVer := ⟨literal "5", by decide, by decide⟩

theorem own_description_small :
    Described none smallBuild 2 ⟨literal "a", by decide, by decide⟩ ↔ 1 + (11 + 1 + 8) + 1 + 3 + 1 ≤ 26 :=
  own_description_iff none smallBuild 2 ⟨literal "a", by decide, by decide⟩ (by decide) (by decide)
    (by decide)

/-- An ordinary build is not described at all. -/
theorem ordinary_build_lost :
    ¬∀ (gitRev : Option Bytes) (app : AppDesc) (revision : UInt16) (running : CharArray 17),
      gitRev.getD app.version.text ≠ [] → (gitRev.getD app.version.text).length ≤ 31 →
        app.idfVer.text ≠ [] → running.text ≠ [] → Described gitRev app revision running := by
  intro h
  have hdescribed := h (some (literal "a1b2c3d")) { smallBuild with idfVer := ⟨literal "v5.3.1", by decide, by decide⟩ }
    2 ⟨literal "app0", by decide, by decide⟩ (by decide) (by decide) (by decide) (by decide)
  exact hdescribed.present (by decide +kernel)

end BallyDongle.AppRuntime
