import BallyDongle.Lib.PathTree

/-!
# The SD card

`DongleSdCard.cpp` over a directory tree. Every call on the file system may fail; a call
that fails leaves the card as it is. A path is its names from the mount point on, the
innermost first, so that `path + "/" + name` is `name :: path`.
-/

namespace BallyDongle.DongleSdCard

open PathTree

abbrev Name := List Char
abbrev Path := List Name

/-- The card under `kMountPoint`, files with their octets. -/
abbrev Card := PathTree Name (List Char)

/-- The calls that fail while one function runs, by the path each is about. For `readdir` also by how
many entries of the directory were read before. -/
structure Faults where
  stat : Path → Bool := fun _ => false
  opendir : Path → Bool := fun _ => false
  readdir : Path → Nat → Bool := fun _ _ => false
  remove : Path → Bool := fun _ => false
  rmdir : Path → Bool := fun _ => false

section calls

variable (f : Faults) (card : Card)

def stat (path : Path) : Option (Node (List Char)) := if f.stat path then none else card.look path

/-- An entry with nothing below goes. -/
def unlink (fails : Bool) (path : Path) : Bool × Card :=
  if fails ∨ path = [] ∨ card.look path = none ∨ card.names path ≠ [] then (false, card)
  else (true, card.erase path)

end calls

/-- The loop over a directory. An entry that is removed does not move those after it, so that `readdir`
goes through the names there were at first; `nullptr` is the end of them or an error. -/
def removeEntries (f : Faults) (removeTree : Path → Card → Option (Bool × Card)) (path : Path) :
    List Name → Nat → Card → Option (Bool × Card)
  | [], _, card => some (true, card)
  | name :: rest, count, card =>
    if f.readdir path count then some (true, card)
    else if name = ".".toList ∨ name = "..".toList then
      removeEntries f removeTree path rest (count + 1) card
    else
      match removeTree (name :: path) card with
      | none => none
      | some (true, card) => removeEntries f removeTree path rest (count + 1) card
      | some (false, card) => some (false, card)

/-- `none` past `depth` calls of itself within one another. -/
def removeTree (f : Faults) : Nat → Path → Card → Option (Bool × Card)
  | 0, _, _ => none
  | depth + 1, path, card =>
    match stat f card path with
    | none => some (false, card)
    | some (.file _) => some (unlink card (f.remove path) path)
    | some .dir =>
      if f.opendir path then some (false, card)
      else
        match removeEntries f (removeTree f depth) path (card.names path) 0 card with
        | none => none
        | some (true, card) => some (unlink card (f.rmdir path) path)
        | some (false, card) => some (false, card)

/-- More than any path on the card has names. -/
def height (card : Card) : Nat := (card.map fun e => e.1.length).foldl max 0 + 1

structure Sd where
  card : Card := []
  ready : Bool := false
  oneBitMode : Bool := false
  frequencyKHz : Nat := 0

def Sd.wipeContents (f : Faults) (sd : Sd) : Option (Bool × Sd) :=
  if !sd.ready then some (false, sd)
  else if f.opendir [] then some (false, sd)
  else
    (removeEntries f (removeTree f (height sd.card)) [] (sd.card.names []) 0 sd.card).map
      fun (ok, card) => (ok, { sd with card })

/-! ## Mounting -/

/-- What an attempt to mount comes to; a card that cannot be mounted is formatted. -/
inductive Mount
  | failed | mounted | formatted
  deriving DecidableEq

structure SdAttempt where
  mode1bit : Bool
  frequencyKHz : Nat

def SDMMC_FREQ_DEFAULT : Nat := 20000
def SDMMC_FREQ_PROBING : Nat := 400

def attempts (oneBitMode : Bool) : List SdAttempt :=
  if oneBitMode then [⟨true, SDMMC_FREQ_DEFAULT⟩, ⟨true, SDMMC_FREQ_PROBING⟩]
  else [⟨true, SDMMC_FREQ_DEFAULT⟩, ⟨false, SDMMC_FREQ_DEFAULT⟩, ⟨true, SDMMC_FREQ_PROBING⟩,
    ⟨false, SDMMC_FREQ_PROBING⟩]

def Sd.mountFirst (mount : SdAttempt → Mount) (sd : Sd) : List SdAttempt → Bool × Sd
  | [] => (false, sd)
  | attempt :: rest =>
    match mount attempt with
    | .failed => sd.mountFirst mount rest
    | .mounted => (true, { sd with ready := true, oneBitMode := attempt.mode1bit
                                   frequencyKHz := attempt.frequencyKHz })
    | .formatted => (true, { sd with card := [], ready := true, oneBitMode := attempt.mode1bit
                                     frequencyKHz := attempt.frequencyKHz })

def Sd.begin (mount : SdAttempt → Mount) (oneBitMode : Bool) (sd : Sd) : Bool × Sd :=
  { sd with ready := false, oneBitMode, frequencyKHz := 0 }.mountFirst mount (attempts oneBitMode)

end BallyDongle.DongleSdCard
