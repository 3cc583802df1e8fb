import Mathlib.Data.List.Basic
import Mathlib.Data.Nat.Digits.Defs

/-!
# Packed little-endian columns

A packed body is its columns one after the other, each an array of integers of
one width. A fixed array has as many elements as its schema says; a variable one
writes their number first, in two octets. `readColumns` reads a body by the
schema alone, and undoes `columnsOctets`.
-/

namespace PackedLe

/-- The last `width` octets of `n`, least significant first. -/
def octets : (width n : Nat) → List UInt8
  | 0, _ => []
  | width + 1, n => UInt8.ofNat n :: octets width (n / 256)

/-- The number that octets stand for, least significant first. -/
def value (data : List UInt8) : Nat := Nat.ofDigits 256 (data.map UInt8.toNat)

structure Element where
  width : Nat
  signed : Bool
  deriving DecidableEq, Repr

inductive Arity
  | fixed (count : Nat)
  | variable (maxCount : Nat)
  deriving DecidableEq, Repr

structure Column where
  element : Element
  arity : Arity
  deriving DecidableEq, Repr

/-! ## Reading -/

def readWord (width : Nat) (data : List UInt8) : Option (Nat × List UInt8) :=
  if data.length < width then none else some (value (data.take width), data.drop width)

/-- A signed element is in two's complement. -/
def Element.interpret (e : Element) (n : Nat) : Int :=
  if e.signed then Int.bmod n (256 ^ e.width) else n

def readElements (e : Element) : (count : Nat) → List UInt8 → Option (List Int × List UInt8)
  | 0, data => some ([], data)
  | count + 1, data => do
    let (n, data) ← readWord e.width data
    let (vs, rest) ← readElements e count data
    some (e.interpret n :: vs, rest)

def readColumn (c : Column) (data : List UInt8) : Option (List Int × List UInt8) :=
  match c.arity with
  | .fixed count => readElements c.element count data
  | .variable maxCount => do
    let (count, data) ← readWord 2 data
    if maxCount < count then none else readElements c.element count data

def readColumns : List Column → List UInt8 → Option (List (List Int) × List UInt8)
  | [], data => some ([], data)
  | c :: cs, data => do
    let (vs, data) ← readColumn c data
    let (vss, rest) ← readColumns cs data
    some (vs :: vss, rest)

/-- A body that the columns use up. -/
def readAll (cs : List Column) (data : List UInt8) : Option (List (List Int)) :=
  match readColumns cs data with
  | some (vss, []) => some vss
  | _ => none

/-! ## Writing -/

def Element.octets (e : Element) (v : Int) : List UInt8 :=
  PackedLe.octets e.width (v % (256 ^ e.width : Nat)).toNat

def columnOctets (c : Column) (vs : List Int) : List UInt8 :=
  match c.arity with
  | .fixed _ => vs.flatMap c.element.octets
  | .variable _ => PackedLe.octets 2 vs.length ++ vs.flatMap c.element.octets

def columnsOctets : List Column → List (List Int) → List UInt8
  | c :: cs, vs :: vss => columnOctets c vs ++ columnsOctets cs vss
  | _, _ => []

/-- The element can hold the integer. -/
def Element.Holds (e : Element) (v : Int) : Prop :=
  if e.signed then -((256 ^ e.width : Nat) / 2 : Int) ≤ v ∧ v < ((256 ^ e.width : Nat) + 1 : Int) / 2
  else 0 ≤ v ∧ v < (256 ^ e.width : Nat)

/-- The column can hold the array. -/
def Column.Holds (c : Column) (vs : List Int) : Prop :=
  (∀ v ∈ vs, c.element.Holds v) ∧
    match c.arity with
    | .fixed count => vs.length = count
    | .variable maxCount => vs.length ≤ maxCount ∧ vs.length < 256 ^ 2

/-! ## What is written is read back -/

variable {e : Element} {c : Column} {cs : List Column} {vs : List Int} {vss : List (List Int)}

theorem length_octets (width n : Nat) : (octets width n).length = width := by
  induction width generalizing n with
  | zero => rfl
  | succ width ih => rw [octets, List.length_cons, ih]

theorem Element.octets_natCast {n : Nat} (h : n < 256 ^ e.width) :
    e.octets (n : Int) = PackedLe.octets e.width n := by
  have hmod : ((n : Int) % (256 ^ e.width : Nat)).toNat = n := by
    rw [← Int.natCast_emod, Int.toNat_natCast, Nat.mod_eq_of_lt h]
  rw [Element.octets, hmod]

theorem Element.holds_natCast {n : Nat} (hsigned : e.signed = false) (h : n < 256 ^ e.width) :
    e.Holds (n : Int) := by
  rw [Holds, hsigned]
  exact ⟨Int.natCast_nonneg n, Int.ofNat_lt.2 h⟩

theorem Element.flatMap_octets {α : Type} {f : α → Int} {g : α → List UInt8}
    (h : ∀ x, e.octets (f x) = g x) (xs : List α) :
    (xs.map f).flatMap e.octets = (xs.map g).flatten := by
  rw [List.flatMap_map, List.flatMap_def]
  simp only [h]

theorem value_octets (width n : Nat) : value (octets width n) = n % 256 ^ width := by
  induction width generalizing n with
  | zero => simp [octets, value, Nat.mod_one]
  | succ width ih =>
    have hhead : (UInt8.ofNat n).toNat = n % 256 := UInt8.toNat_ofNat'
    have htail : Nat.ofDigits 256 ((octets width (n / 256)).map UInt8.toNat) =
        n / 256 % 256 ^ width := ih (n / 256)
    rw [octets, value, List.map_cons, Nat.ofDigits_cons, hhead, htail, Nat.pow_succ', Nat.mod_mul]

theorem readWord_octets (width n : Nat) (rest : List UInt8) :
    readWord width (octets width n ++ rest) = some (n % 256 ^ width, rest) := by
  have hlen := length_octets width n
  rw [readWord, if_neg (by rw [List.length_append]; omega), List.take_left' hlen,
    List.drop_left' hlen, value_octets]

theorem Element.interpret_holds {v : Int} (h : e.Holds v) :
    e.interpret ((v % (256 ^ e.width : Nat)).toNat % 256 ^ e.width) = v := by
  have hpos : (0 : Int) < (256 ^ e.width : Nat) := by positivity
  have hnonneg := Int.emod_nonneg v hpos.ne'
  have hlt := Int.emod_lt_of_pos v hpos
  have hmod : (((v % (256 ^ e.width : Nat)).toNat % 256 ^ e.width : Nat) : Int) =
      v % (256 ^ e.width : Nat) := by
    rw [Nat.mod_eq_of_lt (by omega), Int.toNat_of_nonneg hnonneg]
  rw [Holds] at h
  rw [interpret, hmod]
  split at h
  · rename_i hsigned
    rw [if_pos hsigned, Int.emod_bmod]
    exact Int.bmod_eq_of_le h.1 h.2
  · rename_i hsigned
    rw [if_neg hsigned]
    exact Int.emod_eq_of_lt h.1 h.2

theorem readElements_octets (h : ∀ v ∈ vs, e.Holds v) (rest : List UInt8) :
    readElements e vs.length (vs.flatMap e.octets ++ rest) = some (vs, rest) := by
  induction vs with
  | nil => rfl
  | cons v vs ih =>
    have hhead := Element.interpret_holds (h v List.mem_cons_self)
    have htail := ih fun v' hv => h v' (List.mem_cons_of_mem v hv)
    rw [List.length_cons, readElements, List.flatMap_cons, List.append_assoc, Element.octets,
      readWord_octets, Option.bind_eq_bind, Option.bind_some]
    dsimp only
    rw [htail, Option.bind_eq_bind, Option.bind_some, hhead]

theorem readColumn_octets (h : c.Holds vs) (rest : List UInt8) :
    readColumn c (columnOctets c vs ++ rest) = some (vs, rest) := by
  obtain ⟨hholds, harity⟩ := h
  rw [readColumn, columnOctets]
  split at harity
  · rename_i count _
    rw [← harity]
    exact readElements_octets hholds rest
  · rename_i maxCount _
    dsimp only
    rw [List.append_assoc, readWord_octets, Nat.mod_eq_of_lt harity.2, Option.bind_eq_bind,
      Option.bind_some, if_neg (by omega)]
    exact readElements_octets hholds rest

theorem readColumns_octets (h : List.Forall₂ Column.Holds cs vss) (rest : List UInt8) :
    readColumns cs (columnsOctets cs vss ++ rest) = some (vss, rest) := by
  induction h with
  | nil => rfl
  | cons hcolumn _ ih =>
    rw [columnsOctets, List.append_assoc, readColumns, readColumn_octets hcolumn,
      Option.bind_eq_bind, Option.bind_some]
    dsimp only
    rw [ih, Option.bind_eq_bind, Option.bind_some]

/-- What the columns hold is written and read back, to the last octet. -/
theorem readAll_octets (h : List.Forall₂ Column.Holds cs vss) :
    readAll cs (columnsOctets cs vss) = some vss := by
  have hread := readColumns_octets h []
  rw [List.append_nil] at hread
  rw [readAll, hread]

end PackedLe
