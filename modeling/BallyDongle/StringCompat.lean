import BallyDongle.ShellCommandSupport
import Mathlib.Data.List.TakeWhile

/-!
# The `String` functions of Arduino on `std::string`

`string_compat.h`: the functions that the shell's output and the database use. Positions
are `none` where the source returns -1.
-/

namespace BallyDongle.StringCompat

open Numeral

/-- `trim` takes off what `trimCopy` leaves out. -/
def trim (s : List Char) : List Char := ShellCommandSupport.trimCopy s

def startsWith (s pre : List Char) : Bool := pre.isPrefixOf s

/-- The first `ch` of `s`. -/
def indexOf (s : List Char) (ch : Char) : Option Nat := s.findIdx? (· == ch)

/-- `tolower` in the C locale. -/
def toLower (c : Char) : Char :=
  if 'A' ≤ c ∧ c ≤ 'Z' then Char.ofNat (c.toNat + 32) else c

def equalsIgnoreCase (a b : List Char) : Bool := a.map toLower == b.map toLower

/-- Replace what is found from here on; the next `skip` characters belong to what was found
last. -/
def replaceFrom (old new : List Char) (skip : Nat) : List Char → List Char
  | [] => []
  | c :: s =>
    match skip with
    | skip + 1 => replaceFrom old new skip s
    | 0 =>
      if startsWith (c :: s) old then new ++ replaceFrom old new (old.length - 1) s
      else c :: replaceFrom old new 0 s

def replaceAll (s old new : List Char) : List Char :=
  if old = [] then s else replaceFrom old new 0 s

/-- `s.c_str()`, as who reads up to the NUL sees it. -/
def cStr (s : List Char) : List Char := s.takeWhile (· != '\x00')

theorem notMem_cStr (s : List Char) : '\x00' ∉ cStr s := by
  intro h
  exact absurd (List.mem_takeWhile_imp h) (by decide)

example : replaceAll "a\r\n\r\rb".toList "\r\n".toList "\n".toList = "a\n\r\rb".toList := by decide

/-! ## Characters -/

section

variable {s old new : List Char} {c : Char}

theorem mem_of_mem_trim (h : c ∈ trim s) : c ∈ s := by
  rw [trim, ShellCommandSupport.trimCopy, List.mem_reverse] at h
  have hinner := List.mem_reverse.1 ((List.dropWhile_suffix _).subset h)
  exact (List.dropWhile_suffix _).subset hinner

theorem mem_replaceFrom {skip : Nat} (h : c ∈ replaceFrom old new skip s) : c ∈ s ∨ c ∈ new := by
  induction s generalizing skip with
  | nil => cases h
  | cons d s ih =>
    cases skip with
    | succ skip => exact (ih h).imp_left (List.mem_cons_of_mem d)
    | zero =>
      rw [replaceFrom] at h
      split at h
      · rcases List.mem_append.1 h with hnew | hrest
        · exact .inr hnew
        · exact (ih hrest).imp_left (List.mem_cons_of_mem d)
      · rcases List.mem_cons.1 h with rfl | hrest
        · exact .inl (.head _)
        · exact (ih hrest).imp_left (List.mem_cons_of_mem d)

theorem mem_of_mem_replaceAll (h : c ∈ replaceAll s old new) : c ∈ s ∨ c ∈ new := by
  rw [replaceAll] at h
  split at h
  · exact .inl h
  · exact mem_replaceFrom h

/-- One character replaced by others. -/
theorem replaceAll_singleton (s : List Char) (c : Char) (new : List Char) :
    replaceAll s [c] new = s.flatMap fun d => if d = c then new else [d] := by
  rw [replaceAll, if_neg (List.cons_ne_nil _ _)]
  induction s with
  | nil => rfl
  | cons d s ih =>
    rw [replaceFrom, List.flatMap_cons, List.length_singleton, Nat.sub_self]
    by_cases h : d = c
    · subst h
      have hfound : startsWith (d :: s) [d] = true := by simp [startsWith]
      rw [if_pos hfound, if_pos rfl, ih]
    · have hother : ¬startsWith (d :: s) [c] = true := by
        simp [startsWith, Ne.symm h]
      rw [if_neg hother, if_neg h, ih, List.singleton_append]

theorem notMem_replaceAll_singleton (h : c ∉ new) : c ∉ replaceAll s [c] new := by
  rw [replaceAll_singleton, List.mem_flatMap]
  rintro ⟨d, -, hd⟩
  split at hd
  · exact h hd
  · rename_i hne
    exact hne (List.mem_singleton.1 hd).symm

theorem cStr_of_notMem (h : '\x00' ∉ s) : cStr s = s := by
  refine List.takeWhile_eq_self_iff.2 fun c hc => ?_
  rw [bne_iff_ne]
  rintro rfl
  exact h hc

end

end BallyDongle.StringCompat
