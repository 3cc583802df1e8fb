import Mathlib.Algebra.Group.Nat.Defs
import Mathlib.Data.List.Basic

/-!
# Hexadecimal digits

Fixed-width upper-case digits of a number, most significant first.
-/

namespace Hex

/-- The upper-case digit of a value below 16. -/
def digit (v : Nat) : Char := if v < 10 then Char.ofNat (48 + v) else Char.ofNat (55 + v)

/-- The last `width` digits of `n`. -/
def digits : (width n : Nat) → List Char
  | 0, _ => []
  | width + 1, n => digits width (n / 16) ++ [digit (n % 16)]

/-- The values of the last `width` digits of `n`. -/
def nibbles : (width n : Nat) → List Nat
  | 0, _ => []
  | width + 1, n => nibbles width (n / 16) ++ [n % 16]

theorem digits_eq_map (width n : Nat) : digits width n = (nibbles width n).map digit := by
  induction width generalizing n with
  | zero => rfl
  | succ width ih => rw [digits, nibbles, ih, List.map_append, List.map_singleton]

theorem nibbles_eq_map (width n : Nat) :
    nibbles width n = (List.range width).map fun i => n / 16 ^ (width - 1 - i) % 16 := by
  induction width generalizing n with
  | zero => rfl
  | succ width ih =>
    have hlast : n / 16 ^ (width + 1 - 1 - width) % 16 = n % 16 := by simp
    rw [nibbles, ih, List.range_succ, List.map_append, List.map_singleton, hlast]
    congr 1
    refine List.map_congr_left fun i hi => ?_
    have hlt := List.mem_range.1 hi
    have hexp : width + 1 - 1 - i = width - 1 - i + 1 := by omega
    rw [hexp, Nat.pow_succ', Nat.div_div_eq_div_mul]

theorem length_nibbles (width n : Nat) : (nibbles width n).length = width := by
  induction width generalizing n with
  | zero => rfl
  | succ width ih => rw [nibbles, List.length_append, ih, List.length_singleton]

theorem nibbles_lt {width n d : Nat} (h : d ∈ nibbles width n) : d < 16 := by
  induction width generalizing n with
  | zero => cases h
  | succ width ih =>
    obtain h | h := List.mem_append.1 h
    · exact ih h
    · rw [List.mem_singleton.1 h]
      exact Nat.mod_lt n (by decide)

end Hex
