import Mathlib.Algebra.Group.Nat.Defs

/-!
# Clocks that wrap

A clock counts without bound; what a program reads of it is its value modulo
`2 ^ 32`. Two readings are compared by their difference: the later one is less than
half a turn ahead. That order is the order of the clock as long as the instants are
less than half a turn apart.
-/

namespace WrapClock

/-- The reading of the clock at an instant. -/
def reading (instant : Nat) : UInt32 := UInt32.ofNat instant

theorem toNat_reading (instant : Nat) : (reading instant).toNat = instant % 2 ^ 32 :=
  UInt32.toNat_ofNat'

/-- A reading and a number of ticks after it. -/
theorem reading_add (instant : Nat) (ticks : UInt32) :
    reading instant + ticks = reading (instant + ticks.toNat) := by
  apply UInt32.toNat_inj.1
  rw [UInt32.toNat_add, toNat_reading, toNat_reading, Nat.mod_add_mod]

/-- Within half a turn, a difference of less than half a turn means "not before". -/
theorem sub_lt_half {instant now : Nat} (hahead : now < instant + 2 ^ 31)
    (hbehind : instant ≤ now + 2 ^ 31) :
    reading now - reading instant < 0x80000000 ↔ instant ≤ now := by
  rw [UInt32.lt_iff_toNat_lt, UInt32.toNat_sub, toNat_reading, toNat_reading,
    show UInt32.toNat 0x80000000 = 2 ^ 31 from rfl]
  omega

/-- What the readings say has gone by is no more than what has. -/
theorem toNat_sub_le {start now : Nat} (h : start ≤ now) :
    (reading now - reading start).toNat ≤ now - start := by
  rw [UInt32.toNat_sub, toNat_reading, toNat_reading]
  omega

/-- Once the readings say that a budget is used up, what it reached to has passed. -/
theorem le_now_of_budget_le {start now deadline : Nat} {budget : UInt32} (h : start ≤ now)
    (hdeadline : deadline ≤ start + budget.toNat) (hover : budget ≤ reading now - reading start) :
    deadline ≤ now := by
  have helapsed := toNat_sub_le h
  rw [UInt32.le_iff_toNat_le] at hover
  omega

/-- What the readings say is left of a budget reaches as far, also where they say that
more than the budget has gone by and the difference wraps. -/
theorem le_now_add_left {start now deadline : Nat} {budget : UInt32} (h : start ≤ now)
    (hdeadline : deadline ≤ start + budget.toNat) :
    deadline ≤ now + (budget - (reading now - reading start)).toNat := by
  by_cases hover : budget ≤ reading now - reading start
  · exact Nat.le_add_right_of_le (le_now_of_budget_le h hdeadline hover)
  · have helapsed := toNat_sub_le h
    rw [UInt32.toNat_sub_of_le _ _ (Std.le_of_not_ge hover)]
    rw [UInt32.le_iff_toNat_le] at hover
    omega

/-! ## Turns -/

/-- Within one turn the readings are in the order of the instants. -/
theorem reading_le_iff {a b : Nat} (h : a / 2 ^ 32 = b / 2 ^ 32) : reading a ≤ reading b ↔ a ≤ b := by
  rw [UInt32.le_iff_toNat_le, toNat_reading, toNat_reading]
  omega

/-- Half a turn apart at most, instants whose readings are in order lie in one turn. -/
theorem div_eq_of_reading_le {a b : Nat} (hle : a ≤ b) (hspan : b < a + 2 ^ 31)
    (hread : reading a ≤ reading b) : a / 2 ^ 32 = b / 2 ^ 32 := by
  rw [UInt32.le_iff_toNat_le, toNat_reading, toNat_reading] at hread
  omega

/-! ## Instants apart -/

/-- Each instant, the newest first, is at least a gap after every earlier one; the gap
depends on how many those are. -/
def Spaced (gap : Nat → Nat) : List Nat → Prop
  | [] => True
  | later :: earlier => (∀ t ∈ earlier, t + gap earlier.length ≤ later) ∧ Spaced gap earlier

theorem Spaced.cons {gap : Nat → Nat} {now last : Nat} {earlier : List Nat}
    (h : Spaced gap (last :: earlier)) (hnow : last + gap (earlier.length + 1) ≤ now) :
    Spaced gap (now :: last :: earlier) := by
  refine ⟨fun t ht => ?_, h⟩
  rw [List.length_cons]
  rcases List.mem_cons.1 ht with rfl | ht
  · exact hnow
  · have hlast := h.1 t ht
    omega

end WrapClock
