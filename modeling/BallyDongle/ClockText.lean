import BallyDongle.Lib.Calendar
import BallyDongle.Lib.ScanInt
import BallyDongle.StringCompat
import Mathlib.Algebra.Group.Int.Defs

/-!
# Clock texts

`ClockText.cpp` with what it uses of the C library: a date and time in the zone of the
process, or `@` and a number of seconds, is turned into an epoch. `outEpoch` is passed in and
out.
-/

namespace BallyDongle.ClockText

open Calendar ScanInt StringCompat

abbrev Text := List Char

/-- A zone without daylight saving time, and the width of `time_t`. -/
structure Clock where
  /-- seconds east of Greenwich -/
  offset : Int
  timeBits : Nat
  offset_bound : -90000 < offset ∧ offset < 90000
  timeBits_pos : 0 < timeBits
  timeBits_le : timeBits ≤ 64

/-- `std::tm`. -/
structure Tm where
  tm_year : Int
  tm_mon : Nat
  tm_mday : Int
  tm_hour : Int
  tm_min : Int
  tm_sec : Int
  deriving DecidableEq, Repr

variable (C : Clock)

def Clock.Represents (epoch : Int) : Prop :=
  -(2 ^ (C.timeBits - 1)) ≤ epoch ∧ epoch < 2 ^ (C.timeBits - 1)

instance (epoch : Int) : Decidable (C.Represents epoch) := inferInstanceAs (Decidable (_ ∧ _))

/-- Seconds since the start of 1970 on a clock that shows `tm`; a day that the month does not
have lies in the next one. -/
def Tm.seconds (tm : Tm) : Int :=
  86400 * dayNumber (tm.tm_year + 1900) tm.tm_mon tm.tm_mday + 3600 * tm.tm_hour + 60 * tm.tm_min +
    tm.tm_sec

def mktime (tm : Tm) : Int :=
  if C.Represents (tm.seconds - C.offset) then tm.seconds - C.offset else -1

def localtime (epoch : Int) : Tm :=
  let shown := epoch + C.offset
  let date := dateOf (shown / 86400)
  let second := shown % 86400
  { tm_year := date.year - 1900
    tm_mon := date.month
    tm_mday := date.day
    tm_hour := second / 3600
    tm_min := second / 60 % 60
    tm_sec := second % 60 }

/-- `strftime` with `%Y-%m-%d %H:%M:%S`. -/
def strftime (tm : Tm) : Text :=
  padded 4 (tm.tm_year + 1900).toNat ++ '-' :: (padded 2 (tm.tm_mon + 1) ++
    '-' :: (padded 2 tm.tm_mday.toNat ++ ' ' :: (padded 2 tm.tm_hour.toNat ++
      ':' :: (padded 2 tm.tm_min.toNat ++ ':' :: padded 2 tm.tm_sec.toNat))))

/-- The number, whether `errno` is `ERANGE`, and what `end` points to. -/
def strtoll (text : Text) : Int × Bool × Text :=
  match readInt text with
  | none => (0, false, text)
  | some (n, rest) => (held (2 ^ 63 - 1) n, decide (held (2 ^ 63 - 1) n ≠ n), rest)

/-- `static_cast<time_t>`. -/
def Clock.toTime (raw : Int) : Int := Int.bmod raw (2 ^ C.timeBits)

/-- `"%d-%d-%d %d:%d:%d"`. -/
def clockFormat : List Directive :=
  [.int, .literal '-', .int, .literal '-', .int, .space, .int, .literal ':', .int, .literal ':', .int]

/-- The largest `int`. -/
def kIntMax : Nat := 2 ^ 31 - 1

def parse (text : Text) (outEpoch : Int) : Bool × Int :=
  if 1 < text.length ∧ text.head? = some '@' then
    let number := cStr (text.drop 1)
    let (raw, rangeError, rest) := strtoll number
    let parsed := C.toTime raw
    if rangeError ∨ rest.length = number.length ∨ rest ≠ [] ∨ raw ≤ 0 ∨ parsed ≠ raw then
      (false, outEpoch)
    else (true, parsed)
  else
    match sscanf kIntMax clockFormat (cStr text) with
    | [year, month, day, hour, minute, second] =>
      if year < 2024 ∨ month < 1 ∨ 12 < month ∨ day < 1 ∨ 31 < day ∨ hour < 0 ∨ 23 < hour ∨
          minute < 0 ∨ 59 < minute ∨ second < 0 ∨ 59 < second then
        (false, outEpoch)
      else
        let epoch := mktime C
          { tm_year := year - 1900
            tm_mon := (month - 1).toNat
            tm_mday := day
            tm_hour := hour
            tm_min := minute
            tm_sec := second }
        if epoch ≤ 0 then (false, outEpoch) else (true, epoch)
    | _ => (false, outEpoch)

/-- The zone of the dongle. -/
def brt3 : Clock where
  offset := -10800
  timeBits := 64
  offset_bound := by decide
  timeBits_pos := by decide
  timeBits_le := by decide

example : parse brt3 "2026-08-27 23:02:41".toList 0 = (true, 1787882561) ∧
    parse brt3 "@1787882561".toList 0 = (true, 1787882561) := by decide +kernel

end BallyDongle.ClockText
