import BallyDongle.ClockText

/-!
# What a clock text means

`parse` takes whatever `sscanf` and `strtoll` take. A `ClockSpelling` is a text as `sscanf`
reads it, with every blank, sign and digit in its place; the texts that are accepted and mean
what they say are the plainly spelled ones (`means_iff_spelled_plainly`).
-/

namespace BallyDongle.ClockText

open Calendar ScanInt StringCompat Numeral

variable {C : Clock}

/-! ## Times that exist -/

/-- A date and time of the civil calendar. -/
structure CivilTime where
  year : Nat
  month : Nat
  day : Nat
  hour : Nat
  minute : Nat
  second : Nat
  year_bounds : 2024 ≤ year ∧ year ≤ 9999
  month_bounds : 1 ≤ month ∧ month ≤ 12
  day_bounds : 1 ≤ day ∧ day ≤ monthLength year (month - 1)
  hour_lt : hour < 24
  minute_lt : minute < 60
  second_lt : second < 60

/-- `YYYY-MM-DD HH:MM:SS`. -/
def CivilTime.text (t : CivilTime) : Text :=
  padded 4 t.year ++ '-' :: (padded 2 t.month ++ '-' :: (padded 2 t.day ++
    ' ' :: (padded 2 t.hour ++ ':' :: (padded 2 t.minute ++ ':' :: padded 2 t.second))))

def CivilTime.tm (t : CivilTime) : Tm where
  tm_year := t.year - 1900
  tm_mon := t.month - 1
  tm_mday := t.day
  tm_hour := t.hour
  tm_min := t.minute
  tm_sec := t.second

theorem strftime_tm (t : CivilTime) : strftime t.tm = t.text := by
  have hmonth := t.month_bounds.1
  have hyear : ((t.year : Int) - 1900 + 1900).toNat = t.year := by omega
  simp only [strftime, CivilTime.tm, CivilTime.text, hyear, Int.toNat_natCast,
    Nat.sub_add_cancel hmonth]

/-- A clock that shows seconds `n` shows the date and time of them. -/
theorem localtime_eq (C : Clock) (epoch : Int) {day : Int} {second : Nat}
    (h : epoch + C.offset = 86400 * day + second) (hsecond : second < 86400) :
    localtime C epoch =
      { tm_year := (dateOf day).year - 1900
        tm_mon := (dateOf day).month
        tm_mday := (dateOf day).day
        tm_hour := (second / 3600 : Nat)
        tm_min := (second / 60 % 60 : Nat)
        tm_sec := (second % 60 : Nat) } := by
  have hday : (epoch + C.offset) / 86400 = day := by omega
  have hrest : (epoch + C.offset) % 86400 = second := by omega
  rw [localtime]
  simp only [hday, hrest, Tm.mk.injEq, true_and]
  omega

theorem localtime_seconds (C : Clock) (t : CivilTime) :
    localtime C (t.tm.seconds - C.offset) = t.tm := by
  have hmonth := t.month_bounds
  have hhour := t.hour_lt
  have hminute := t.minute_lt
  have hsecond := t.second_lt
  have hvalid : Date.Valid ⟨t.year, t.month - 1, t.day⟩ :=
    ⟨show t.month - 1 < 12 by omega, t.day_bounds.1, t.day_bounds.2⟩
  have hyear : (t.year : Int) - 1900 + 1900 = t.year := by omega
  have hshown : t.tm.seconds - C.offset + C.offset =
      86400 * dayNumber t.year (t.month - 1) t.day +
        (3600 * t.hour + 60 * t.minute + t.second : Nat) := by
    simp only [Tm.seconds, CivilTime.tm, hyear]
    omega
  rw [localtime_eq C _ hshown (by omega), dateOf_dayNumber hvalid, CivilTime.tm, Tm.mk.injEq]
  refine ⟨rfl, rfl, rfl, ?_, ?_, ?_⟩ <;> omega

/-! ## Texts that `sscanf` reads -/

structure ClockSpelling where
  year : Spelling
  month : Spelling
  day : Spelling
  gap : Text
  hour : Spelling
  minute : Spelling
  second : Spelling
  rest : Text
  gap_space : ∀ c ∈ gap, isSpace c = true
  hour_blanks : hour.blanks = []
  /-- the digits of the day do not run into those of the hour -/
  day_ended : gap ≠ [] ∨ hour.sign ≠ none
  rest_ended : Ended rest

def ClockSpelling.fromSecond (sp : ClockSpelling) : Text := sp.second.text ++ sp.rest

def ClockSpelling.fromMinute (sp : ClockSpelling) : Text := sp.minute.text ++ ':' :: sp.fromSecond

def ClockSpelling.fromHour (sp : ClockSpelling) : Text := sp.hour.text ++ ':' :: sp.fromMinute

def ClockSpelling.fromDay (sp : ClockSpelling) : Text := sp.day.text ++ (sp.gap ++ sp.fromHour)

def ClockSpelling.text (sp : ClockSpelling) : Text :=
  sp.year.text ++ '-' :: (sp.month.text ++ '-' :: sp.fromDay)

/-- What `%d` stores. -/
def stored (sp : Spelling) : Int := held kIntMax sp.value

def ClockSpelling.numbers (sp : ClockSpelling) : List Int :=
  [stored sp.year, stored sp.month, stored sp.day, stored sp.hour, stored sp.minute,
    stored sp.second]

theorem ClockSpelling.fromHour_not_space (sp : ClockSpelling) :
    ∀ c ∈ sp.fromHour.head?, isSpace c = false := by
  rw [fromHour, Spelling.text_append, sp.hour_blanks, List.nil_append]
  exact sp.hour.numeral_not_space _

theorem ClockSpelling.day_follows (sp : ClockSpelling) : Ended (sp.gap ++ sp.fromHour) := by
  cases hgap : sp.gap with
  | cons c gap => exact ended_cons (isDigit_of_isSpace (sp.gap_space c (hgap ▸ .head _))) _
  | nil =>
    rcases sp.day_ended with hne | hsign
    · exact absurd hgap hne
    · obtain ⟨sign, hsign⟩ := Option.ne_none_iff_exists'.mp hsign
      rw [List.nil_append, fromHour, Spelling.text_append, sp.hour_blanks, Spelling.numeral, hsign]
      exact ended_cons sign.not_digit _

/-- White space is taken before the hour, and the day ends there. -/
theorem hour_after_gap {sp : Spelling} {gap rest : Text}
    (hspace : ∀ c ∈ (sp.text ++ rest).head?, isSpace c = false)
    (hday : Ended (gap ++ (sp.text ++ rest))) : sp.blanks = [] ∧ (gap ≠ [] ∨ sp.sign ≠ none) := by
  have hblanks : sp.blanks = [] := by
    cases hblanks : sp.blanks with
    | nil => rfl
    | cons c blanks =>
      have hc := hspace c (by rw [Spelling.text_append, hblanks]; rfl)
      rw [sp.blanks_space c (hblanks ▸ .head _)] at hc
      cases hc
  refine ⟨hblanks, or_iff_not_imp_left.mpr fun hgap hsign => ?_⟩
  obtain ⟨d, ds, hdigits, hd⟩ := sp.exists_digit
  have hhead := hday d (by
    rw [not_not.mp hgap, Spelling.text_append, hblanks, Spelling.numeral, hsign, hdigits]
    rfl)
  exact Bool.false_ne_true (hhead.symm.trans hd)

theorem sscanf_clock {text : Text} {year month day hour minute second : Int} :
    sscanf kIntMax clockFormat text = [year, month, day, hour, minute, second] ↔
      ∃ sp : ClockSpelling, sp.text = text ∧
        sp.numbers = [year, month, day, hour, minute, second] := by
  constructor
  · intro h
    obtain ⟨y, r₁, rfl, -, rfl, h₁⟩ := sscanf_int.mp h
    obtain ⟨r₂, rfl, h₂⟩ := sscanf_literal.mp h₁
    obtain ⟨m, r₃, rfl, -, rfl, h₃⟩ := sscanf_int.mp h₂
    obtain ⟨r₄, rfl, h₄⟩ := sscanf_literal.mp h₃
    obtain ⟨d, r₅, rfl, hday, rfl, h₅⟩ := sscanf_int.mp h₄
    obtain ⟨gap, r₆, rfl, hgap, hspace, h₆⟩ := sscanf_space.mp h₅
    obtain ⟨hr, r₇, rfl, -, rfl, h₇⟩ := sscanf_int.mp h₆
    obtain ⟨r₈, rfl, h₈⟩ := sscanf_literal.mp h₇
    obtain ⟨mi, r₉, rfl, -, rfl, h₉⟩ := sscanf_int.mp h₈
    obtain ⟨r, rfl, h₁₀⟩ := sscanf_literal.mp h₉
    obtain ⟨s, rest, rfl, hended, rfl, -⟩ := sscanf_int.mp h₁₀
    obtain ⟨hblanks, hsign⟩ := hour_after_gap hspace hday
    exact ⟨⟨y, m, d, gap, hr, mi, s, rest, hgap, hblanks, hsign, hended⟩, rfl, rfl⟩
  · rintro ⟨sp, rfl, hnumbers⟩
    rw [← hnumbers]
    refine sscanf_int.mpr ⟨sp.year, _, rfl, ended_cons rfl _, rfl, ?_⟩
    refine sscanf_literal.mpr ⟨_, rfl, ?_⟩
    refine sscanf_int.mpr ⟨sp.month, _, rfl, ended_cons rfl _, rfl, ?_⟩
    refine sscanf_literal.mpr ⟨_, rfl, ?_⟩
    refine sscanf_int.mpr ⟨sp.day, _, rfl, sp.day_follows, rfl, ?_⟩
    refine sscanf_space.mpr ⟨sp.gap, _, rfl, sp.gap_space, sp.fromHour_not_space, ?_⟩
    refine sscanf_int.mpr ⟨sp.hour, _, rfl, ended_cons rfl _, rfl, ?_⟩
    refine sscanf_literal.mpr ⟨_, rfl, ?_⟩
    refine sscanf_int.mpr ⟨sp.minute, _, rfl, ended_cons rfl _, rfl, ?_⟩
    refine sscanf_literal.mpr ⟨_, rfl, ?_⟩
    exact sscanf_int.mpr ⟨sp.second, _, rfl, sp.rest_ended, rfl, rfl⟩

theorem ClockSpelling.eq_of_text_eq {sp sp' : ClockSpelling} (h : sp.text = sp'.text) :
    sp = sp' := by
  obtain ⟨hyear, h⟩ := Spelling.eq_of_append_eq (ended_cons rfl _) (ended_cons rfl _) h
  obtain ⟨hmonth, h⟩ := Spelling.eq_of_append_eq (ended_cons rfl _) (ended_cons rfl _)
    (List.tail_eq_of_cons_eq h)
  obtain ⟨hday, h⟩ := Spelling.eq_of_append_eq sp.day_follows sp'.day_follows
    (List.tail_eq_of_cons_eq h)
  obtain ⟨hgap, h⟩ := run_eq_of_append_eq sp.gap_space sp'.gap_space sp.fromHour_not_space
    sp'.fromHour_not_space h
  obtain ⟨hhour, h⟩ := Spelling.eq_of_append_eq (ended_cons rfl _) (ended_cons rfl _) h
  obtain ⟨hminute, h⟩ := Spelling.eq_of_append_eq (ended_cons rfl _) (ended_cons rfl _)
    (List.tail_eq_of_cons_eq h)
  obtain ⟨hsecond, hrest⟩ := Spelling.eq_of_append_eq sp.rest_ended sp'.rest_ended
    (List.tail_eq_of_cons_eq h)
  cases sp
  cases sp'
  simp_all

/-! ## What is accepted -/

structure ClockSpelling.InRange (sp : ClockSpelling) : Prop where
  year : 2024 ≤ stored sp.year
  month : 1 ≤ stored sp.month ∧ stored sp.month ≤ 12
  day : 1 ≤ stored sp.day ∧ stored sp.day ≤ 31
  hour : 0 ≤ stored sp.hour ∧ stored sp.hour ≤ 23
  minute : 0 ≤ stored sp.minute ∧ stored sp.minute ≤ 59
  second : 0 ≤ stored sp.second ∧ stored sp.second ≤ 59

def ClockSpelling.tm (sp : ClockSpelling) : Tm where
  tm_year := stored sp.year - 1900
  tm_mon := (stored sp.month - 1).toNat
  tm_mday := stored sp.day
  tm_hour := stored sp.hour
  tm_min := stored sp.minute
  tm_sec := stored sp.second

/-- From 2024 on, in any zone. -/
theorem ClockSpelling.seconds_pos {sp : ClockSpelling} (h : sp.InRange) (C : Clock) :
    0 < sp.tm.seconds - C.offset := by
  obtain ⟨-, hoffset⟩ := C.offset_bound
  have hyear : 2024 ≤ sp.tm.tm_year + 1900 := by
    have hyear := h.year
    show 2024 ≤ stored sp.year - 1900 + 1900
    omega
  have hday := le_dayNumber hyear sp.tm.tm_mon h.day.1
  have hfirst : dayNumber 2024 0 1 = 19723 := by decide
  have hhour := h.hour.1
  have hminute := h.minute.1
  have hsecond := h.second.1
  have hseconds : sp.tm.seconds = 86400 * dayNumber (sp.tm.tm_year + 1900) sp.tm.tm_mon
      (stored sp.day) + 3600 * stored sp.hour + 60 * stored sp.minute + stored sp.second := rfl
  omega

theorem inRange_iff (sp : ClockSpelling) :
    sp.InRange ↔
      ¬(stored sp.year < 2024 ∨ stored sp.month < 1 ∨ 12 < stored sp.month ∨ stored sp.day < 1 ∨
        31 < stored sp.day ∨ stored sp.hour < 0 ∨ 23 < stored sp.hour ∨ stored sp.minute < 0 ∨
          59 < stored sp.minute ∨ stored sp.second < 0 ∨ 59 < stored sp.second) := by
  constructor
  · intro h
    have ⟨hyear, hmonth, hday, hhour, hminute, hsecond⟩ := h
    omega
  · intro h
    constructor <;> omega

instance (sp : ClockSpelling) : Decidable sp.InRange := decidable_of_iff _ (inRange_iff sp).symm

/-- A text without `@` that `sscanf` reads. -/
theorem parse_spelling {text : Text} (htext : text.head? ≠ some '@') {sp : ClockSpelling}
    (hsp : sp.text = cStr text) (outEpoch : Int) :
    parse C text outEpoch =
      if sp.InRange ∧ C.Represents (sp.tm.seconds - C.offset) then
        (true, sp.tm.seconds - C.offset)
      else (false, outEpoch) := by
  have hread := sscanf_clock.mpr ⟨sp, hsp, rfl⟩
  rw [parse, if_neg fun h => htext h.2, hread]
  dsimp only
  by_cases hrange : sp.InRange
  · rw [if_neg ((inRange_iff sp).mp hrange)]
    show (if mktime C sp.tm ≤ 0 then _ else (true, mktime C sp.tm)) = _
    have hpos := sp.seconds_pos hrange C
    by_cases hfits : C.Represents (sp.tm.seconds - C.offset)
    · have hepoch : mktime C sp.tm = sp.tm.seconds - C.offset := if_pos hfits
      rw [hepoch, if_neg (by omega), if_pos ⟨hrange, hfits⟩]
    · have hepoch : mktime C sp.tm = -1 := if_neg hfits
      rw [hepoch, if_pos (by decide), if_neg fun h : _ ∧ C.Represents _ => hfits h.2]
  · rw [if_pos (not_not.mp fun h => hrange ((inRange_iff sp).mpr h)),
      if_neg fun h : sp.InRange ∧ _ => hrange h.1]

theorem parse_unread {text : Text} (htext : text.head? ≠ some '@')
    (h : ∀ sp : ClockSpelling, sp.text ≠ cStr text) (outEpoch : Int) :
    parse C text outEpoch = (false, outEpoch) := by
  rw [parse, if_neg fun h => htext h.2]
  split
  · rename_i hread
    obtain ⟨sp, hsp, -⟩ := sscanf_clock.mp hread
    exact absurd hsp (h sp)
  · rfl

/-! ## Plain spellings -/

/-- No blanks, no sign, and this many digits. -/
def Field (width : Nat) (sp : Spelling) : Prop := sp.Plain ∧ sp.digits.length = width

structure ClockSpelling.Plain (sp : ClockSpelling) : Prop where
  year : Field 4 sp.year
  month : Field 2 sp.month
  day : Field 2 sp.day
  gap : sp.gap = [' ']
  hour : Field 2 sp.hour
  minute : Field 2 sp.minute
  second : Field 2 sp.second
  rest : sp.rest = []
  /-- the month has the day -/
  day_le : stored sp.day ≤ monthLength (stored sp.year) (stored sp.month - 1).toNat

/-- A number as `padded` spells it. -/
def paddedSpelling (width n : Nat) : Spelling where
  blanks := []
  sign := none
  digits := padded width n
  blanks_space := nofun
  digits_ne_nil := padded_ne_nil width n
  digits_digit := fun _ => isDigit_of_mem_padded

theorem stored_of_lt {sp : Spelling} {n : Nat} (h : sp.value = n) (hn : n < 10000) :
    stored sp = n := by
  rw [stored, held, h, kIntMax]
  omega

theorem paddedSpelling_stored {width n : Nat} (hn : n < 10000) :
    stored (paddedSpelling width n) = n := by
  refine stored_of_lt ?_ hn
  rw [Spelling.value, if_neg fun h => by cases h]
  exact congrArg Nat.cast (ofDigitChars_padded width n)

theorem paddedSpelling_field {width n : Nat} (hwidth : 0 < width) (hn : n < 10 ^ width) :
    Field width (paddedSpelling width n) := ⟨⟨rfl, rfl⟩, length_padded hwidth hn⟩

/-- A field spells a number below `10 ^ width`, as `padded` does. -/
theorem Field.exists_padded {width : Nat} {sp : Spelling} (h : Field width sp)
    (hwidth : width ≤ 4) :
    ∃ n : Nat, n < 10 ^ width ∧ stored sp = n ∧ sp.text = padded width n := by
  obtain ⟨⟨hblanks, hsign⟩, hlength⟩ := h
  have hlt := ofDigitChars_lt sp.digits_ne_nil sp.digits_digit
  have hpadded := padded_ofDigitChars sp.digits_ne_nil sp.digits_digit
  rw [hlength] at hlt hpadded
  refine ⟨Nat.ofDigitChars 10 sp.digits 0, hlt, stored_of_lt ?_ ?_, ?_⟩
  · rw [Spelling.value, hsign, if_neg fun h => by cases h]
  · exact Nat.lt_of_lt_of_le hlt (Nat.pow_le_pow_right (by decide) hwidth)
  · rw [hpadded, Spelling.text, hblanks, hsign]
    rfl

def CivilTime.spelling (t : CivilTime) : ClockSpelling where
  year := paddedSpelling 4 t.year
  month := paddedSpelling 2 t.month
  day := paddedSpelling 2 t.day
  gap := [' ']
  hour := paddedSpelling 2 t.hour
  minute := paddedSpelling 2 t.minute
  second := paddedSpelling 2 t.second
  rest := []
  gap_space := by simp [isSpace]
  hour_blanks := rfl
  day_ended := .inl (List.cons_ne_nil _ _)
  rest_ended := ended_nil

theorem CivilTime.spelling_text (t : CivilTime) : t.spelling.text = t.text := by
  simp [ClockSpelling.text, ClockSpelling.fromDay, ClockSpelling.fromHour, ClockSpelling.fromMinute,
    ClockSpelling.fromSecond, CivilTime.spelling, CivilTime.text, paddedSpelling, Spelling.text]

theorem CivilTime.bounds (t : CivilTime) : t.month < 100 ∧ t.day < 100 := by
  have hmonth := t.month_bounds
  have hday := t.day_bounds
  have hlength : monthLength t.year (t.month - 1) ≤ 31 := by
    rw [monthLength]
    split
    · split <;> omega
    · split <;> omega
  omega

theorem CivilTime.spelling_plain (t : CivilTime) : t.spelling.Plain := by
  obtain ⟨hmonth, hday⟩ := t.bounds
  have hyear := t.year_bounds
  have hhour := t.hour_lt
  have hminute := t.minute_lt
  have hsecond := t.second_lt
  have hdayLe : stored (paddedSpelling 2 t.day) ≤ monthLength (stored (paddedSpelling 4 t.year))
      (stored (paddedSpelling 2 t.month) - 1).toNat := by
    rw [paddedSpelling_stored (by omega), paddedSpelling_stored (by omega),
      paddedSpelling_stored (by omega)]
    have hle := t.day_bounds.2
    have hindex : ((t.month : Int) - 1).toNat = t.month - 1 := by omega
    rw [hindex]
    omega
  exact ⟨paddedSpelling_field (by decide) (by omega), paddedSpelling_field (by decide) hmonth,
    paddedSpelling_field (by decide) hday, rfl, paddedSpelling_field (by decide) (by omega),
    paddedSpelling_field (by decide) (by omega), paddedSpelling_field (by decide) (by omega), rfl,
    hdayLe⟩

/-- A plain text with numbers in range is a time that exists. -/
theorem ClockSpelling.Plain.exists_civil {sp : ClockSpelling} (h : sp.Plain) (hrange : sp.InRange) :
    ∃ t : CivilTime, t.text = sp.text ∧ t.tm = sp.tm := by
  obtain ⟨year, hyear, hyearStored, hyearText⟩ := h.year.exists_padded (by decide)
  obtain ⟨month, hmonth, hmonthStored, hmonthText⟩ := h.month.exists_padded (by decide)
  obtain ⟨day, hday, hdayStored, hdayText⟩ := h.day.exists_padded (by decide)
  obtain ⟨hour, hhour, hhourStored, hhourText⟩ := h.hour.exists_padded (by decide)
  obtain ⟨minute, hminute, hminuteStored, hminuteText⟩ := h.minute.exists_padded (by decide)
  obtain ⟨second, hsecond, hsecondStored, hsecondText⟩ := h.second.exists_padded (by decide)
  have hindex : ((month : Int) - 1).toNat = month - 1 := by omega
  have hdayLe := h.day_le
  rw [hyearStored, hmonthStored, hdayStored, hindex] at hdayLe
  obtain ⟨hry, hrm, hrd, hrh, hrmi, hrs⟩ := hrange
  rw [hyearStored] at hry
  rw [hmonthStored] at hrm
  rw [hdayStored] at hrd
  rw [hhourStored] at hrh
  rw [hminuteStored] at hrmi
  rw [hsecondStored] at hrs
  let t : CivilTime := {
    year, month, day, hour, minute, second
    year_bounds := by omega
    month_bounds := by omega
    day_bounds := by omega
    hour_lt := by omega
    minute_lt := by omega
    second_lt := by omega }
  refine ⟨t, ?_, ?_⟩
  · rw [ClockSpelling.text, fromDay, fromHour, fromMinute, fromSecond, hyearText, hmonthText,
      hdayText, hhourText, hminuteText, hsecondText, h.gap, h.rest, List.append_nil]
    rfl
  · rw [CivilTime.tm, ClockSpelling.tm, hyearStored, hmonthStored, hdayStored, hhourStored,
      hminuteStored, hsecondStored, hindex]

theorem CivilTime.notMem_text (t : CivilTime) : '\x00' ∉ t.text := by
  have hpadded : ∀ width n, '\x00' ∉ padded width n := fun width n h =>
    absurd (isDigit_of_mem_padded h) (by decide)
  simp [CivilTime.text, hpadded]

/-! ## Epochs -/

theorem Clock.pow_timeBits (C : Clock) : 2 ^ C.timeBits = 2 ^ (C.timeBits - 1) * 2 := by
  rw [← Nat.pow_succ, Nat.succ_eq_add_one, Nat.sub_add_cancel C.timeBits_pos]

theorem Clock.toTime_of_represents {n : Int} (h : C.Represents n) : C.toTime n = n := by
  obtain ⟨hlow, hhigh⟩ := h
  rw [Clock.toTime, C.pow_timeBits]
  refine Int.bmod_eq_of_le_mul_two ?_ ?_ <;> push_cast <;> omega

theorem Clock.represents_toTime (C : Clock) (n : Int) : C.Represents (C.toTime n) := by
  have hpos : 0 < 2 ^ C.timeBits := Nat.two_pow_pos _
  have hle := Int.le_bmod (x := n) hpos
  have hlt := Int.bmod_lt (x := n) hpos
  rw [Clock.toTime, Clock.Represents]
  rw [C.pow_timeBits] at hle hlt ⊢
  push_cast at hle hlt
  omega

theorem Clock.held_of_represents {n : Int} (h : C.Represents n) : held (2 ^ 63 - 1) n = n := by
  have hpow : (2 : Int) ^ (C.timeBits - 1) ≤ 2 ^ 63 := by
    have hbits := C.timeBits_le
    exact_mod_cast Nat.pow_le_pow_right (by decide) (by omega : C.timeBits - 1 ≤ 63)
  obtain ⟨hlow, hhigh⟩ := h
  rw [held]
  omega

/-- A text with `@` that `strtoll` reads to its end. -/
theorem parse_epoch {n : Text} {sp : Spelling} (hsp : sp.text = cStr n) (outEpoch : Int) :
    parse C ('@' :: n) outEpoch =
      if 0 < sp.value ∧ C.Represents sp.value then (true, sp.value) else (false, outEpoch) := by
  have hn : n ≠ [] := by
    rintro rfl
    exact sp.text_ne_nil hsp
  have hlength : 1 < ('@' :: n).length := Nat.succ_lt_succ (List.length_pos_of_ne_nil hn)
  have hread : strtoll (cStr n) =
      (held (2 ^ 63 - 1) sp.value, decide (held (2 ^ 63 - 1) sp.value ≠ sp.value), []) := by
    have hspelling := readInt_spelling sp ended_nil
    rw [List.append_nil, hsp] at hspelling
    rw [strtoll, hspelling]
  have hend : ([] : Text).length ≠ (cStr n).length := by
    rw [← hsp]
    exact Nat.ne_of_lt (List.length_pos_of_ne_nil (sp.text_ne_nil))
  rw [parse, if_pos ⟨hlength, rfl⟩]
  simp only [List.drop_succ_cons, List.drop_zero, hread]
  by_cases h : 0 < sp.value ∧ C.Represents sp.value
  · have htime := C.toTime_of_represents h.2
    rw [Clock.held_of_represents h.2, htime, if_pos h, if_neg]
    simp only [decide_eq_true_eq, not_or]
    exact ⟨not_not.mpr rfl, hend, not_not.mpr rfl, by omega, not_not.mpr rfl⟩
  · rw [if_neg h, if_pos]
    by_cases hheld : held (2 ^ 63 - 1) sp.value = sp.value
    · rw [hheld]
      rcases not_and_or.mp h with hneg | hwide
      · exact .inr (.inr (.inr (.inl (by omega))))
      · refine .inr (.inr (.inr (.inr fun htime => hwide ?_)))
        exact htime ▸ C.represents_toTime sp.value
    · exact .inl (decide_eq_true hheld)

theorem parse_epoch_unread {n : Text} (h : ∀ sp : Spelling, sp.text ≠ cStr n) (outEpoch : Int) :
    parse C ('@' :: n) outEpoch = (false, outEpoch) := by
  cases n with
  | nil =>
    have hread : sscanf kIntMax clockFormat (cStr ['@']) = [] := by decide
    rw [parse, if_neg (by simp), hread]
  | cons c cs =>
    have hlength : 1 < ('@' :: c :: cs).length := by simp
    rw [parse, if_pos ⟨hlength, rfl⟩]
    simp only [List.drop_succ_cons, List.drop_zero]
    rw [if_pos]
    cases hread : readInt (cStr (c :: cs)) with
    | none =>
      rw [strtoll, hread]
      exact .inr (.inl rfl)
    | some result =>
      obtain ⟨sp, hsp, -, -⟩ := readInt_eq_some.mp hread
      rw [strtoll, hread]
      refine .inr (.inr (.inl fun hrest => h sp ?_))
      rw [hsp, show result.2 = [] from hrest, List.append_nil]

/-! ## Meaning -/

/-- Nothing but digits, and at least one. -/
def IsDecimal (n : Text) : Prop := n ≠ [] ∧ ∀ c ∈ n, c.isDigit = true

def decimalValue (n : Text) : Int := Nat.ofDigitChars 10 n 0

/-- What a text is to mean: a time that exists, which the epoch is shown as, or an epoch. -/
structure MeansWhatItSays (C : Clock) (text : Text) (outEpoch : Int) : Prop where
  civil : text.head? ≠ some '@' → (parse C text outEpoch).1 = true →
    (∃ t : CivilTime, t.text = text) ∧ strftime (localtime C (parse C text outEpoch).2) = text
  epoch : ∀ n, text = '@' :: n →
    ((parse C text outEpoch).1 = true ↔
      IsDecimal n ∧ 0 < decimalValue n ∧ C.Represents (decimalValue n)) ∧
    ((parse C text outEpoch).1 = true → (parse C text outEpoch).2 = decimalValue n)
  rejected : (parse C text outEpoch).1 = false → (parse C text outEpoch).2 = outEpoch

/-- A text that the C library reads as numbers in range is spelled plainly. -/
structure SpelledPlainly (C : Clock) (text : Text) : Prop where
  civil : text.head? ≠ some '@' → ∀ sp : ClockSpelling, sp.text = cStr text → sp.InRange →
    C.Represents (sp.tm.seconds - C.offset) → sp.Plain ∧ '\x00' ∉ text
  epoch : ∀ n, text = '@' :: n → ∀ sp : Spelling, sp.text = cStr n → 0 < sp.value →
    C.Represents sp.value → sp.Plain ∧ '\x00' ∉ n

variable {text : Text}

theorem parse_rejected (outEpoch : Int) (h : (parse C text outEpoch).1 = false) :
    (parse C text outEpoch).2 = outEpoch := by
  have hite : ∀ (c : Prop) [Decidable c] (epoch : Int),
      (if c then (true, epoch) else (false, outEpoch)).1 = false →
        (if c then (true, epoch) else (false, outEpoch)).2 = outEpoch := by
    intro c _ epoch hc
    split at hc
    · cases hc
    · rename_i hc'
      rw [if_neg hc']
  by_cases htext : text.head? = some '@'
  · obtain ⟨n, rfl⟩ := List.head?_eq_some_iff.mp htext
    by_cases hread : ∃ sp : Spelling, sp.text = cStr n
    · obtain ⟨sp, hsp⟩ := hread
      rw [parse_epoch hsp] at h ⊢
      exact hite _ _ h
    · rw [parse_epoch_unread fun sp hsp => hread ⟨sp, hsp⟩]
  · by_cases hread : ∃ sp : ClockSpelling, sp.text = cStr text
    · obtain ⟨sp, hsp⟩ := hread
      rw [parse_spelling htext hsp] at h ⊢
      exact hite _ _ h
    · rw [parse_unread htext fun sp hsp => hread ⟨sp, hsp⟩]

/-- A decimal number as it is spelled. -/
def IsDecimal.spelling {n : Text} (h : IsDecimal n) : Spelling where
  blanks := []
  sign := none
  digits := n
  blanks_space := nofun
  digits_ne_nil := h.1
  digits_digit := h.2

theorem IsDecimal.cStr_eq {n : Text} (h : IsDecimal n) : cStr n = n :=
  cStr_of_notMem fun hnul => absurd (h.2 _ hnul) (by decide)

theorem IsDecimal.eq_spelling {n : Text} (h : IsDecimal n) {sp : Spelling}
    (hsp : sp.text = cStr n) : sp = h.spelling := by
  have htext : sp.text ++ [] = h.spelling.text ++ [] := by
    rw [List.append_nil, List.append_nil, hsp, h.cStr_eq]
    rfl
  exact (Spelling.eq_of_append_eq ended_nil ended_nil htext).1

theorem civil_iff (htext : text.head? ≠ some '@') (outEpoch : Int) :
    ((parse C text outEpoch).1 = true →
      (∃ t : CivilTime, t.text = text) ∧
        strftime (localtime C (parse C text outEpoch).2) = text) ↔
      ∀ sp : ClockSpelling, sp.text = cStr text → sp.InRange →
        C.Represents (sp.tm.seconds - C.offset) → sp.Plain ∧ '\x00' ∉ text := by
  constructor
  · intro h sp hsp hrange hfits
    rw [parse_spelling htext hsp, if_pos ⟨hrange, hfits⟩] at h
    obtain ⟨⟨t, ht⟩, -⟩ := h rfl
    have hnul : '\x00' ∉ text := ht ▸ t.notMem_text
    rw [cStr_of_notMem hnul, ← ht, ← t.spelling_text] at hsp
    rw [ClockSpelling.eq_of_text_eq hsp]
    exact ⟨t.spelling_plain, hnul⟩
  · intro h haccepted
    by_cases hread : ∃ sp : ClockSpelling, sp.text = cStr text
    · obtain ⟨sp, hsp⟩ := hread
      rw [parse_spelling htext hsp] at haccepted ⊢
      split at haccepted
      · rename_i hok
        obtain ⟨hplain, hnul⟩ := h sp hsp hok.1 hok.2
        obtain ⟨t, ht, htm⟩ := hplain.exists_civil hok.1
        rw [cStr_of_notMem hnul] at hsp
        rw [if_pos hok]
        refine ⟨⟨t, ht.trans hsp⟩, ?_⟩
        rw [← htm, localtime_seconds, strftime_tm, ht, hsp]
      · cases haccepted
    · rw [parse_unread htext fun sp hsp => hread ⟨sp, hsp⟩] at haccepted
      cases haccepted

theorem epoch_iff (n : Text) (outEpoch : Int) :
    (((parse C ('@' :: n) outEpoch).1 = true ↔
        IsDecimal n ∧ 0 < decimalValue n ∧ C.Represents (decimalValue n)) ∧
      ((parse C ('@' :: n) outEpoch).1 = true →
        (parse C ('@' :: n) outEpoch).2 = decimalValue n)) ↔
      ∀ sp : Spelling, sp.text = cStr n → 0 < sp.value → C.Represents sp.value →
        sp.Plain ∧ '\x00' ∉ n := by
  constructor
  · rintro ⟨haccepts, -⟩ sp hsp hpos hfits
    have haccepted : (parse C ('@' :: n) outEpoch).1 = true := by
      rw [parse_epoch hsp, if_pos ⟨hpos, hfits⟩]
    obtain ⟨hdecimal, -⟩ := haccepts.mp haccepted
    rw [hdecimal.eq_spelling hsp]
    exact ⟨⟨rfl, rfl⟩, fun hnul => absurd (hdecimal.2 _ hnul) (by decide)⟩
  · intro h
    by_cases hread : ∃ sp : Spelling, sp.text = cStr n
    · obtain ⟨sp, hsp⟩ := hread
      rw [parse_epoch hsp]
      by_cases hok : 0 < sp.value ∧ C.Represents sp.value
      · obtain ⟨⟨hblanks, hsign⟩, hnul⟩ := h sp hsp hok.1 hok.2
        have hn : sp.digits = n := by
          rw [cStr_of_notMem hnul, Spelling.text, hblanks, hsign] at hsp
          exact hsp
        have hdecimal : IsDecimal n := hn ▸ ⟨sp.digits_ne_nil, sp.digits_digit⟩
        have hvalue : sp.value = decimalValue n := by
          rw [hdecimal.eq_spelling hsp]
          rfl
        rw [if_pos hok, ← hvalue]
        exact ⟨iff_of_true rfl ⟨hdecimal, hok⟩, fun _ => rfl⟩
      · rw [if_neg hok]
        have hout : ¬(IsDecimal n ∧ 0 < decimalValue n ∧ C.Represents (decimalValue n)) := by
          rintro ⟨hdecimal, hvalue⟩
          refine hok ?_
          rw [hdecimal.eq_spelling hsp]
          exact hvalue
        exact ⟨iff_of_false Bool.false_ne_true hout, fun haccepted => by cases haccepted⟩
    · rw [parse_epoch_unread fun sp hsp => hread ⟨sp, hsp⟩]
      exact ⟨iff_of_false Bool.false_ne_true
          fun hdecimal => hread ⟨hdecimal.1.spelling, hdecimal.1.cStr_eq.symm⟩,
        fun haccepted => by cases haccepted⟩

end BallyDongle.ClockText
