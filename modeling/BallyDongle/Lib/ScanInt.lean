import BallyDongle.Lib.Numeral
import Mathlib.Data.List.TakeWhile

/-!
# Decimal integers as C reads them

`strtol` and `%d` take white space, a sign and digits. A `Spelling` is such a text with its
parts; what is read from a text is a spelling in front of it (`readInt_eq_some`), and only
one is (`Spelling.eq_of_append_eq`). `sscanf` follows a format of numbers, literal characters
and white space.
-/

namespace ScanInt

open Numeral

inductive Sign
  | plus | minus
  deriving DecidableEq, Repr

def Sign.char : Sign → Char
  | .plus => '+'
  | .minus => '-'

structure Spelling where
  blanks : List Char
  sign : Option Sign
  digits : List Char
  blanks_space : ∀ c ∈ blanks, isSpace c = true
  digits_ne_nil : digits ≠ []
  digits_digit : ∀ c ∈ digits, c.isDigit = true

def Spelling.text (sp : Spelling) : List Char :=
  sp.blanks ++ (sp.sign.map Sign.char).toList ++ sp.digits

def Spelling.value (sp : Spelling) : Int :=
  if sp.sign = some .minus then -(Nat.ofDigitChars 10 sp.digits 0 : Int)
  else Nat.ofDigitChars 10 sp.digits 0

/-- Nothing but digits. -/
def Spelling.Plain (sp : Spelling) : Prop := sp.blanks = [] ∧ sp.sign = none

/-- What does not go on with a digit. -/
def Ended (rest : List Char) : Prop := ∀ c ∈ rest.head?, c.isDigit = false

/-- The number a text begins with, and what follows it. -/
def readInt (text : List Char) : Option (Int × List Char) :=
  let (negative, numeral) := takeSign (text.dropWhile isSpace)
  let digits := numeral.takeWhile Char.isDigit
  if digits = [] then none
  else
    let value : Int := Nat.ofDigitChars 10 digits 0
    some (if negative then -value else value, numeral.dropWhile Char.isDigit)

/-! ## Runs of characters -/

section

variable {α : Type} {p : α → Bool} {run run' rest rest' : List α}

theorem takeWhile_run (hrun : ∀ a ∈ run, p a = true) (hrest : ∀ a ∈ rest.head?, p a = false) :
    (run ++ rest).takeWhile p = run ∧ (run ++ rest).dropWhile p = rest := by
  rw [List.takeWhile_append_of_pos hrun, List.dropWhile_append_of_pos hrun]
  cases rest with
  | nil => exact ⟨List.append_nil _, rfl⟩
  | cons a rest =>
    have ha : ¬p a = true := by simp [hrest a rfl]
    rw [List.takeWhile_cons_of_neg ha, List.dropWhile_cons_of_neg ha]
    exact ⟨List.append_nil _, rfl⟩

theorem run_eq_of_append_eq (hrun : ∀ a ∈ run, p a = true) (hrun' : ∀ a ∈ run', p a = true)
    (hrest : ∀ a ∈ rest.head?, p a = false) (hrest' : ∀ a ∈ rest'.head?, p a = false)
    (h : run ++ rest = run' ++ rest') : run = run' ∧ rest = rest' := by
  obtain ⟨htake, hdrop⟩ := takeWhile_run hrun hrest
  obtain ⟨htake', hdrop'⟩ := takeWhile_run hrun' hrest'
  rw [h] at htake hdrop
  exact ⟨htake.symm.trans htake', hdrop.symm.trans hdrop'⟩

end

/-! ## Spellings -/

variable {sp sp' : Spelling} {rest rest' text : List Char}

/-- What comes after the blanks. -/
def Spelling.numeral (sp : Spelling) : List Char :=
  (sp.sign.map Sign.char).toList ++ sp.digits

theorem Spelling.text_append (sp : Spelling) (rest : List Char) :
    sp.text ++ rest = sp.blanks ++ (sp.numeral ++ rest) := by
  simp [Spelling.text, Spelling.numeral]

theorem isSpace_of_isDigit {c : Char} (h : c.isDigit = true) : isSpace c = false := by
  by_contra hspace
  simp only [isSpace, Bool.not_eq_false, List.contains_iff_mem] at hspace
  simp only [List.mem_cons, List.not_mem_nil, or_false] at hspace
  rcases hspace with rfl | rfl | rfl | rfl | rfl | rfl
  all_goals cases h

theorem isDigit_of_isSpace {c : Char} (h : isSpace c = true) : c.isDigit = false := by
  by_contra hdigit
  rw [isSpace_of_isDigit (by simpa using hdigit)] at h
  exact Bool.false_ne_true h

theorem ended_nil : Ended [] := by
  intro c hc
  cases hc

theorem ended_cons {c : Char} (h : c.isDigit = false) (cs : List Char) : Ended (c :: cs) := by
  intro d hd
  obtain rfl := Option.some.inj hd
  exact h

theorem Sign.not_digit (sign : Sign) : sign.char.isDigit = false := by
  cases sign <;> rfl

theorem Sign.eq_of_chars {sign sign' : Option Sign}
    (h : (sign.map Sign.char).toList = (sign'.map Sign.char).toList) : sign = sign' := by
  revert h
  rcases sign with _ | _ | _ <;> rcases sign' with _ | _ | _ <;> decide

theorem Spelling.exists_digit (sp : Spelling) :
    ∃ c cs, sp.digits = c :: cs ∧ c.isDigit = true := by
  cases hdigits : sp.digits with
  | nil => exact absurd hdigits sp.digits_ne_nil
  | cons c cs => exact ⟨c, cs, rfl, sp.digits_digit c (hdigits ▸ .head _)⟩

theorem Spelling.text_ne_nil (sp : Spelling) : sp.text ≠ [] := fun h =>
  sp.digits_ne_nil (List.append_eq_nil_iff.mp h).2

theorem Spelling.numeral_not_space (sp : Spelling) (rest : List Char) :
    ∀ c ∈ (sp.numeral ++ rest).head?, isSpace c = false := by
  intro c hc
  obtain ⟨d, ds, hdigits, hd⟩ := sp.exists_digit
  rw [Spelling.numeral, hdigits] at hc
  cases hsign : sp.sign with
  | none =>
    rw [hsign] at hc
    obtain rfl := Option.some.inj hc
    exact isSpace_of_isDigit hd
  | some sign =>
    rw [hsign] at hc
    obtain rfl := Option.some.inj hc
    cases sign <;> rfl

theorem Spelling.takeSign_numeral (sp : Spelling) (rest : List Char) :
    takeSign (sp.numeral ++ rest) = (decide (sp.sign = some .minus), sp.digits ++ rest) := by
  obtain ⟨d, ds, hdigits, hd⟩ := sp.exists_digit
  rw [Spelling.numeral]
  cases sp.sign with
  | none =>
    rw [hdigits]
    show takeSign (d :: (ds ++ rest)) = (false, d :: (ds ++ rest))
    unfold takeSign
    split
    · rename_i heq
      cases heq
      cases hd
    · rename_i heq
      cases heq
      cases hd
    · rfl
  | some sign => cases sign <;> rfl

/-- What is read is what is spelled, and what follows has no further digit of it. -/
theorem readInt_spelling (sp : Spelling) (hrest : Ended rest) :
    readInt (sp.text ++ rest) = some (sp.value, rest) := by
  obtain ⟨-, hblanks⟩ := takeWhile_run sp.blanks_space (sp.numeral_not_space rest)
  obtain ⟨htake, hdrop⟩ := takeWhile_run sp.digits_digit hrest
  rw [readInt, sp.text_append, hblanks, sp.takeSign_numeral]
  simp only [htake, hdrop]
  rw [if_neg sp.digits_ne_nil, Spelling.value]
  simp

/-- The sign that `takeSign` takes off. -/
theorem exists_sign (cs : List Char) :
    ∃ sign : Option Sign, cs = (sign.map Sign.char).toList ++ (takeSign cs).2 ∧
      (takeSign cs).1 = decide (sign = some .minus) := by
  unfold takeSign
  split
  · exact ⟨some .minus, rfl, rfl⟩
  · exact ⟨some .plus, rfl, rfl⟩
  · exact ⟨none, rfl, rfl⟩

theorem ended_dropWhile (cs : List Char) : Ended (cs.dropWhile Char.isDigit) := by
  intro c hc
  have hhead := List.head?_dropWhile_not Char.isDigit cs
  rw [hc] at hhead
  simpa using hhead

theorem readInt_eq_some {n : Int} :
    readInt text = some (n, rest) ↔
      ∃ sp : Spelling, text = sp.text ++ rest ∧ sp.value = n ∧ Ended rest := by
  constructor
  · intro h
    obtain ⟨sign, hsign, hnegative⟩ := exists_sign (text.dropWhile isSpace)
    rw [readInt] at h
    dsimp only at h
    split at h
    · cases h
    · rename_i hdigits
      obtain ⟨rfl, rfl⟩ := Prod.mk.inj (Option.some.inj h)
      let sp : Spelling :=
        { blanks := text.takeWhile isSpace
          sign := sign
          digits := (takeSign (text.dropWhile isSpace)).2.takeWhile Char.isDigit
          blanks_space := fun c hc => List.mem_takeWhile_imp hc
          digits_ne_nil := hdigits
          digits_digit := fun c hc => List.mem_takeWhile_imp hc }
      refine ⟨sp, ?_, ?_, ended_dropWhile _⟩
      · rw [sp.text_append, Spelling.numeral, List.append_assoc, List.takeWhile_append_dropWhile,
          ← hsign, List.takeWhile_append_dropWhile]
      · rw [Spelling.value, hnegative]
        simp [sp]
  · rintro ⟨sp, rfl, rfl, hrest⟩
    exact readInt_spelling sp hrest

/-- A text is spelled in one way only. -/
theorem Spelling.eq_of_append_eq (hrest : Ended rest) (hrest' : Ended rest')
    (h : sp.text ++ rest = sp'.text ++ rest') : sp = sp' ∧ rest = rest' := by
  rw [sp.text_append, sp'.text_append] at h
  obtain ⟨hblanks, hnumeral⟩ := run_eq_of_append_eq sp.blanks_space sp'.blanks_space
    (sp.numeral_not_space rest) (sp'.numeral_not_space rest') h
  have hsigned := congrArg (fun cs => (takeSign cs).2) hnumeral
  simp only [Spelling.takeSign_numeral] at hsigned
  obtain ⟨hdigits, hrests⟩ :=
    run_eq_of_append_eq sp.digits_digit sp'.digits_digit hrest hrest' hsigned
  refine ⟨?_, hrests⟩
  rw [Spelling.numeral, Spelling.numeral, List.append_assoc, List.append_assoc, hsigned] at hnumeral
  have hsign := Sign.eq_of_chars (List.append_cancel_right hnumeral)
  cases sp
  cases sp'
  simp_all

/-! ## `sscanf` -/

inductive Directive
  | int
  | literal (c : Char)
  | space
  deriving DecidableEq, Repr

/-- A number held at the ends of a type whose largest value is `maxValue`. -/
def held (maxValue : Nat) (n : Int) : Int := max (-(maxValue + 1 : Int)) (min n maxValue)

/-- The numbers that are stored before the text departs from the format. -/
def sscanf (maxValue : Nat) : List Directive → List Char → List Int
  | [], _ => []
  | .int :: format, text =>
    match readInt text with
    | none => []
    | some (n, rest) => held maxValue n :: sscanf maxValue format rest
  | .literal _ :: _, [] => []
  | .literal c :: format, d :: text => if d = c then sscanf maxValue format text else []
  | .space :: format, text => sscanf maxValue format (text.dropWhile isSpace)

section sscanf

variable {maxValue : Nat} {format : List Directive} {n : Int} {ns : List Int}

theorem sscanf_int :
    sscanf maxValue (.int :: format) text = n :: ns ↔
      ∃ sp rest, text = Spelling.text sp ++ rest ∧ Ended rest ∧ held maxValue sp.value = n ∧
        sscanf maxValue format rest = ns := by
  rw [sscanf]
  constructor
  · intro h
    split at h
    · cases h
    · rename_i value rest hread
      obtain ⟨sp, htext, hvalue, hended⟩ := readInt_eq_some.mp hread
      obtain ⟨hn, hns⟩ := List.cons.inj h
      exact ⟨sp, rest, htext, hended, hvalue ▸ hn, hns⟩
  · rintro ⟨sp, rest, rfl, hended, rfl, rfl⟩
    rw [readInt_spelling sp hended]

theorem sscanf_literal {c : Char} :
    sscanf maxValue (.literal c :: format) text = n :: ns ↔
      ∃ rest, text = c :: rest ∧ sscanf maxValue format rest = n :: ns := by
  cases text with
  | nil => simp [sscanf]
  | cons d text =>
    rw [sscanf]
    by_cases hd : d = c
    · simp [hd]
    · simp [hd]

theorem sscanf_space :
    sscanf maxValue (.space :: format) text = ns ↔
      ∃ gap rest, text = gap ++ rest ∧ (∀ c ∈ gap, isSpace c = true) ∧
        (∀ c ∈ rest.head?, isSpace c = false) ∧ sscanf maxValue format rest = ns := by
  rw [sscanf]
  constructor
  · intro h
    refine ⟨text.takeWhile isSpace, text.dropWhile isSpace, ?_, ?_, ?_, h⟩
    · rw [List.takeWhile_append_dropWhile]
    · exact fun c hc => List.mem_takeWhile_imp hc
    · intro c hc
      have hhead := List.head?_dropWhile_not isSpace text
      rw [hc] at hhead
      simpa using hhead
  · rintro ⟨gap, rest, rfl, hgap, hrest, rfl⟩
    rw [(takeWhile_run hgap hrest).2]

end sscanf

/-! ## Numbers as they are printed -/

/-- `%0*d`. -/
def padded (width n : Nat) : List Char :=
  List.replicate (width - (Nat.toDigits 10 n).length) '0' ++ Nat.toDigits 10 n

theorem isDigit_of_mem_padded {width n : Nat} {c : Char} (h : c ∈ padded width n) :
    c.isDigit = true := by
  rcases List.mem_append.mp h with hzero | hdigit
  · rw [(List.mem_replicate.mp hzero).2]
    rfl
  · exact Nat.isDigit_of_mem_toDigits (by decide) (by decide) hdigit

theorem padded_ne_nil (width n : Nat) : padded width n ≠ [] := fun h =>
  Nat.toDigits_ne_nil (List.append_eq_nil_iff.mp h).2

theorem ofDigitChars_padded (width n : Nat) : Nat.ofDigitChars 10 (padded width n) 0 = n := by
  rw [padded, Nat.ofDigitChars_append, Nat.ofDigitChars_replicate_zero, Nat.mul_zero,
    Nat.ofDigitChars_ten_toDigits]

theorem length_padded {width n : Nat} (hwidth : 0 < width) (h : n < 10 ^ width) :
    (padded width n).length = width := by
  have hlength := (Nat.length_toDigits_le_iff (by decide) hwidth).mpr h
  rw [padded, List.length_append, List.length_replicate]
  omega

theorem padded_step {width n d : Nat} (hwidth : 0 < width) (hd : d < 10) :
    padded (width + 1) (10 * n + d) = padded width n ++ [d.digitChar] := by
  rcases Nat.eq_zero_or_pos n with rfl | hn
  · obtain ⟨width, rfl⟩ := Nat.exists_eq_succ_of_ne_zero (Nat.ne_of_gt hwidth)
    rw [Nat.mul_zero, Nat.zero_add, padded, padded, Nat.toDigits_of_lt_base hd, Nat.toDigits_zero,
      List.length_singleton, List.length_singleton, Nat.add_sub_cancel, Nat.succ_sub_one,
      ← List.replicate_succ']
  · rw [padded, padded, ← Nat.toDigits_append_toDigits (by decide) hn hd,
      Nat.toDigits_of_lt_base hd, List.length_append, List.length_singleton,
      Nat.add_sub_add_right, List.append_assoc]

theorem digitChar_of_isDigit {c : Char} (h : c.isDigit = true) :
    c.toNat - 48 < 10 ∧ (c.toNat - 48).digitChar = c := by
  have hdigit : ∀ d < 10, d.digitChar = Char.ofNat (48 + d) := by decide
  have hrange : 48 ≤ c.toNat ∧ c.toNat ≤ 57 := by
    simp only [Char.isDigit, Bool.and_eq_true, decide_eq_true_eq] at h
    exact h
  have hlt : c.toNat - 48 < 10 := by omega
  refine ⟨hlt, ?_⟩
  rw [hdigit _ hlt, Nat.add_sub_cancel' hrange.1, Char.ofNat_toNat]

/-- Digits are printed back from their value. -/
theorem padded_ofDigitChars {ds : List Char} (hne : ds ≠ []) (hds : ∀ c ∈ ds, c.isDigit = true) :
    padded ds.length (Nat.ofDigitChars 10 ds 0) = ds := by
  induction ds using List.reverseRecOn with
  | nil => exact absurd rfl hne
  | append_singleton ds c ih =>
    obtain ⟨hlt, hchar⟩ := digitChar_of_isDigit (hds c (List.mem_append_right _ (.head _)))
    rw [Nat.ofDigitChars_append, Nat.ofDigitChars_cons, Nat.ofDigitChars_nil, List.length_append,
      List.length_singleton]
    by_cases hds' : ds = []
    · subst hds'
      show padded 1 (10 * 0 + (c.toNat - 48)) = [c]
      rw [Nat.mul_zero, Nat.zero_add, padded, Nat.toDigits_of_lt_base hlt, hchar]
      rfl
    · show padded (ds.length + 1) (10 * _ + (c.toNat - 48)) = _
      rw [padded_step (List.length_pos_of_ne_nil hds') hlt, hchar,
        ih hds' fun d hd => hds d (List.mem_append_left _ hd)]

theorem ofDigitChars_lt {ds : List Char} (hne : ds ≠ []) (hds : ∀ c ∈ ds, c.isDigit = true) :
    Nat.ofDigitChars 10 ds 0 < 10 ^ ds.length := by
  have hlength := congrArg List.length (padded_ofDigitChars hne hds)
  rw [padded, List.length_append] at hlength
  exact (Nat.length_toDigits_le_iff (by decide) (List.length_pos_of_ne_nil hne)).mp (by omega)

end ScanInt
