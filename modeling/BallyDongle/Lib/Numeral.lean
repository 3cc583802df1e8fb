import BallyDongle.Lib.Hex
import Mathlib.Data.List.Induction

/-!
# Numbers read from text

The value of a list of digits in a base, and `strtoul`, which finds out the base of a
numeral from how it begins. Digits denote the same number in two bases just when all of
them but the last are zero.
-/

namespace Numeral

/-- The value of digits, most significant first. -/
def value (base : Nat) (ds : List Nat) : Nat := ds.foldl (fun acc d => acc * base + d) 0

section value

variable {b b' : Nat} {ds : List Nat}

@[simp] theorem value_append_singleton (b : Nat) (ds : List Nat) (d : Nat) :
    value b (ds ++ [d]) = value b ds * b + d := by
  simp [value]

theorem value_mono (h : b ≤ b') : value b ds ≤ value b' ds := by
  induction ds using List.reverseRecOn with
  | nil => exact Nat.le_refl 0
  | append_singleton ds d ih =>
    rw [value_append_singleton, value_append_singleton]
    exact Nat.add_le_add_right (Nat.mul_le_mul ih h) d

theorem value_eq_zero (hb : 0 < b) : value b ds = 0 ↔ ∀ d ∈ ds, d = 0 := by
  induction ds using List.reverseRecOn with
  | nil => simp [value]
  | append_singleton ds d ih =>
    simp only [value_append_singleton, Nat.add_eq_zero_iff, Nat.mul_eq_zero, ih, List.mem_append,
      List.mem_singleton, or_imp, forall_and, forall_eq]
    exact and_congr_left fun _ => or_iff_left (Nat.ne_of_gt hb)

/-- A value below the base is that of the last digit. -/
theorem value_mem (hds : ds ≠ []) (h : value b ds < b) : value b ds ∈ ds := by
  induction ds using List.reverseRecOn with
  | nil => exact absurd rfl hds
  | append_singleton ds d ih =>
    rw [value_append_singleton] at h ⊢
    have hzero : value b ds = 0 := by
      by_contra hne
      have hle := Nat.le_mul_of_pos_left b (Nat.pos_of_ne_zero hne)
      omega
    rw [hzero, Nat.zero_mul, Nat.zero_add]
    exact List.mem_append_right _ (.head _)

/-- Two bases agree on digits that denote a single one. -/
theorem value_eq_iff (hb : 0 < b) (hlt : b < b') (hds : ∀ d ∈ ds, d < b) :
    value b ds = value b' ds ↔ value b' ds < b := by
  induction ds using List.reverseRecOn with
  | nil => exact iff_of_true rfl hb
  | append_singleton ds d ih =>
    have hd : d < b := hds d (List.mem_append_right _ (.head _))
    rw [value_append_singleton, value_append_singleton]
    by_cases hzero : value b' ds = 0
    · have hzero' : value b ds = 0 := Nat.le_zero.1 (hzero ▸ value_mono (Nat.le_of_lt hlt))
      rw [hzero, hzero', Nat.zero_mul, Nat.zero_mul]
      exact iff_of_true rfl (by omega)
    · have hpos := Nat.pos_of_ne_zero hzero
      have hless : value b ds * b < value b' ds * b' :=
        Nat.lt_of_le_of_lt (Nat.mul_le_mul_right b (value_mono (Nat.le_of_lt hlt)))
          (Nat.mul_lt_mul_of_pos_left hlt hpos)
      have hbig := Nat.le_mul_of_pos_left b' hpos
      exact iff_of_false (by omega) (by omega)

theorem value_nibbles (width n : Nat) : value 16 (Hex.nibbles width n) = n % 16 ^ width := by
  induction width generalizing n with
  | zero => rw [Nat.pow_zero, Nat.mod_one]; rfl
  | succ width ih =>
    rw [Hex.nibbles, value_append_singleton, ih, Nat.pow_succ', Nat.mod_mul]
    omega

theorem value_lt (hds : ∀ d ∈ ds, d < b) : value b ds < b ^ ds.length := by
  induction ds using List.reverseRecOn with
  | nil => exact Nat.one_pos
  | append_singleton ds d ih =>
    have hd : d < b := hds d (List.mem_append_right _ (.head _))
    have hlt := ih fun d' hd' => hds d' (List.mem_append_left _ hd')
    have hle := Nat.mul_le_mul_right b (Nat.succ_le_of_lt hlt)
    rw [value_append_singleton, List.length_append, List.length_singleton, Nat.pow_succ]
    rw [Nat.succ_mul] at hle
    omega

theorem nibbles_value (hds : ∀ d ∈ ds, d < 16) : Hex.nibbles ds.length (value 16 ds) = ds := by
  induction ds using List.reverseRecOn with
  | nil => rfl
  | append_singleton ds d ih =>
    have hd : d < 16 := hds d (List.mem_append_right _ (.head _))
    have hdiv : (value 16 ds * 16 + d) / 16 = value 16 ds := by omega
    have hmod : (value 16 ds * 16 + d) % 16 = d := by omega
    rw [List.length_append, List.length_singleton, value_append_singleton, Hex.nibbles, hdiv, hmod,
      ih fun d' hd' => hds d' (List.mem_append_left _ hd')]

end value

/-! ## Digits in text -/

/-- Digits up to 35, the letters in either case. -/
def digitValue (c : Char) : Option Nat :=
  if '0' ≤ c ∧ c ≤ '9' then some (c.toNat - 48)
  else if 'A' ≤ c ∧ c ≤ 'Z' then some (c.toNat - 55)
  else if 'a' ≤ c ∧ c ≤ 'z' then some (c.toNat - 87)
  else none

def digitIn (base : Nat) (c : Char) : Option Nat := (digitValue c).filter (· < base)

/-- The digits a text begins with, and what follows them. -/
def takeDigits (base : Nat) : List Char → List Nat × List Char
  | [] => ([], [])
  | c :: cs =>
    match digitIn base c with
    | none => ([], c :: cs)
    | some d => (d :: (takeDigits base cs).1, (takeDigits base cs).2)

section digits

variable {base : Nat} {cs : List Char} {ds : List Nat} {f : Nat → Char}

theorem takeDigits_map (h : ∀ d ∈ ds, digitIn base (f d) = some d) :
    takeDigits base (ds.map f) = (ds, []) := by
  induction ds with
  | nil => rfl
  | cons d ds ih =>
    rw [List.map_cons, takeDigits, h d (.head _), ih fun d hd => h d (.tail _ hd)]

theorem takeDigits_eq_nil (h : ∀ c ∈ cs, (digitIn base c).isSome = true) :
    ∃ ds, takeDigits base cs = (ds, []) ∧ List.Forall₂ (fun c d => digitIn base c = some d) cs ds := by
  induction cs with
  | nil => exact ⟨[], rfl, .nil⟩
  | cons c cs ih =>
    obtain ⟨d, hd⟩ := Option.isSome_iff_exists.1 (h c (.head _))
    obtain ⟨ds, htake, hall⟩ := ih fun c' hc' => h c' (.tail _ hc')
    exact ⟨d :: ds, by rw [takeDigits, hd, htake], .cons hd hall⟩

/-- A character that is no digit ends the numeral. -/
theorem takeDigits_snd_ne_nil {c : Char} (hmem : c ∈ cs) (h : digitIn base c = none) :
    (takeDigits base cs).2 ≠ [] := by
  induction cs with
  | nil => cases hmem
  | cons c' cs ih =>
    rw [takeDigits]
    cases hc' : digitIn base c' with
    | none => exact List.cons_ne_nil _ _
    | some d =>
      obtain rfl | hmem := List.mem_cons.1 hmem
      · rw [h] at hc'
        cases hc'
      · exact ih hmem

end digits

theorem digitIn_of_lt {base d : Nat} (hd : d < base) {c : Char} (h : digitValue c = some d) :
    digitIn base c = some d := by
  rw [digitIn, h, Option.filter_some, if_pos (decide_eq_true hd)]

theorem digitIn_of_ge {base d : Nat} (hd : base ≤ d) {c : Char} (h : digitValue c = some d) :
    digitIn base c = none := by
  rw [digitIn, h, Option.filter_some, if_neg (by simpa using hd)]

/-! ## `strtoul` -/

def isSpace (c : Char) : Bool := [' ', '\t', '\n', '\x0b', '\x0c', '\r'].contains c

/-- Whether a minus sign stands in front, and what follows the sign. -/
def takeSign : List Char → Bool × List Char
  | '-' :: cs => (true, cs)
  | '+' :: cs => (false, cs)
  | cs => (false, cs)

/-- The base of a numeral, and its text after the `0x`; base 0 goes by how it begins. -/
def takeRadix (base : Nat) : List Char → Nat × List Char
  | '0' :: x :: c :: cs =>
    if (base = 0 ∨ base = 16) ∧ (x = 'x' ∨ x = 'X') ∧ (digitIn 16 c).isSome then (16, c :: cs)
    else (if base = 0 then 8 else base, '0' :: x :: c :: cs)
  | '0' :: cs => (if base = 0 then 8 else base, '0' :: cs)
  | cs => (if base = 0 then 10 else base, cs)

/-- A text without an `x` is a numeral as a whole. -/
theorem takeRadix_plain {base : Nat} {cs : List Char} (h : ∀ c ∈ cs, c ≠ 'x' ∧ c ≠ 'X') :
    takeRadix base cs =
      (if base = 0 then if cs.head? = some '0' then 8 else 10 else base, cs) := by
  unfold takeRadix
  split
  · rename_i x c cs
    have hx := h x (.tail _ (.head _))
    rw [if_neg fun hhex => hhex.2.1.elim hx.1 hx.2, List.head?_cons, if_pos rfl]
  · rw [List.head?_cons, if_pos rfl]
  · rename_i hzero
    have hhead : cs.head? ≠ some '0' := fun hhead => by
      obtain ⟨tail, rfl⟩ := List.head?_eq_some_iff.1 hhead
      exact hzero tail rfl
    rw [if_neg hhead]

theorem takeRadix_prefixed {c : Char} {cs : List Char} (h : (digitIn 16 c).isSome) :
    takeRadix 0 ('0' :: 'x' :: c :: cs) = (16, c :: cs) :=
  if_pos ⟨.inl rfl, .inl rfl, h⟩

/-- The number and the text `endptr` points to. A number above `ulongMax` is `ulongMax`. -/
def strtoul (ulongMax : Nat) (text : List Char) (base : Nat) : Nat × List Char :=
  let (negative, unsigned) := takeSign (text.dropWhile isSpace)
  let (base, numeral) := takeRadix base unsigned
  let (ds, rest) := takeDigits base numeral
  if ds = [] then (0, text)
  else if ulongMax < value base ds then (ulongMax, rest)
  else if negative ∧ value base ds ≠ 0 then (ulongMax + 1 - value base ds, rest)
  else (value base ds, rest)

theorem strtoul_unsigned {ulongMax base base' : Nat} {text numeral rest : List Char} {ds : List Nat}
    (hsign : takeSign (text.dropWhile isSpace) = (false, text))
    (hradix : takeRadix base text = (base', numeral))
    (hdigits : takeDigits base' numeral = (ds, rest)) (hds : ds ≠ []) :
    strtoul ulongMax text base = (min (value base' ds) ulongMax, rest) := by
  rw [strtoul, hsign]
  dsimp only
  rw [hradix]
  dsimp only
  rw [hdigits]
  dsimp only
  rw [if_neg hds, if_neg (show ¬(false = true ∧ _) from fun h => Bool.false_ne_true h.1)]
  split
  · rw [Nat.min_eq_right (by omega)]
  · rw [Nat.min_eq_left (by omega)]

/-- `endptr` is not at the end of a text that holds something other than digits. -/
theorem strtoul_rest_ne_nil {ulongMax base base' : Nat} {text numeral : List Char}
    (hsign : takeSign (text.dropWhile isSpace) = (false, text))
    (hradix : takeRadix base text = (base', numeral)) {c : Char} (hmem : c ∈ numeral)
    (hc : digitIn base' c = none) (htext : text ≠ []) : (strtoul ulongMax text base).2 ≠ [] := by
  rw [strtoul, hsign]
  dsimp only
  rw [hradix]
  dsimp only
  have hrest := takeDigits_snd_ne_nil hmem hc
  split
  · exact htext
  · split
    · exact hrest
    · split <;> exact hrest

/-! ## `strtol` -/

/-- `strtol` and `strtoll` in base 10, in a type whose largest value is `maxValue`: the number,
held at the ends of the type, and what follows it. -/
def strtol (maxValue : Nat) (text : List Char) : Int × List Char :=
  let (negative, numeral) := takeSign (text.dropWhile isSpace)
  let (ds, rest) := takeDigits 10 numeral
  if ds = [] then (0, text)
  else if negative then (-(min (value 10 ds) (maxValue + 1) : Nat), rest)
  else ((min (value 10 ds) maxValue : Nat), rest)

end Numeral
