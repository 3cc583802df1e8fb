import BallyDongle.Lib.Numeral
import BallyDongle.SerialSession
import Mathlib.Data.List.Forall2

/-!
# ENTER and READY

`tryParseEnterLine` copies the digits of the line, folding their case;
`buildReadyLineFromNonce` shifts them out of a number. Both store into an array of
the caller. They write the same line, of the number that the digits denote
(`enter_ready`).
-/

namespace BallyDongle.SerialSession

def kReadyLineCapacity : Nat := 32

abbrev ReadyLine := Vector Char kReadyLineCapacity

/-- `outReadyLine[pos++] = c` for each character; `none` where one falls outside. -/
def store (outReadyLine : ReadyLine) : (pos : Nat) → List Char → Option ReadyLine
  | _, [] => some outReadyLine
  | pos, c :: cs =>
    if h : pos < kReadyLineCapacity then store (outReadyLine.set pos c h) (pos + 1) cs else none

/-- `tryParseEnterLine` with the array it stores the READY line in. The line is the
characters before the NUL, `none` for a null pointer. -/
def tryParseEnterLineInto (line : Option (List Char)) (outReadyLine : ReadyLine) :
    Option (Bool × ReadyLine) :=
  match line.bind tryParseEnterLine with
  | none => some (false, outReadyLine)
  | some readyLine => (store outReadyLine 0 (readyLine ++ ['\x00'])).map fun out => (true, out)

def buildReadyLineFromNonceInto (nonce : UInt64) (outReadyLine : ReadyLine) : Option ReadyLine :=
  store outReadyLine 0 (buildReadyLineFromNonce nonce ++ ['\x00'])

/-! ## The grammar -/

/-- An ENTER line: the words, one space, and sixteen hexadecimal digits in any case. -/
def IsEnterLine (line digits : List Char) : Prop :=
  line = "BTP/1 ENTER ".toList ++ digits ∧ digits.length = 16 ∧
    ∀ c ∈ digits, (Numeral.digitIn 16 c).isSome = true

/-- The number that hexadecimal digits denote, when all of the text is such digits. -/
def numberOf (digits : List Char) : Option Nat :=
  match Numeral.takeDigits 16 digits with
  | (ds, []) => some (Numeral.value 16 ds)
  | _ => none

/-- The ENTER line of a nonce, in capital digits. -/
def enterLine (nonce : UInt64) : List Char :=
  "BTP/1 ENTER ".toList ++ Hex.digits kNonceHexLength nonce.toNat

/-- The digits of a stored READY line. -/
def ReadyLine.digits (out : ReadyLine) : List Char :=
  (out.toList.drop "BTP/1 READY ".toList.length).take kNonceHexLength

/-! ## Storing -/

theorem store_eq {out : ReadyLine} {pos : Nat} {cs : List Char}
    (hfits : pos + cs.length ≤ kReadyLineCapacity) :
    ∃ out', store out pos cs = some out' ∧
      out'.toList = out.toList.take pos ++ cs ++ out.toList.drop (pos + cs.length) := by
  induction cs generalizing out pos with
  | nil => exact ⟨out, rfl, by simp⟩
  | cons c cs ih =>
    rw [List.length_cons] at hfits
    have hpos : pos < kReadyLineCapacity := by omega
    obtain ⟨out', hstore, hlist⟩ := @ih (out.set pos c hpos) (pos + 1) (by omega)
    refine ⟨out', by rw [store, dif_pos hpos, hstore], ?_⟩
    have hlen : (out.toList.take pos).length = pos :=
      List.length_take_of_le (by rw [Vector.length_toList]; omega)
    have hset : (out.set pos c hpos).toList = out.toList.take pos ++ c :: out.toList.drop (pos + 1) := by
      rw [Vector.toList_set, List.set_eq_take_append_cons_drop, if_pos (by rwa [Vector.length_toList])]
    have htake : (out.toList.take pos ++ c :: out.toList.drop (pos + 1)).take (pos + 1) =
        out.toList.take pos ++ [c] := by
      rw [List.take_append, hlen, List.take_of_length_le (by omega), Nat.add_sub_cancel_left]
      rfl
    have hdrop : (out.toList.take pos ++ c :: out.toList.drop (pos + 1)).drop (pos + 1 + cs.length) =
        out.toList.drop (pos + (cs.length + 1)) := by
      rw [List.drop_append, hlen, List.drop_eq_nil_of_le (by omega), List.nil_append,
        Nat.add_assoc, Nat.add_sub_cancel_left, Nat.add_comm 1, List.drop_succ_cons, List.drop_drop]
      congr 1
      omega
    rw [hlist, hset, htake, hdrop]
    simp

/-! ## Digits -/

/-- The lower-case digit of a value below 16. -/
def lowerDigit (d : Nat) : Char := "0123456789abcdef".toList.getD d '0'

theorem isHexDigit_ascii : ∀ n < 128,
    isHexDigit (Char.ofNat n) = (Numeral.digitIn 16 (Char.ofNat n)).isSome := by
  decide +kernel

theorem toLowerHex_ascii : ∀ n < 128, ∀ d < 16, Numeral.digitIn 16 (Char.ofNat n) = some d →
    toLowerHex (Char.ofNat n) = lowerDigit d := by
  decide +kernel

theorem digitIn_lowerDigit : ∀ d < 16, Numeral.digitIn 16 (lowerDigit d) = some d := by
  decide

theorem digitIn_hexDigit : ∀ d < 16, Numeral.digitIn 16 (Hex.digit d) = some d := by
  decide

theorem toNat_lt_of_digitIn {c : Char} {d : Nat} (h : Numeral.digitIn 16 c = some d) :
    c.toNat < 128 := by
  have hbelow : ∀ {last : Char}, c ≤ last → last.toNat < 128 → c.toNat < 128 :=
    fun hc hlast => Nat.lt_of_le_of_lt hc hlast
  rw [Numeral.digitIn, Option.filter_eq_some_iff, Numeral.digitValue] at h
  have hvalue := h.1
  split at hvalue
  · rename_i hc
    exact hbelow hc.2 (by decide)
  split at hvalue
  · rename_i hc
    exact hbelow hc.2 (by decide)
  split at hvalue
  · rename_i hc
    exact hbelow hc.2 (by decide)
  · cases hvalue

theorem digitIn_lt {c : Char} {d : Nat} (h : Numeral.digitIn 16 c = some d) : d < 16 := by
  rw [Numeral.digitIn, Option.filter_eq_some_iff] at h
  simpa using h.2

theorem toNat_lt_of_isHexDigit {c : Char} (h : isHexDigit c = true) : c.toNat < 128 := by
  have hle : ∀ {c c' : Char}, c ≤ c' → c.toNat ≤ c'.toNat := fun h => h
  simp only [isHexDigit, Bool.or_eq_true, Bool.and_eq_true, decide_eq_true_eq] at h
  rcases h with (⟨-, h⟩ | ⟨-, h⟩) | ⟨-, h⟩
  · exact Nat.lt_of_le_of_lt (hle h) (by decide)
  · exact Nat.lt_of_le_of_lt (hle h) (by decide)
  · exact Nat.lt_of_le_of_lt (hle h) (by decide)

theorem isHexDigit_iff (c : Char) : isHexDigit c = true ↔ (Numeral.digitIn 16 c).isSome = true := by
  have hascii : c.toNat < 128 → isHexDigit c = (Numeral.digitIn 16 c).isSome := by
    intro h
    have hc := isHexDigit_ascii c.toNat h
    rwa [Char.ofNat_toNat] at hc
  constructor
  · intro h
    rwa [← hascii (toNat_lt_of_isHexDigit h)]
  · intro h
    obtain ⟨d, hd⟩ := Option.isSome_iff_exists.1 h
    rwa [hascii (toNat_lt_of_digitIn hd)]

theorem toLowerHex_of_digitIn {c : Char} {d : Nat} (h : Numeral.digitIn 16 c = some d) :
    toLowerHex c = lowerDigit d := by
  have hlower := toLowerHex_ascii c.toNat (toNat_lt_of_digitIn h) d (digitIn_lt h)
  rw [Char.ofNat_toNat] at hlower
  exact hlower h

theorem map_toLowerHex {cs : List Char} {ds : List Nat}
    (h : List.Forall₂ (fun c d => Numeral.digitIn 16 c = some d) cs ds) :
    cs.map toLowerHex = ds.map lowerDigit ∧ ∀ d ∈ ds, d < 16 := by
  induction h with
  | nil => exact ⟨rfl, nofun⟩
  | cons hc _ ih =>
    rw [List.map_cons, List.map_cons, toLowerHex_of_digitIn hc, ih.1]
    exact ⟨rfl, List.forall_mem_cons.2 ⟨digitIn_lt hc, ih.2⟩⟩

/-- Shifting the digits out of a number gives its nibbles. -/
theorem buildReadyLineFromNonce_eq (nonce : UInt64) :
    buildReadyLineFromNonce nonce = "BTP/1 READY ".toList ++
      (Hex.nibbles kNonceHexLength nonce.toNat).map lowerDigit ++ "\r\n".toList := by
  have hshift : ∀ i ∈ List.range 16, lowerDigit ((nonce.toNat >>> (60 - 4 * i)) % 16) =
      lowerDigit (nonce.toNat / 16 ^ (15 - i) % 16) := by
    intro i hi
    have hexp : 60 - 4 * i = 4 * (15 - i) := by omega
    rw [Nat.shiftRight_eq_div_pow, hexp, Nat.pow_mul]
  rw [Hex.nibbles_eq_map, List.map_map]
  exact congrArg (fun digits => "BTP/1 READY ".toList ++ digits ++ "\r\n".toList)
    (List.map_congr_left hshift)

/-! ## The line -/

section line

variable {line digits : List Char}

theorem tryParseEnterLine_isSome (h : (tryParseEnterLine line).isSome = true) :
    ∃ digits, IsEnterLine line digits := by
  rw [tryParseEnterLine] at h
  split at h
  · cases h
  split at h
  · cases h
  split at h
  · rename_i hlen hprefix hall
    have hsplit := List.take_append_drop "BTP/1 ENTER ".toList.length line
    rw [not_not.1 hprefix] at hsplit
    refine ⟨_, hsplit.symm, ?_, fun c hc => (isHexDigit_iff c).1 (List.all_eq_true.1 hall c hc)⟩
    rw [List.length_drop, not_not.1 hlen]
    rfl
  · cases h

/-- The READY line is that of the number the digits denote. -/
theorem IsEnterLine.ready (h : IsEnterLine line digits) :
    ∃ nonce : UInt64, numberOf digits = some nonce.toNat ∧
      tryParseEnterLine line = some (buildReadyLineFromNonce nonce) := by
  obtain ⟨rfl, hlen, hall⟩ := h
  obtain ⟨ds, htake, hdigits⟩ := Numeral.takeDigits_eq_nil hall
  obtain ⟨hlower, hlt⟩ := map_toLowerHex hdigits
  have hcount : ds.length = kNonceHexLength := hdigits.length_eq.symm.trans hlen
  have hsmall : Numeral.value 16 ds < 2 ^ 64 := by
    have hvalue := Numeral.value_lt hlt
    rwa [hcount] at hvalue
  have hnonce : (UInt64.ofNat (Numeral.value 16 ds)).toNat = Numeral.value 16 ds :=
    UInt64.toNat_ofNat_of_lt' hsmall
  refine ⟨UInt64.ofNat (Numeral.value 16 ds), by rw [numberOf, htake, hnonce], ?_⟩
  have hex : digits.all isHexDigit = true :=
    List.all_eq_true.2 fun c hc => (isHexDigit_iff c).2 (hall c hc)
  have hlength : ("BTP/1 ENTER ".toList ++ digits).length =
      "BTP/1 ENTER ".toList.length + kNonceHexLength := by
    rw [List.length_append, hlen]
    rfl
  rw [tryParseEnterLine, if_neg (not_not.2 hlength), List.take_left, if_neg (not_not.2 rfl), List.drop_left, hex,
    if_pos rfl, buildReadyLineFromNonce_eq, hnonce, ← hcount, Numeral.nibbles_value hlt, hlower]

theorem numberOf_nibbles {width n : Nat} (h : n < 16 ^ width) {f : Nat → Char}
    (hf : ∀ d < 16, Numeral.digitIn 16 (f d) = some d) :
    numberOf ((Hex.nibbles width n).map f) = some n := by
  rw [numberOf, Numeral.takeDigits_map fun d hd => hf d (Hex.nibbles_lt hd)]
  dsimp only
  rw [Numeral.value_nibbles, Nat.mod_eq_of_lt h]

/-- A stored READY line, and what its digits say. -/
theorem buildReadyLineFromNonceInto_eq (nonce : UInt64) (outReadyLine : ReadyLine) :
    ∃ out, buildReadyLineFromNonceInto nonce outReadyLine = some out ∧
      out.toList = buildReadyLineFromNonce nonce ++ ['\x00'] ++ outReadyLine.toList.drop 31 ∧
      numberOf out.digits = some nonce.toNat := by
  have hlen : (buildReadyLineFromNonce nonce ++ ['\x00']).length = 31 := by
    rw [buildReadyLineFromNonce_eq]
    simp [Hex.length_nibbles, kNonceHexLength]
  obtain ⟨out, hstore, hlist⟩ := @store_eq outReadyLine 0 _ (by rw [hlen]; decide)
  rw [List.take_zero, List.nil_append, Nat.zero_add, hlen] at hlist
  refine ⟨out, hstore, hlist, ?_⟩
  have hdigits : out.digits = (Hex.nibbles kNonceHexLength nonce.toNat).map lowerDigit := by
    rw [ReadyLine.digits, hlist, buildReadyLineFromNonce_eq]
    simp only [List.append_assoc]
    rw [List.drop_left, List.take_left' (by rw [List.length_map, Hex.length_nibbles])]
  rw [hdigits]
  exact numberOf_nibbles nonce.toNat_lt digitIn_lowerDigit

theorem numberOf_hexDigits (nonce : UInt64) :
    numberOf (Hex.digits kNonceHexLength nonce.toNat) = some nonce.toNat := by
  rw [Hex.digits_eq_map]
  exact numberOf_nibbles nonce.toNat_lt digitIn_hexDigit

theorem enterLine_isEnterLine (nonce : UInt64) :
    IsEnterLine (enterLine nonce) (Hex.digits kNonceHexLength nonce.toNat) := by
  refine ⟨rfl, ?_, fun c hc => ?_⟩
  · rw [Hex.digits_eq_map, List.length_map, Hex.length_nibbles]
    rfl
  · rw [Hex.digits_eq_map] at hc
    obtain ⟨d, hd, rfl⟩ := List.mem_map.1 hc
    rw [digitIn_hexDigit d (Hex.nibbles_lt hd)]
    rfl

/-- An ENTER line stores the READY line of the number its digits denote. -/
theorem IsEnterLine.stored (h : IsEnterLine line digits) (outReadyLine : ReadyLine) :
    ∃ (nonce : UInt64) (out : ReadyLine), numberOf digits = some nonce.toNat ∧
      tryParseEnterLineInto (some line) outReadyLine = some (true, out) ∧
      buildReadyLineFromNonceInto nonce outReadyLine = some out ∧
      out.toList = buildReadyLineFromNonce nonce ++ ['\x00'] ++ outReadyLine.toList.drop 31 ∧
      numberOf out.digits = some nonce.toNat := by
  obtain ⟨nonce, hnumber, hparse⟩ := h.ready
  obtain ⟨out, hbuild, hlist, hdigits⟩ := buildReadyLineFromNonceInto_eq nonce outReadyLine
  refine ⟨nonce, out, hnumber, ?_, hbuild, hlist, hdigits⟩
  rw [buildReadyLineFromNonceInto] at hbuild
  rw [tryParseEnterLineInto, Option.bind_some, hparse]
  dsimp only
  rw [hbuild]
  rfl

end line

/-- An ENTER line, and no other, is answered with the READY line of the number its digits
denote, stored within the array; the nonce of any ENTER line comes back. -/
theorem enter_ready (line : List Char) (outReadyLine : ReadyLine) :
    (∀ digits, IsEnterLine line digits → ∃ (nonce : UInt64) (out : ReadyLine),
      numberOf digits = some nonce.toNat ∧
        tryParseEnterLineInto (some line) outReadyLine = some (true, out) ∧
        buildReadyLineFromNonceInto nonce outReadyLine = some out ∧
        out.toList = buildReadyLineFromNonce nonce ++ ['\x00'] ++ outReadyLine.toList.drop 31 ∧
        numberOf out.digits = some nonce.toNat) ∧
      ((¬∃ digits, IsEnterLine line digits) →
        tryParseEnterLineInto (some line) outReadyLine = some (false, outReadyLine)) ∧
      ∀ nonce : UInt64, ∃ out : ReadyLine,
        tryParseEnterLineInto (some (enterLine nonce)) outReadyLine = some (true, out) ∧
          numberOf out.digits = some nonce.toNat := by
  refine ⟨fun digits h => h.stored outReadyLine, fun hno => ?_, fun nonce => ?_⟩
  · have hnone : tryParseEnterLine line = none := by
      rw [← Option.not_isSome_iff_eq_none]
      exact fun h => hno (tryParseEnterLine_isSome h)
    rw [tryParseEnterLineInto, Option.bind_some, hnone]
  · obtain ⟨nonce', out, hnumber, hparse, -, -, hdigits⟩ :=
      (enterLine_isEnterLine nonce).stored outReadyLine
    rw [numberOf_hexDigits] at hnumber
    exact ⟨out, hparse, hdigits.trans hnumber.symm⟩

end BallyDongle.SerialSession
