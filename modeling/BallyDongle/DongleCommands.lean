import BallyDongle.HubRegistry
import BallyDongle.ShellCommandSupport
import Mathlib.Data.List.TakeWhile

/-!
# Source ids at the console

The dongle prints a source id as eight hexadecimal digits, and `parseSourceId` reads what
the operator types. It tries base 0 first, which takes a text of decimal or of octal digits
for a decimal or an octal number, and base 16 only where that leaves something over.
-/

namespace BallyDongle.DongleCommands

open Numeral ShellCommandSupport

/-- The board's `unsigned long` has 32 bits. -/
def ULONG_MAX : Nat := 0xFFFFFFFF

/-- The last check of `parseSourceId`. -/
def accept (parsed : Nat) : Option UInt32 :=
  if parsed = 0 ∨ 0xFFFFFFFF < parsed then none else some (UInt32.ofNat parsed)

def parseSourceId (text : List Char) : Option UInt32 :=
  let cleaned := stripOuterQuotes text
  if cleaned = [] then none
  else
    let c_str := cleaned.takeWhile (· != '\x00')
    let (parsed, rest) := strtoul ULONG_MAX c_str 0
    if rest = [] then accept parsed
    else
      let (parsed, rest) := strtoul ULONG_MAX c_str 16
      if rest ≠ [] ∨ rest = c_str then none else accept parsed

/-- `%08lX`. -/
def printSourceId (sourceId : UInt32) : List Char := Hex.digits 8 sourceId.toNat

/-! ## The commands -/

inductive Code
  | INVALID_ARGUMENT | HUB_BIND_TABLE_FULL | HUB_BINDING_NOT_FOUND
  deriving DecidableEq, Repr

/-- What a command fails with, or the texts it gives to `printLine`. -/
abbrev Result := Except (Code × String) (List (List Char))

def invalidSourceId : Result :=
  .error (.INVALID_ARGUMENT, "source_id invalido (use 8 digitos hex, ex.: 33445566)")

def wrapper_hub_bind (g : HubRegistry.Bindings) (child peer : List Char) :
    HubRegistry.Bindings × Result :=
  match parseSourceId child, parseSourceId peer with
  | some childSourceId, some peerSourceId =>
    match HubRegistry.bind g childSourceId peerSourceId with
    | (g, false) => (g, .error (.HUB_BIND_TABLE_FULL, "tabela de vinculo cheia"))
    | (g, true) =>
      (g, .ok ["[hub] vinculo ".toList ++ printSourceId childSourceId ++ " -> ".toList ++
        printSourceId peerSourceId])
  | _, _ => (g, invalidSourceId)

def wrapper_hub_unbind (g : HubRegistry.Bindings) (child : List Char) :
    HubRegistry.Bindings × Result :=
  match parseSourceId child with
  | some childSourceId =>
    match HubRegistry.unbind g childSourceId with
    | (g, false) => (g, .error (.HUB_BINDING_NOT_FOUND, "esse filho nao esta vinculado"))
    | (g, true) =>
      (g, .ok ["[hub] vinculo ".toList ++ printSourceId childSourceId ++ " removido".toList])
  | none => (g, invalidSourceId)

/-! ## What the operator types -/

/-- A number in hexadecimal digits, with leading zeros up to the width. -/
structure Spelling where
  number : Nat
  width : Nat
  lower : Bool := false
  hexPrefix : Bool := false
  quotes : Quotes := .none
  width_pos : 0 < width
  number_lt : number < 16 ^ width

namespace Spelling

variable (t : Spelling)

/-- What `printSourceId` gives. -/
def printed (sourceId : UInt32) : Spelling where
  number := sourceId.toNat
  width := 8
  width_pos := Nat.succ_pos 7
  number_lt := sourceId.toNat_lt

def nibbles : List Nat := Hex.nibbles t.width t.number

def digits : List Char :=
  if t.lower then (Hex.digits t.width t.number).map Char.toLower
  else Hex.digits t.width t.number

def body : List Char := (if t.hexPrefix then ['0', 'x'] else []) ++ t.digits

def text : List Char := t.quotes.around t.body

/-- The source id a text denotes; zero and numbers above 32 bits are none. -/
def denoted : Option UInt32 :=
  if 0 < t.number ∧ t.number < 2 ^ 32 then some (UInt32.ofNat t.number) else none

/-- Nothing but hexadecimal fits the text, or it denotes a single digit. -/
def Readable : Prop :=
  t.hexPrefix = true ∨ t.number < 10 ∨ (∃ d ∈ t.nibbles, 10 ≤ d) ∨
    (t.nibbles.head? = some 0 ∧ ∃ d ∈ t.nibbles, 8 ≤ d)

/-- The base a text without `0x` begins like. -/
def guess : Nat := if t.nibbles.head? = some 0 then 8 else 10

/-- The base `parseSourceId` reads the digits in. -/
def base : Nat :=
  if t.hexPrefix then 16 else if ∀ d ∈ t.nibbles, d < t.guess then t.guess else 16

/-! ### The characters of a text -/

def char (d : Nat) : Char := if t.lower then (Hex.digit d).toLower else Hex.digit d

theorem digits_eq_map : t.digits = t.nibbles.map t.char := by
  unfold digits nibbles
  rw [Hex.digits_eq_map]
  cases hlower : t.lower with
  | false => exact List.map_congr_left fun d _ => by rw [char, hlower]; rfl
  | true =>
    rw [if_pos rfl, List.map_map]
    exact List.map_congr_left fun d _ => by rw [char, hlower]; rfl

theorem nibbles_ne_nil : t.nibbles ≠ [] := by
  intro hnil
  have hlength := Hex.length_nibbles t.width t.number
  rw [show Hex.nibbles t.width t.number = [] from hnil] at hlength
  exact Nat.ne_of_lt t.width_pos hlength

theorem value_nibbles : value 16 t.nibbles = t.number := by
  rw [nibbles, Numeral.value_nibbles, Nat.mod_eq_of_lt t.number_lt]

/-- What the two spellings of a digit have in common. -/
theorem char_spec {d : Nat} (hd : d < 16) :
    digitValue (t.char d) = some d ∧ bare (t.char d) = true ∧ t.char d ≠ '\x00' ∧
      t.char d ≠ '-' ∧ t.char d ≠ '+' ∧ t.char d ≠ 'x' ∧ t.char d ≠ 'X' ∧
      (t.char d = '0' ↔ d = 0) := by
  unfold char
  cases t.lower <;> revert d <;> decide

theorem mem_body {c : Char} (h : c ∈ t.body) : bare c = true ∧ c ≠ '\x00' ∧ c ≠ '-' ∧ c ≠ '+' := by
  have hdigit : c ∈ ['0', 'x'] ∨ c ∈ t.digits := by
    refine (List.mem_append.1 h).imp (fun hhex => ?_) id
    split at hhex
    · exact hhex
    · cases hhex
  obtain hhex | hdigit := hdigit
  · obtain rfl | rfl := List.mem_pair.1 hhex <;> decide
  · rw [digits_eq_map] at hdigit
    obtain ⟨d, hd, rfl⟩ := List.mem_map.1 hdigit
    have hspec := t.char_spec (Hex.nibbles_lt hd)
    exact ⟨hspec.2.1, hspec.2.2.1, hspec.2.2.2.1, hspec.2.2.2.2.1⟩

theorem body_ne_nil : t.body ≠ [] := by
  rw [body, digits_eq_map]
  exact List.append_ne_nil_of_right_ne_nil _ (by simpa using t.nibbles_ne_nil)

theorem takeSign_body : takeSign (t.body.dropWhile isSpace) = (false, t.body) := by
  have hspace : ∀ c ∈ t.body, isSpace c = false := by
    intro c hc
    have hbare := (t.mem_body hc).1
    simp only [bare, Bool.and_eq_true, Bool.not_eq_true'] at hbare
    exact hbare.1.1
  rw [dropWhile_of_forall hspace]
  unfold takeSign
  split
  · rename_i hbody
    exact absurd rfl (t.mem_body (hbody ▸ List.mem_cons_self)).2.2.1
  · rename_i hbody
    exact absurd rfl (t.mem_body (hbody ▸ List.mem_cons_self)).2.2.2
  · rfl

theorem takeDigits_digits {b : Nat} (h : ∀ d ∈ t.nibbles, d < b) :
    takeDigits b t.digits = (t.nibbles, []) := by
  rw [digits_eq_map]
  exact takeDigits_map fun d hd =>
    digitIn_of_lt (h d hd) (t.char_spec (Hex.nibbles_lt hd)).1

theorem head_digits : t.digits.head? = some '0' ↔ t.nibbles.head? = some 0 := by
  rw [digits_eq_map, List.head?_map]
  cases hnibbles : t.nibbles with
  | nil => exact absurd hnibbles t.nibbles_ne_nil
  | cons d ds =>
    have hd : d < 16 := Hex.nibbles_lt (show d ∈ t.nibbles by rw [hnibbles]; exact .head _)
    rw [List.head?_cons, Option.map_some, Option.some_inj, Option.some_inj]
    exact (t.char_spec hd).2.2.2.2.2.2.2

/-- How a text without `0x` is read. -/
theorem takeRadix_digits (b : Nat) :
    takeRadix b t.digits = (if b = 0 then t.guess else b, t.digits) := by
  rw [takeRadix_plain, guess]
  · simp only [head_digits]
  · rw [digits_eq_map]
    intro c hc
    obtain ⟨d, hd, rfl⟩ := List.mem_map.1 hc
    exact (t.char_spec (Hex.nibbles_lt hd)).2.2.2.2.2.imp id And.left

/-- How a text with `0x` is read. -/
theorem takeRadix_body (hhex : t.hexPrefix = true) : takeRadix 0 t.body = (16, t.digits) := by
  rw [body, if_pos hhex, digits_eq_map]
  cases hnibbles : t.nibbles with
  | nil => exact absurd hnibbles t.nibbles_ne_nil
  | cons d ds =>
    have hd : d < 16 := Hex.nibbles_lt (show d ∈ t.nibbles by rw [hnibbles]; exact .head _)
    exact takeRadix_prefixed (by rw [digitIn_of_lt hd (t.char_spec hd).1]; rfl)

end Spelling

/-- The number `parseSourceId` makes of a text. -/
theorem parseSourceId_text (t : Spelling) :
    parseSourceId t.text = accept (min (value t.base t.nibbles) ULONG_MAX) := by
  have hclean : stripOuterQuotes t.text = t.body :=
    stripOuterQuotes_around t.quotes fun c hc => (t.mem_body hc).1
  have hc_str : t.body.takeWhile (· != '\x00') = t.body :=
    List.takeWhile_eq_self_iff.2 fun c hc => bne_iff_ne.2 (t.mem_body hc).2.1
  rw [parseSourceId, hclean]
  dsimp only
  rw [if_neg t.body_ne_nil, hc_str]
  unfold Spelling.base
  by_cases hhex : t.hexPrefix = true
  · rw [strtoul_unsigned t.takeSign_body (t.takeRadix_body hhex)
      (t.takeDigits_digits fun d => Hex.nibbles_lt) t.nibbles_ne_nil, if_pos hhex]
    exact if_pos rfl
  · have hbody : t.body = t.digits := by rw [Spelling.body, if_neg hhex]; rfl
    have hsign := t.takeSign_body
    have hne := t.body_ne_nil
    rw [hbody] at hsign hne ⊢
    rw [if_neg hhex]
    by_cases hall : ∀ d ∈ t.nibbles, d < t.guess
    · rw [strtoul_unsigned hsign (t.takeRadix_digits 0) (t.takeDigits_digits hall)
        t.nibbles_ne_nil, if_pos hall]
      exact if_pos rfl
    · -- Some digit is none of the guessed base, and base 16 is tried.
      obtain ⟨d, hd, hge⟩ : ∃ d ∈ t.nibbles, t.guess ≤ d := by
        simpa only [not_forall, not_lt, exists_prop] using hall
      have hrest : (strtoul ULONG_MAX t.digits 0).2 ≠ [] := by
        refine strtoul_rest_ne_nil hsign (t.takeRadix_digits 0) ?_
          (digitIn_of_ge hge (t.char_spec (Hex.nibbles_lt hd)).1) hne
        rw [t.digits_eq_map]
        exact List.mem_map_of_mem hd
      rw [if_neg hrest, if_neg hall, strtoul_unsigned hsign (t.takeRadix_digits 16)
        (t.takeDigits_digits fun d => Hex.nibbles_lt) t.nibbles_ne_nil]
      exact if_neg (not_or.2 ⟨fun h => h rfl, hne.symm⟩)

theorem accept_of_pos {n : Nat} (hpos : 0 < n) (hle : n ≤ 0xFFFFFFFF) :
    accept n = some (UInt32.ofNat n) :=
  if_neg (by omega)

theorem ofNat_inj {m n : Nat} (hm : m < 2 ^ 32) (hn : n < 2 ^ 32) :
    UInt32.ofNat m = UInt32.ofNat n ↔ m = n := by
  refine ⟨fun h => ?_, congrArg _⟩
  have htoNat := congrArg UInt32.toNat h
  rwa [UInt32.toNat_ofNat_of_lt' hm, UInt32.toNat_ofNat_of_lt' hn] at htoNat

namespace Spelling

variable (t : Spelling)

theorem guess_cases : t.guess = 8 ∧ t.nibbles.head? = some 0 ∨
    t.guess = 10 ∧ t.nibbles.head? ≠ some 0 := by
  unfold guess
  split
  · exact .inl ⟨rfl, by assumption⟩
  · exact .inr ⟨rfl, by assumption⟩

/-- The digits denote the number in the base they are read in. -/
theorem readable_iff : t.Readable ↔ value t.base t.nibbles = t.number := by
  unfold Readable base
  by_cases hhex : t.hexPrefix = true
  · rw [if_pos hhex]
    exact iff_of_true (.inl hhex) t.value_nibbles
  · rw [if_neg hhex, or_iff_right hhex]
    by_cases hall : ∀ d ∈ t.nibbles, d < t.guess
    · have hnot : ¬((∃ d ∈ t.nibbles, 10 ≤ d) ∨
          (t.nibbles.head? = some 0 ∧ ∃ d ∈ t.nibbles, 8 ≤ d)) := by
        rintro (⟨d, hd, hge⟩ | ⟨hhead, d, hd, hge⟩) <;> have hlt := hall d hd <;>
          obtain ⟨hguess, hzero⟩ | ⟨hguess, hzero⟩ := t.guess_cases
        · omega
        · omega
        · omega
        · exact hzero hhead
      have hagree := @value_eq_iff t.guess 16 t.nibbles
      rw [t.value_nibbles] at hagree
      rw [if_pos hall, or_iff_left hnot]
      obtain ⟨hguess, -⟩ | ⟨hguess, -⟩ := t.guess_cases <;> rw [hguess] at hagree hall ⊢
      · rw [hagree (by decide) (by decide) hall]
        refine ⟨fun hlt => ?_, fun hlt => by omega⟩
        have hmem := value_mem (b := 16) t.nibbles_ne_nil (by rw [t.value_nibbles]; omega)
        rw [t.value_nibbles] at hmem
        exact hall _ hmem
      · exact (hagree (by decide) (by decide) hall).symm
    · rw [if_neg hall]
      refine iff_of_true (.inr ?_) t.value_nibbles
      obtain ⟨d, hd, hge⟩ : ∃ d ∈ t.nibbles, t.guess ≤ d := by
        simpa only [not_forall, not_lt, exists_prop] using hall
      obtain ⟨hguess, hhead⟩ | ⟨hguess, -⟩ := t.guess_cases <;> rw [hguess] at hge
      · exact .inr ⟨hhead, d, hd, hge⟩
      · exact .inl ⟨d, hd, hge⟩

theorem base_bounds : 0 < t.base ∧ t.base ≤ 16 := by
  unfold base
  split
  · decide
  · split
    · obtain ⟨hguess, -⟩ | ⟨hguess, -⟩ := t.guess_cases <;> rw [hguess] <;> decide
    · decide

theorem value_base_le : value t.base t.nibbles ≤ t.number :=
  Nat.le_trans (value_mono t.base_bounds.2) (Nat.le_of_eq t.value_nibbles)

theorem value_base_eq_zero : value t.base t.nibbles = 0 ↔ t.number = 0 := by
  rw [value_eq_zero t.base_bounds.1, ← t.value_nibbles, value_eq_zero (by decide)]

end Spelling

/-- A text is read as what it denotes just when that is a source id or zero and no
smaller base fits. -/
theorem parseSourceId_eq_denoted (t : Spelling) :
    parseSourceId t.text = t.denoted ↔ t.number < 2 ^ 32 ∧ t.Readable := by
  rw [parseSourceId_text, Spelling.denoted, t.readable_iff]
  have hle := t.value_base_le
  have hzero := t.value_base_eq_zero
  generalize value t.base t.nibbles = v at *
  have hmax : ULONG_MAX = 2 ^ 32 - 1 := rfl
  by_cases hn : t.number = 0
  · rw [hzero.2 hn, hn]
    exact iff_of_true rfl ⟨by decide, rfl⟩
  · have hv : v ≠ 0 := fun h => hn (hzero.1 h)
    rw [accept_of_pos (by omega) (by omega)]
    by_cases hlt : t.number < 2 ^ 32
    · rw [if_pos ⟨Nat.pos_of_ne_zero hn, hlt⟩, Option.some_inj, Nat.min_eq_left (by omega),
        ofNat_inj (by omega) hlt, and_iff_right hlt]
    · rw [if_neg fun h => hlt h.2]
      exact iff_of_false nofun fun h => hlt h.1

/-! ## The commands -/

/-- `hub -unbind` of what a text denotes. -/
def unbindDenoted (g : HubRegistry.Bindings) : Option UInt32 → HubRegistry.Bindings
  | some child => (HubRegistry.unbind g child).1
  | none => g

/-- `hub -bind` of what two texts denote. -/
def bindDenoted (g : HubRegistry.Bindings) : Option UInt32 → Option UInt32 → HubRegistry.Bindings
  | some child, some peer => (HubRegistry.bind g child peer).1
  | _, _ => g

theorem wrapper_hub_unbind_table (g : HubRegistry.Bindings) (child : List Char) :
    (wrapper_hub_unbind g child).1 = unbindDenoted g (parseSourceId child) := by
  unfold wrapper_hub_unbind unbindDenoted
  cases parseSourceId child with
  | none => rfl
  | some child =>
    dsimp only
    split <;> simp [*]

theorem wrapper_hub_bind_table (g : HubRegistry.Bindings) (child peer : List Char) :
    (wrapper_hub_bind g child peer).1 = bindDenoted g (parseSourceId child) (parseSourceId peer) := by
  unfold wrapper_hub_bind bindDenoted
  cases parseSourceId child <;> cases parseSourceId peer <;> try rfl
  dsimp only
  split <;> simp [*]

/-- A text is read as what it denotes, and the commands act on that device. -/
structure TypedBack (t : Spelling) : Prop where
  reads : parseSourceId t.text = t.denoted
  unbinds : ∀ g, (wrapper_hub_unbind g t.text).1 = unbindDenoted g t.denoted
  binds : ∀ g (u : Spelling), parseSourceId u.text = u.denoted →
    (wrapper_hub_bind g t.text u.text).1 = bindDenoted g t.denoted u.denoted ∧
      (wrapper_hub_bind g u.text t.text).1 = bindDenoted g u.denoted t.denoted

/-- A source id can be typed back just when no smaller base fits its digits, and a number
above 32 bits is not refused. -/
theorem typedBack_iff (t : Spelling) : TypedBack t ↔ t.number < 2 ^ 32 ∧ t.Readable := by
  rw [← parseSourceId_eq_denoted]
  refine ⟨TypedBack.reads, fun h => ⟨h, fun g => ?_, fun g u hu => ?_⟩⟩
  · rw [wrapper_hub_unbind_table, h]
  · rw [wrapper_hub_bind_table, wrapper_hub_bind_table, h, hu]
    exact ⟨rfl, rfl⟩

/-- The id of the README's example, typed as printed, is read in decimal. -/
theorem printed_33445566 :
    ¬∀ sourceId : UInt32, sourceId ≠ 0 → TypedBack (.printed sourceId) := by
  intro h
  have hreads := (h 0x33445566 (by decide)).reads
  revert hreads
  decide

end BallyDongle.DongleCommands
