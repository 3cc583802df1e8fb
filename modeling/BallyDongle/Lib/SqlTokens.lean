import BallyDongle.Lib.Quoted
import Mathlib.Data.List.TakeWhile

/-!
# SQL tokens

SQLite's tokenizer, for texts of words, decimal numbers, literals in single quotes and a few
symbols; on anything else, a comment or a blob for one, it gives nothing. A text can be read
in two pieces wherever no token reaches from one into the other (`tokens_append`).
-/

namespace SqlTokens

open Quoted

inductive Token
  | word (name : List Char)
  | number (digits : List Char)
  | literal (text : List Char)
  | symbol (c : Char)
  deriving DecidableEq, Repr

def isBlank (c : Char) : Bool := c == ' ' || c == '\t' || c == '\n' || c == '\x0C' || c == '\r'

def isIdChar (c : Char) : Bool := c.isAlphanum || c == '_' || c == '$' || decide (0x80 ≤ c.toNat)

def symbols : List Char := ['(', ')', ',', ';', '=', '-', '+', '*']

/-- Whether `c` at the end of one piece and `d` at the start of the next can be in one token. -/
def joins (c d : Char) : Bool :=
  isIdChar c && (isIdChar d || d == '.' || d == '\'') || c == '\'' && d == '\'' ||
    c == '=' && d == '=' || c == '-' && (d == '-' || d == '>')

/-- The token of a run of `isIdChar`, by the character that follows it. -/
def runToken (run : List Char) (next : Option Char) : Option Token :=
  if run.all Char.isDigit then if next = some '.' then none else some (.number run)
  else if run.head?.any fun c => c.isDigit || c == '$' then none
  else if (run = ['x'] ∨ run = ['X']) ∧ next = some '\'' then none
  else some (.word run)

/-- The first token, or `none` for white space, and what follows. -/
def nextToken : List Char → Option (Option Token × List Char)
  | [] => none
  | c :: cs =>
    if isBlank c then some (none, cs)
    else if c = '\'' then (takeQuoted '\'' cs).map fun (text, rest) => (some (.literal text), rest)
    else if isIdChar c then
      let rest := (c :: cs).dropWhile isIdChar
      (runToken ((c :: cs).takeWhile isIdChar) rest.head?).map fun token => (some token, rest)
    else if c ∈ symbols ∧ cs.head?.all (!joins c ·) then some (some (.symbol c), cs)
    else none

theorem nextToken_suffix {text rest : List Char} {token : Option Token}
    (h : nextToken text = some (token, rest)) : rest <:+ text ∧ rest.length < text.length := by
  cases text with
  | nil => cases h
  | cons c cs =>
    rw [nextToken] at h
    split at h
    · cases h
      exact ⟨List.suffix_cons c _, Nat.lt_succ_self _⟩
    split at h
    · obtain ⟨⟨text, rest'⟩, hquoted, heq⟩ := Option.map_eq_some_iff.mp h
      cases heq
      rw [(takeQuoted_eq_some.mp hquoted).1]
      refine ⟨⟨c :: double '\'' text ++ ['\''], by simp⟩, ?_⟩
      simp only [List.length_cons, List.length_append]
      omega
    split at h
    · rename_i hrun
      obtain ⟨token', -, heq⟩ := Option.map_eq_some_iff.mp h
      cases heq
      rw [List.dropWhile_cons_of_pos hrun]
      have hsuffix := List.dropWhile_suffix (l := cs) isIdChar
      exact ⟨hsuffix.trans (List.suffix_cons c cs), Nat.lt_succ_of_le hsuffix.length_le⟩
    split at h
    · cases h
      exact ⟨List.suffix_cons c _, Nat.lt_succ_self _⟩
    · cases h

def tokens (text : List Char) : Option (List Token) :=
  if text = [] then some []
  else
    match _ : nextToken text with
    | none => none
    | some (token, rest) => (tokens rest).map (token.toList ++ ·)
termination_by text.length
decreasing_by exact (nextToken_suffix ‹_›).2

example : tokens "UPDATE t SET a='it''s -- b',n=-1;".toList =
    some [.word "UPDATE".toList, .word "t".toList, .word "SET".toList, .word "a".toList,
      .symbol '=', .literal "it's -- b".toList, .symbol ',', .word "n".toList, .symbol '=',
      .symbol '-', .number "1".toList, .symbol ';'] := by decide +kernel

/-! ## Reading in pieces -/

/-- No token reaches from the end of one text into the other. -/
def Apart (text more : List Char) : Prop :=
  ∀ c ∈ text.getLast?, ∀ d ∈ more.head?, joins c d = false

variable {text more : List Char}

theorem isIdChar_of_joins {c d : Char} (hc : isIdChar c) (h : joins c d = false) :
    isIdChar d = false ∧ d ≠ '.' ∧ d ≠ '\'' := by
  simp only [joins, hc, Bool.true_and, Bool.or_eq_false_iff, beq_eq_false_iff_ne] at h
  exact ⟨h.1.1.1.1.1, h.1.1.1.1.2, h.1.1.1.2⟩

theorem runToken_next {run : List Char} {token : Token} (h : runToken run none = some token)
    {next : Option Char} (hnext : ∀ d ∈ next, d ≠ '.' ∧ d ≠ '\'') :
    runToken run next = some token := by
  have hdot : next ≠ some '.' := fun heq => (hnext '.' heq).1 rfl
  have hquote : next ≠ some '\'' := fun heq => (hnext '\'' heq).2 rfl
  rw [← h, runToken, runToken]
  simp [hdot, hquote]

/-- A text that is one run ends apart from what follows it. -/
theorem run_append (hrun : text.dropWhile isIdChar = []) (hne : text ≠ [])
    (happart : Apart text more) :
    (text ++ more).takeWhile isIdChar = text ∧ (text ++ more).dropWhile isIdChar = more ∧
      ∀ d ∈ more.head?, d ≠ '.' ∧ d ≠ '\'' := by
  have hall : ∀ c ∈ text, isIdChar c := List.dropWhile_eq_nil_iff.mp hrun
  have hlast := List.getLast_mem hne
  have hmore : ∀ d ∈ more.head?, isIdChar d = false ∧ d ≠ '.' ∧ d ≠ '\'' := fun d hd =>
    isIdChar_of_joins (hall _ hlast) (happart _ (List.getLast?_eq_some_getLast hne) d hd)
  rw [List.takeWhile_append_of_pos hall, List.dropWhile_append_of_pos hall]
  cases more with
  | nil => simp
  | cons d more =>
    have hd := hmore d rfl
    refine ⟨?_, List.dropWhile_cons_of_neg (by simp [hd.1]), fun e he => (hmore e he).2⟩
    rw [List.takeWhile_cons_of_neg (by simp [hd.1]), List.append_nil]

/-- A run that ends inside a text does not see what follows the text. -/
theorem run_append_of_ne (hrun : text.dropWhile isIdChar ≠ []) (more : List Char) :
    (text ++ more).takeWhile isIdChar = text.takeWhile isIdChar ∧
      (text ++ more).dropWhile isIdChar = text.dropWhile isIdChar ++ more := by
  have hlength : (text.takeWhile isIdChar).length ≠ text.length := fun h => hrun <|
    List.dropWhile_eq_nil_iff.mpr (List.takeWhile_eq_self_iff.mp
      ((List.takeWhile_prefix isIdChar).eq_of_length h))
  rw [List.takeWhile_append, List.dropWhile_append, if_neg hlength]
  simp [hrun]

theorem nextToken_append {rest : List Char} {token : Option Token}
    (h : nextToken text = some (token, rest)) (happart : rest = [] → Apart text more) :
    nextToken (text ++ more) = some (token, rest ++ more) := by
  cases text with
  | nil => cases h
  | cons c cs =>
    rw [List.cons_append, nextToken]
    rw [nextToken] at h
    split at h
    · rename_i hblank
      cases h
      rw [if_pos hblank]
    rename_i hblank
    rw [if_neg hblank]
    split at h
    · rename_i hquote
      rw [if_pos hquote]
      obtain ⟨⟨literal, rest'⟩, hquoted, heq⟩ := Option.map_eq_some_iff.mp h
      cases heq
      obtain ⟨hcs, hrest⟩ := takeQuoted_eq_some.mp hquoted
      have hmore : (rest ++ more).head? ≠ some '\'' := by
        cases rest with
        | cons d rest => exact hrest
        | nil =>
          intro hhead
          have hjoin := happart rfl '\'' (by rw [hcs, ← List.cons_append]; exact List.getLast?_concat) '\'' hhead
          exact absurd hjoin (by decide)
      rw [hcs, List.append_assoc, List.cons_append, takeQuoted_double hmore]
      rfl
    rename_i hquote
    rw [if_neg hquote]
    split at h
    · rename_i hid
      rw [if_pos hid]
      obtain ⟨token', htoken, heq⟩ := Option.map_eq_some_iff.mp h
      cases heq
      by_cases hrest : (c :: cs).dropWhile isIdChar = []
      · obtain ⟨htake, hdrop, hnext⟩ := run_append hrest (List.cons_ne_nil c cs) (happart hrest)
        rw [List.cons_append] at htake hdrop
        have hrun : (c :: cs).takeWhile isIdChar = c :: cs :=
          List.takeWhile_eq_self_iff.mpr (List.dropWhile_eq_nil_iff.mp hrest)
        rw [hrest, hrun] at htoken
        simp only [htake, hdrop, hrest, runToken_next htoken hnext]
        rfl
      · obtain ⟨htake, hdrop⟩ := run_append_of_ne hrest more
        rw [List.cons_append] at htake hdrop
        simp only [htake, hdrop, List.head?_append_of_ne_nil _ hrest, htoken]
        rfl
    rename_i hid
    rw [if_neg hid]
    split at h
    · rename_i hsymbol
      cases h
      have hmore : (rest ++ more).head?.all (!joins c ·) := by
        cases rest with
        | cons d rest => exact hsymbol.2
        | nil =>
          rw [List.nil_append, Option.all_eq_true]
          exact fun d hd => by rw [happart rfl c rfl d hd]; rfl
      rw [if_pos ⟨hsymbol.1, hmore⟩]
    · cases h

theorem tokens_of_nextToken {rest : List Char} {token : Option Token}
    (h : nextToken text = some (token, rest)) :
    tokens text = (tokens rest).map (token.toList ++ ·) := by
  have hne : text ≠ [] := by
    rintro rfl
    cases h
  rw [tokens, if_neg hne]
  split
  · rename_i hnone
    cases hnone.symm.trans h
  · rename_i hsome
    cases hsome.symm.trans h
    rfl

theorem tokens_of_none (hne : text ≠ []) (h : nextToken text = none) : tokens text = none := by
  rw [tokens, if_neg hne]
  split
  · rfl
  · rename_i hsome
    cases h.symm.trans hsome

theorem Apart.of_suffix {rest : List Char} (h : Apart text more) (hrest : rest <:+ text) :
    Apart rest more := by
  intro c hc d hd
  obtain ⟨before, rfl⟩ := hrest
  refine h c ?_ d hd
  have hne : rest ≠ [] := by
    rintro rfl
    cases hc
  rwa [List.getLast?_append_of_ne_nil _ hne]

/-- What the first piece is read as does not depend on the second. -/
theorem tokens_append {ts : List Token} (h : tokens text = some ts) (happart : Apart text more) :
    tokens (text ++ more) = (tokens more).map (ts ++ ·) := by
  induction text using tokens.induct generalizing ts with
  | case1 =>
    rw [tokens, if_pos rfl] at h
    cases h
    simp
  | case2 text hne hnone =>
    rw [tokens_of_none hne hnone] at h
    cases h
  | case3 text hne token rest hnext ih =>
    rw [tokens_of_nextToken hnext] at h
    obtain ⟨ts', hrest, rfl⟩ := Option.map_eq_some_iff.mp h
    rw [tokens_of_nextToken (nextToken_append hnext fun _ => happart),
      ih hrest (happart.of_suffix (nextToken_suffix hnext).1), Option.map_map]
    congr 1
    funext ts
    exact (List.append_assoc _ _ _).symm

/-- What only a literal can have in it. -/
def OnlyQuoted (c : Char) : Prop := isBlank c = false ∧ isIdChar c = false ∧ c ∉ '\'' :: symbols

theorem mem_literal_of_nextToken {rest : List Char} {token : Option Token} {c : Char}
    (h : nextToken text = some (token, rest)) (honly : OnlyQuoted c) (hc : c ∈ text) :
    c ∈ rest ∨ ∃ literal, token = some (.literal literal) ∧ c ∈ literal := by
  obtain ⟨hblank, hid, hsymbol⟩ := honly
  rw [List.mem_cons, not_or] at hsymbol
  cases text with
  | nil => cases hc
  | cons d cs =>
    rw [nextToken] at h
    rcases List.mem_cons.mp hc with rfl | hmem
    · rw [if_neg (by simp [hblank]), if_neg hsymbol.1, if_neg (by simp [hid]),
        if_neg fun hs => hsymbol.2 hs.1] at h
      cases h
    split at h
    · cases h
      exact .inl hmem
    split at h
    · obtain ⟨⟨literal, rest'⟩, hquoted, heq⟩ := Option.map_eq_some_iff.mp h
      cases heq
      rw [(takeQuoted_eq_some.mp hquoted).1, List.mem_append, List.mem_cons, mem_double] at hmem
      rcases hmem with hliteral | hquote | hrest
      · exact .inr ⟨literal, rfl, hliteral⟩
      · exact absurd hquote hsymbol.1
      · exact .inl hrest
    split at h
    · obtain ⟨token', -, heq⟩ := Option.map_eq_some_iff.mp h
      cases heq
      rw [← List.takeWhile_append_dropWhile (p := isIdChar) (l := d :: cs), List.mem_append] at hc
      refine .inl (hc.resolve_left fun hrun => ?_)
      exact Bool.false_ne_true (hid.symm.trans (List.mem_takeWhile_imp hrun))
    split at h
    · cases h
      exact .inl hmem
    · cases h

theorem mem_literal_of_tokens {ts : List Token} {c : Char} (h : tokens text = some ts)
    (honly : OnlyQuoted c) (hc : c ∈ text) : ∃ literal, .literal literal ∈ ts ∧ c ∈ literal := by
  induction text using tokens.induct generalizing ts with
  | case1 => cases hc
  | case2 text hne hnone =>
    rw [tokens_of_none hne hnone] at h
    cases h
  | case3 text hne token rest hnext ih =>
    rw [tokens_of_nextToken hnext] at h
    obtain ⟨ts', hrest, rfl⟩ := Option.map_eq_some_iff.mp h
    rcases mem_literal_of_nextToken hnext honly hc with hmem | ⟨literal, rfl, hliteral⟩
    · obtain ⟨literal, hliteral, hc⟩ := ih hrest hmem
      exact ⟨literal, List.mem_append_right _ hliteral, hc⟩
    · exact ⟨literal, .head _, hliteral⟩

/-! ## Pieces -/

theorem tokens_literal (text : List Char) :
    tokens ('\'' :: double '\'' text ++ ['\'']) = some [.literal text] := by
  have hnext : nextToken ('\'' :: double '\'' text ++ ['\'']) = some (some (.literal text), []) := by
    rw [List.cons_append, nextToken, if_neg (by decide), if_pos rfl, takeQuoted_double (by simp)]
    rfl
  rw [tokens_of_nextToken hnext, tokens, if_pos rfl]
  rfl

theorem isIdChar_of_isDigit {c : Char} (h : c.isDigit = true) : isIdChar c = true := by
  have hletter : c.isAlphanum = true := by
    show (c.isAlpha || c.isDigit) = true
    rw [h, Bool.or_true]
  simp [isIdChar, hletter]

theorem tokens_number {digits : List Char} (hne : digits ≠ [])
    (hdigits : ∀ c ∈ digits, c.isDigit = true) : tokens digits = some [.number digits] := by
  have hrun : ∀ c ∈ digits, isIdChar c = true := fun c hc => isIdChar_of_isDigit (hdigits c hc)
  have hnext : nextToken digits = some (some (.number digits), []) := by
    cases digits with
    | nil => exact absurd rfl hne
    | cons c cs =>
      have hc := hdigits c (.head _)
      have hblank : isBlank c = false := by
        by_contra hblank
        simp only [isBlank, Bool.not_eq_false, Bool.or_eq_true, beq_iff_eq] at hblank
        rcases hblank with (((rfl | rfl) | rfl) | rfl) | rfl <;> exact absurd hc (by decide)
      have hquote : c ≠ '\'' := by
        rintro rfl
        exact absurd hc (by decide)
      have hrest : (c :: cs).dropWhile isIdChar = [] := List.dropWhile_eq_nil_iff.mpr hrun
      rw [nextToken, if_neg (by simp [hblank]), if_neg hquote, if_pos (hrun c (.head _))]
      simp only [hrest, List.takeWhile_eq_self_iff.mpr hrun]
      rw [runToken, if_pos (List.all_eq_true.mpr hdigits)]
      rfl
  rw [tokens_of_nextToken hnext, tokens, if_pos rfl]
  rfl

/-! ## Statements with values spliced in -/

/-- A character that is a token, or white space, whatever stands on either side. -/
def isSeparator (c : Char) : Bool := c == ' ' || c == ',' || c == '(' || c == ')' || c == ';'

theorem joins_of_isSeparator {c d : Char} (h : isSeparator c ∨ isSeparator d) :
    joins c d = false := by
  have hseparator : ∀ e, isSeparator e = true →
      isIdChar e = false ∧ e ≠ '.' ∧ e ≠ '\'' ∧ e ≠ '=' ∧ e ≠ '-' ∧ e ≠ '>' := by
    intro e he
    simp only [isSeparator, Bool.or_eq_true, beq_iff_eq] at he
    rcases he with (((rfl | rfl) | rfl) | rfl) | rfl <;> decide
  rcases h with hc | hd
  · simp [joins, hseparator c hc]
  · simp [joins, hseparator d hd]

theorem joins_equals {d : Char} (h : d ≠ '=') : joins '=' d = false := by
  have hid : isIdChar '=' = false := by decide
  simp [joins, hid, h]

theorem joins_minus {d : Char} (h : d.isDigit = true) : joins '-' d = false := by
  have hminus : d ≠ '-' := by
    rintro rfl
    exact absurd h (by decide)
  have hgreater : d ≠ '>' := by
    rintro rfl
    exact absurd h (by decide)
  have hid : isIdChar '-' = false := by decide
  simp [joins, hid, hminus, hgreater]

/-- A value as a statement has it. -/
structure Splice where
  text : List Char
  toks : List Token
  reads : tokens text = some toks
  starts : text ≠ [] ∧ text.head? ≠ some '='

/-- A part of a statement that a value can follow. -/
structure Frame where
  text : List Char
  toks : List Token
  reads : tokens text = some toks
  ends : text.getLast?.any fun c => c == '=' || isSeparator c

/-- A part that can follow a value as well. -/
structure Link extends Frame where
  starts : text.head?.any isSeparator

def Splice.literal (text : List Char) : Splice where
  text := '\'' :: double '\'' text ++ ['\'']
  toks := [.literal text]
  reads := tokens_literal text
  starts := ⟨nofun, nofun⟩

def Frame.fill (frame : Frame) (filled : List (Splice × Link)) : List Char :=
  frame.text ++ filled.flatMap fun (splice, link) => splice.text ++ link.text

def Frame.fillToks (frame : Frame) (filled : List (Splice × Link)) : List Token :=
  frame.toks ++ filled.flatMap fun (splice, link) => splice.toks ++ link.toks

/-- Each value is read as itself, where it stands, and the frames as they are by themselves. -/
theorem Frame.tokens_fill (frame : Frame) (filled : List (Splice × Link)) :
    tokens (frame.fill filled) = some (frame.fillToks filled) := by
  induction filled generalizing frame with
  | nil => simp [Frame.fill, Frame.fillToks, frame.reads]
  | cons head filled ih =>
    rcases head with ⟨splice, link⟩
    have hfill : frame.fill ((splice, link) :: filled) =
        frame.text ++ (splice.text ++ link.fill filled) := by
      simp [Frame.fill]
    have hvalue : Apart splice.text (link.fill filled) := by
      intro c _ d hd
      obtain ⟨e, he, hseparator⟩ := (Option.any_eq_true _ _).mp link.starts
      rw [Frame.fill, List.head?_append, he] at hd
      obtain rfl := Option.some.inj hd
      exact joins_of_isSeparator (.inr hseparator)
    have hframe : Apart frame.text (splice.text ++ link.fill filled) := by
      intro c hc d hd
      rw [List.head?_append_of_ne_nil _ splice.starts.1] at hd
      obtain ⟨e, he, hends⟩ := (Option.any_eq_true _ _).mp frame.ends
      obtain rfl := Option.some.inj (he.symm.trans hc)
      rcases (Bool.or_eq_true _ _).mp hends with hequals | hseparator
      · rw [beq_iff_eq.mp hequals]
        exact joins_equals fun hd' => splice.starts.2 (hd' ▸ hd)
      · exact joins_of_isSeparator (.inl hseparator)
    rw [hfill, tokens_append frame.reads hframe, tokens_append splice.reads hvalue, ih link.toFrame]
    simp [Frame.fillToks]

end SqlTokens
