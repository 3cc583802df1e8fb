import BallyDongle.Lib.SqlTokens
import BallyDongle.Sqlite.Keywords

/-!
# The tokenizer of SQLite

`sqlite3GetToken` and what `sqlite3RunParser` makes of it, in SQLite 3.25.2 without blob
literals and Tcl variables, as the component is built. A text ends with its first NUL, and
is followed by one.
-/

namespace BallyDongle.Sqlite

open StringCompat
open SqlTokens (isIdChar)

/-! ## Character classes -/

inductive CharClass
  | X | KYWD | ID | DIGIT | DOLLAR | VARALPHA | VARNUM | SPACE | QUOTE | QUOTE2 | PIPE | MINUS
  | LT | GT | EQ | BANG | SLASH | LP | RP | SEMI | PLUS | STAR | PERCENT | COMMA | AND | TILDA
  | DOT | ILLEGAL | NUL
  deriving DecidableEq, Repr

/-- The classes of what is neither a letter nor a digit, by `aiClass`. -/
def symbolClass (c : Char) : CharClass :=
  match c with
  | '\x00' => .NUL
  | '\t' | '\n' | '\x0c' | '\r' | ' ' => .SPACE
  | '!' => .BANG
  | '"' | '\'' | '\x60' => .QUOTE
  | '#' | ':' | '@' => .VARALPHA
  | '$' => .DOLLAR
  | '%' => .PERCENT
  | '&' => .AND
  | '(' => .LP
  | ')' => .RP
  | '*' => .STAR
  | '+' => .PLUS
  | ',' => .COMMA
  | '-' => .MINUS
  | '.' => .DOT
  | '/' => .SLASH
  | ';' => .SEMI
  | '<' => .LT
  | '=' => .EQ
  | '>' => .GT
  | '?' => .VARNUM
  | '[' => .QUOTE2
  | '|' => .PIPE
  | '~' => .TILDA
  | _ => .ILLEGAL

def aiClass (c : Char) : CharClass :=
  if c = 'x' ∨ c = 'X' then .X
  else if c.isAlpha ∨ c = '_' then .KYWD
  else if 0x80 ≤ c.toNat then .ID
  else if c.isDigit then .DIGIT
  else symbolClass c

/-- `sqlite3Isspace`; the class `SPACE` is without the vertical tab. -/
def isSpace (c : Char) : Bool := (0x09 ≤ c.toNat && c.toNat ≤ 0x0D) || c == ' '

def isXDigit (c : Char) : Bool :=
  c.isDigit || ('a' ≤ c && c ≤ 'f') || ('A' ≤ c && c ≤ 'F')

/-- `aiClass[c] <= CC_KYWD`. -/
def isKywd (c : Char) : Bool := aiClass c == .X || aiClass c == .KYWD

/-! ## One token -/

/-- `z[i]`. -/
def charAt (z : Text) (i : Nat) : Char := z.getD i '\x00'

/-- How many characters from `i` on are `p`. -/
def run (p : Char → Bool) (z : Text) (i : Nat) : Nat := ((z.drop i).takeWhile p).length

/-- What is left of a comment in which `c` was the last character. -/
def commentRest (c : Char) : Text → Nat
  | [] => 0
  | d :: z =>
    if c = '*' ∧ d = '/' then 1 else if d = '\x00' then 0 else 1 + commentRest d z

/-- How much is inside quotes, and whether they are closed. -/
def quoted (delim : Char) : Text → Nat × Bool
  | [] => (0, false)
  | [c] => if c = '\x00' then (0, false) else if c = delim then (0, true) else (1, false)
  | c :: d :: z =>
    if c = '\x00' then (0, false)
    else if c = delim then
      if d = delim then
        let (n, closed) := quoted delim z
        (2 + n, closed)
      else (0, true)
    else
      let (n, closed) := quoted delim (d :: z)
      (1 + n, closed)

def quotedToken (z : Text) : Nat × TK :=
  match quoted (charAt z 0) (z.drop 1) with
  | (n, true) => (n + 2, if charAt z 0 = '\'' then .STRING else .ID)
  | (n, false) => (n + 1, .ILLEGAL)

/-- A decimal point at `i`, and the digits after it. -/
def fraction (z : Text) (i : Nat) : Nat × TK :=
  if charAt z i = '.' then (i + 1 + run Char.isDigit z (i + 1), .FLOAT) else (i, .INTEGER)

def exponent (z : Text) : Nat × TK → Nat × TK
  | (i, t) =>
    if (charAt z i = 'e' ∨ charAt z i = 'E') ∧
        ((charAt z (i + 1)).isDigit ∨
          (charAt z (i + 1) = '+' ∨ charAt z (i + 1) = '-') ∧ (charAt z (i + 2)).isDigit) then
      (i + 2 + run Char.isDigit z (i + 2), .FLOAT)
    else (i, t)

/-- A number that an identifier character follows is none. -/
def numberEnd (z : Text) : Nat × TK → Nat × TK
  | (i, t) => (i + run isIdChar z i, if run isIdChar z i = 0 then t else .ILLEGAL)

def numberToken (z : Text) : Nat × TK :=
  if charAt z 0 = '0' ∧ (charAt z 1 = 'x' ∨ charAt z 1 = 'X') ∧ isXDigit (charAt z 2) then
    (3 + run isXDigit z 3, .INTEGER)
  else numberEnd z (exponent z (fraction z (run Char.isDigit z 0)))

def wordToken (z : Text) : Nat × TK :=
  let i := 1 + run isKywd z 1
  if isIdChar (charAt z i) then (i + 1 + run isIdChar z (i + 1), .ID)
  else (i, keywordCode (z.take i))

/-- The length and the type of the token that `z` begins with. -/
def sqlite3GetToken (z : Text) : Nat × TK :=
  match aiClass (charAt z 0) with
  | .SPACE => (1 + run isSpace z 1, .SPACE)
  | .MINUS =>
    if charAt z 1 = '-' then (2 + run (fun c => c != '\x00' && c != '\n') z 2, .SPACE)
    else (1, .MINUS)
  | .LP => (1, .LP)
  | .RP => (1, .RP)
  | .SEMI => (1, .SEMI)
  | .PLUS => (1, .PLUS)
  | .STAR => (1, .STAR)
  | .SLASH =>
    if charAt z 1 ≠ '*' ∨ charAt z 2 = '\x00' then (1, .SLASH)
    else (3 + commentRest (charAt z 2) (z.drop 3), .SPACE)
  | .PERCENT => (1, .REM)
  | .EQ => (if charAt z 1 = '=' then 2 else 1, .EQ)
  | .LT =>
    if charAt z 1 = '=' then (2, .LE)
    else if charAt z 1 = '>' then (2, .NE)
    else if charAt z 1 = '<' then (2, .LSHIFT)
    else (1, .LT)
  | .GT =>
    if charAt z 1 = '=' then (2, .GE) else if charAt z 1 = '>' then (2, .RSHIFT) else (1, .GT)
  | .BANG => if charAt z 1 ≠ '=' then (1, .ILLEGAL) else (2, .NE)
  | .PIPE => if charAt z 1 ≠ '|' then (1, .BITOR) else (2, .CONCAT)
  | .COMMA => (1, .COMMA)
  | .AND => (1, .BITAND)
  | .TILDA => (1, .BITNOT)
  | .QUOTE => quotedToken z
  | .DOT => if !(charAt z 1).isDigit then (1, .DOT) else numberToken z
  | .DIGIT => numberToken z
  | .QUOTE2 =>
    let n := run (fun c => c != ']' && c != '\x00') z 1
    if charAt z (1 + n) = ']' then (2 + n, .ID) else (1 + n, .ILLEGAL)
  | .VARNUM => (1 + run Char.isDigit z 1, .VARIABLE)
  | .DOLLAR | .VARALPHA =>
    let n := run isIdChar z 1
    (1 + n, if n = 0 then .ILLEGAL else .VARIABLE)
  | .KYWD => wordToken z
  | .X | .ID => (1 + run isIdChar z 1, .ID)
  | .NUL => (0, .ILLEGAL)
  | .ILLEGAL => (1, .ILLEGAL)

theorem quotedToken_pos (z : Text) : 0 < (quotedToken z).1 := by
  rw [quotedToken]
  split <;> exact Nat.succ_pos _

theorem le_fraction (z : Text) (i : Nat) : i ≤ (fraction z i).1 := by
  rw [fraction]
  split
  · dsimp only
    omega
  · exact Nat.le_refl i

theorem le_exponent (z : Text) (number : Nat × TK) : number.1 ≤ (exponent z number).1 := by
  rw [exponent]
  split
  · dsimp only
    omega
  · exact Nat.le_refl _

theorem numberToken_pos {z : Text} (h : (charAt z 0).isDigit = true ∨ charAt z 0 = '.') :
    0 < (numberToken z).1 := by
  have hfraction : 0 < (fraction z (run Char.isDigit z 0)).1 := by
    cases z with
    | nil => exact absurd h (by decide)
    | cons c z =>
      rcases h with hdigit | hdot
      · have hrun : run Char.isDigit (c :: z) 0 = run Char.isDigit z 0 + 1 :=
          congrArg List.length (List.takeWhile_cons_of_pos hdigit)
        exact Nat.lt_of_lt_of_le (by rw [hrun]; exact Nat.succ_pos _) (le_fraction _ _)
      · have hc : c = '.' := hdot
        subst hc
        exact Nat.lt_of_lt_of_le Nat.one_pos (Nat.le_add_right 1 _)
  rw [numberToken]
  split
  · exact Nat.lt_of_lt_of_le (by decide) (Nat.le_add_right 3 _)
  · exact Nat.lt_of_lt_of_le hfraction
      ((le_exponent z _).trans (Nat.le_add_right _ _))

/-- The classes of a single character. -/
theorem symbolClass_single (c : Char) : symbolClass c ≠ .DIGIT ∧
    (symbolClass c = .DOT → c = '.') ∧ (symbolClass c = .NUL → c = '\x00') := by
  unfold symbolClass
  split <;> simp

theorem aiClass_single (c : Char) : (aiClass c = .DIGIT → c.isDigit = true) ∧
    (aiClass c = .DOT → c = '.') ∧ (aiClass c = .NUL → c = '\x00') := by
  obtain ⟨hdigit, hdot, hnul⟩ := symbolClass_single c
  rw [aiClass]
  split
  · simp
  split
  · simp
  split
  · simp
  split
  · rename_i hc
    simp [hc]
  · exact ⟨fun h => absurd h hdigit, hdot, hnul⟩

/-- Only the end of a text gives a token of no length. -/
theorem sqlite3GetToken_pos {z : Text} (h : charAt z 0 ≠ '\x00') : 0 < (sqlite3GetToken z).1 := by
  obtain ⟨hdigit, hdot, hnul⟩ := aiClass_single (charAt z 0)
  rw [sqlite3GetToken]
  cases hclass : aiClass (charAt z 0) with
  | DIGIT => exact numberToken_pos (.inl (hdigit hclass))
  | DOT =>
    dsimp only
    split
    · exact Nat.one_pos
    · exact numberToken_pos (.inr (hdot hclass))
  | NUL => exact absurd (hnul hclass) h
  | KYWD =>
    dsimp only
    rw [wordToken]
    split <;> omega
  | QUOTE => exact quotedToken_pos z
  | _ =>
    dsimp only
    repeat' split
    all_goals omega

theorem length_drop_token {z : Text} (h : charAt z 0 ≠ '\x00') :
    (z.drop (sqlite3GetToken z).1).length < z.length := by
  have hpos := sqlite3GetToken_pos h
  have hne : 0 < z.length := by
    cases z with
    | nil => exact absurd rfl h
    | cons c z => exact Nat.succ_pos _
  rw [List.length_drop]
  omega

theorem charAt_of_space {z : Text} (h : (sqlite3GetToken z).2 = .SPACE) : charAt z 0 ≠ '\x00' := by
  intro hnul
  rw [sqlite3GetToken, hnul] at h
  cases h

/-! ## What the parser is given -/

/-- The next token that is not white space, `ID` for what may be a name, and the rest. -/
def getToken (z : Text) : TK × Text :=
  let t := (sqlite3GetToken z).2
  let rest := z.drop (sqlite3GetToken z).1
  if t = .SPACE then getToken rest
  else (if t ∈ [TK.ID, .STRING, .JOIN_KW, .WINDOW, .OVER] ∨ t ∈ yyFallback then .ID else t, rest)
termination_by z.length
decreasing_by exact length_drop_token (charAt_of_space ‹_›)

def analyzeWindowKeyword (z : Text) : TK :=
  match getToken z with
  | (.ID, z) => if (getToken z).1 = .AS then .WINDOW else .ID
  | _ => .ID

def analyzeOverKeyword (z : Text) (lastToken : Option TK) : TK :=
  if lastToken = some .RP ∧ ((getToken z).1 = .LP ∨ (getToken z).1 = .ID) then .OVER else .ID

def analyzeFilterKeyword (z : Text) (lastToken : Option TK) : TK :=
  if lastToken = some .RP ∧ (getToken z).1 = .LP then .FILTER else .ID

/-- The type the parser is given for a token with `z` behind it. -/
def tokenInContext (lastToken : Option TK) (z : Text) : TK → TK
  | .WINDOW => analyzeWindowKeyword z
  | .OVER => analyzeOverKeyword z lastToken
  | .FILTER => analyzeFilterKeyword z lastToken
  | t => t

/-- The tokens that `sqlite3RunParser` gives the parser, with their texts, up to the end of the
text or what is no token. -/
def parserTokens (lastToken : Option TK) (z : Text) : List (TK × Text) :=
  if charAt z 0 = '\x00' then []
  else
    let t := (sqlite3GetToken z).2
    let text := z.take (sqlite3GetToken z).1
    let rest := z.drop (sqlite3GetToken z).1
    if t = .SPACE then parserTokens lastToken rest
    else if t = .ILLEGAL then [(t, text)]
    else (tokenInContext lastToken rest t, text) ::
      parserTokens (some (tokenInContext lastToken rest t)) rest
termination_by z.length
decreasing_by all_goals exact length_drop_token ‹_›

example : (parserTokens none "SELECT * FROM 'a''b' WHERE id>=0x1F;".toList).map Prod.fst =
    [.SELECT, .STAR, .FROM, .STRING, .WHERE, .ID, .GE, .INTEGER, .SEMI] := by decide +kernel

/-! ## Words -/

theorem length_run_append {p : Char → Bool} {front back : Text} (hfront : ∀ c ∈ front, p c = true)
    (hback : p (charAt back 0) = false) : ((front ++ back).takeWhile p).length = front.length := by
  rw [List.takeWhile_append_of_pos hfront]
  cases back with
  | nil => rw [List.takeWhile_nil, List.append_nil]
  | cons c back => rw [List.takeWhile_cons_of_neg (by rw [show p c = false from hback]; decide),
      List.append_nil]

theorem isIdChar_of_isWordChar {c : Char} (h : isWordChar c = true) : isIdChar c = true := by
  rw [isIdChar, ← isWordChar, h]
  rfl

/-- A word: letters, digits and underscores, no digit in front. -/
structure IsWord (w : Text) : Prop where
  chars : ∀ c ∈ w, isWordChar c = true
  front : ∃ c w', w = c :: w' ∧ c.isDigit = false

theorem aiClass_word {c : Char} (h : isWordChar c = true) (hdigit : c.isDigit = false) :
    aiClass c = .X ∧ (c = 'x' ∨ c = 'X') ∨ aiClass c = .KYWD := by
  rw [aiClass]
  split
  · exact .inl ⟨rfl, ‹_›⟩
  · change ((c.isAlpha || c.isDigit) || c == '_') = true at h
    rw [hdigit, Bool.or_false, Bool.or_eq_true, beq_iff_eq] at h
    rw [if_pos h]
    exact .inr rfl

theorem isKywd_of_isWordChar {c : Char} (h : isWordChar c = true) (hdigit : c.isDigit = false) :
    isKywd c = true := by
  rw [isKywd]
  rcases aiClass_word h hdigit with ⟨hx, -⟩ | hkywd
  · rw [hx]
    rfl
  · rw [hkywd]
    rfl

theorem isKywd_eq_false {c : Char} (h : isIdChar c = false) : isKywd c = false := by
  change ((((c.isAlpha || c.isDigit) || c == '_') || c == '$') || decide (0x80 ≤ c.toNat)) = false at h
  rw [Bool.or_eq_false_iff, Bool.or_eq_false_iff, Bool.or_eq_false_iff,
    Bool.or_eq_false_iff, decide_eq_false_iff_not] at h
  obtain ⟨⟨⟨⟨halpha, hdigit⟩, hline⟩, -⟩, hascii⟩ := h
  have hx : ¬(c = 'x' ∨ c = 'X') := by
    rintro (rfl | rfl) <;> exact absurd halpha (by decide)
  have hkywd : ¬(c.isAlpha = true ∨ c = '_') := by simpa [halpha] using hline
  rw [isKywd, aiClass, if_neg hx, if_neg hkywd, if_neg hascii, hdigit, if_neg Bool.false_ne_true]
  unfold symbolClass
  split <;> rfl

theorem charAt_append (front back : Text) (i : Nat) :
    charAt (front ++ back) (front.length + i) = charAt back i := by
  rw [charAt, charAt, List.getD_append_right _ _ _ _ (Nat.le_add_right _ _), Nat.add_sub_cancel_left]

/-- A word of keyword characters is looked up, and one with a digit in it is an identifier. -/
theorem wordToken_word {c : Char} {w rest : Text} (hw : ∀ d ∈ w, isWordChar d = true)
    (hrest : isIdChar (charAt rest 0) = false) :
    wordToken (c :: w ++ rest) = ((c :: w).length, keywordCode (c :: w)) := by
  have hids : ∀ d ∈ w, isIdChar d = true := fun d hd => isIdChar_of_isWordChar (hw d hd)
  cases hfind : w.find? fun d => !isKywd d with
  | none =>
    have hkywd : ∀ d ∈ w, isKywd d = true := by simpa using hfind
    have hrun : run isKywd (c :: w ++ rest) 1 = w.length :=
      length_run_append hkywd (isKywd_eq_false hrest)
    have hlength : 1 + w.length = (c :: w).length := Nat.add_comm 1 _
    have hend : charAt (c :: w ++ rest) (c :: w).length = charAt rest 0 :=
      charAt_append (c :: w) rest 0
    rw [wordToken, hrun, hlength, hend, hrest, if_neg Bool.false_ne_true, List.take_left]
  | some d =>
    -- the first digit ends the run of keyword characters but not the identifier
    obtain ⟨hd, front, back, rfl, hfront⟩ := List.find?_eq_some_iff_append.1 hfind
    rw [Bool.not_eq_true'] at hd
    have hdigit : d.isDigit = true := by
      by_contra hnot
      rw [Bool.not_eq_true] at hnot
      rw [isKywd_of_isWordChar (hw d (by simp)) hnot] at hd
      cases hd
    have hcode : keywordCode (c :: (front ++ d :: back)) = .ID :=
      keywordCode_eq_ID (.inl ⟨d, by simp, hdigit⟩)
    have htext : c :: (front ++ d :: back) ++ rest = c :: front ++ (d :: (back ++ rest)) := by simp
    have hrun : run isKywd (c :: front ++ (d :: (back ++ rest))) 1 = front.length :=
      length_run_append (by simpa using hfront) hd
    have hlength : 1 + front.length = (c :: front).length := Nat.add_comm 1 _
    have hend : charAt (c :: front ++ (d :: (back ++ rest))) (c :: front).length = d :=
      charAt_append (c :: front) (d :: (back ++ rest)) 0
    have hback : run isIdChar (c :: front ++ (d :: (back ++ rest))) ((c :: front).length + 1) =
        back.length := by
      have hdrop : (c :: front ++ (d :: (back ++ rest))).drop ((c :: front).length + 1) =
          back ++ rest := by
        rw [← List.drop_drop, List.drop_left]
        rfl
      rw [run, hdrop]
      exact length_run_append (fun e he => hids e (by simp [he])) hrest
    rw [wordToken, htext, hrun, hlength, hend, hids d (by simp), if_pos rfl, hback, hcode]
    simp
    omega

/-- A word followed by what is not in it is one token. -/
theorem sqlite3GetToken_word {w rest : Text} (hw : IsWord w)
    (hrest : isIdChar (charAt rest 0) = false) :
    sqlite3GetToken (w ++ rest) = (w.length, keywordCode w) := by
  obtain ⟨c, w', rfl, hdigit⟩ := hw.front
  have hchars := List.forall_mem_cons.1 hw.chars
  have hids : ∀ d ∈ w', isIdChar d = true := fun d hd => isIdChar_of_isWordChar (hchars.2 d hd)
  have hrun : run isIdChar (c :: w' ++ rest) 1 = w'.length := length_run_append hids hrest
  have hclass : aiClass (charAt (c :: w' ++ rest) 0) = aiClass c := rfl
  rw [sqlite3GetToken, hclass]
  rcases aiClass_word hchars.1 hdigit with ⟨hx, heq⟩ | hkywd
  · have hcode : keywordCode (c :: w') = .ID := by
      apply keywordCode_eq_ID
      rcases heq with rfl | rfl <;> simp
    rw [hx, hcode]
    dsimp only
    rw [hrun, Nat.add_comm]
    rfl
  · rw [hkywd]
    exact wordToken_word hchars.2 hrest

/-! ## The tokens in front -/

theorem parserTokens_token {z : Text} (lastToken : Option TK) (hz : charAt z 0 ≠ '\x00')
    (ht : (sqlite3GetToken z).2 ≠ .SPACE ∧ (sqlite3GetToken z).2 ≠ .ILLEGAL) :
    parserTokens lastToken z =
      (tokenInContext lastToken (z.drop (sqlite3GetToken z).1) (sqlite3GetToken z).2,
          z.take (sqlite3GetToken z).1) ::
        parserTokens
          (some (tokenInContext lastToken (z.drop (sqlite3GetToken z).1) (sqlite3GetToken z).2))
          (z.drop (sqlite3GetToken z).1) := by
  rw [parserTokens, if_neg hz]
  dsimp only
  rw [if_neg ht.1, if_neg ht.2]

theorem charAt_word {w : Text} (hw : IsWord w) (rest : Text) : charAt (w ++ rest) 0 ≠ '\x00' := by
  obtain ⟨c, w', rfl, -⟩ := hw.front
  have hc := hw.chars c List.mem_cons_self
  intro hnul
  rw [show c = '\x00' from hnul] at hc
  exact absurd hc (by decide)

theorem parserTokens_word (lastToken : Option TK) {w rest : Text} (hw : IsWord w)
    (hrest : isIdChar (charAt rest 0) = false) :
    parserTokens lastToken (w ++ rest) = (tokenInContext lastToken rest (keywordCode w), w) ::
      parserTokens (some (tokenInContext lastToken rest (keywordCode w))) rest := by
  have hget := sqlite3GetToken_word hw hrest
  have htoken := parserTokens_token lastToken (charAt_word hw rest)
  rw [hget] at htoken
  rw [htoken (keywordCode_ne w)]
  dsimp only
  rw [List.drop_left, List.take_left]

theorem sqlite3GetToken_blank {z : Text} (hz : isSpace (charAt z 0) = false) :
    sqlite3GetToken (' ' :: z) = (1, .SPACE) := by
  have hrun : run isSpace (' ' :: z) 1 = 0 := @length_run_append isSpace [] z nofun hz
  have hget : sqlite3GetToken (' ' :: z) = (1 + run isSpace (' ' :: z) 1, .SPACE) := rfl
  rw [hget, hrun]

theorem parserTokens_blank (lastToken : Option TK) {z : Text}
    (hz : isSpace (charAt z 0) = false) :
    parserTokens lastToken (' ' :: z) = parserTokens lastToken z := by
  have hblank : charAt (' ' :: z) 0 ≠ '\x00' := show ' ' ≠ '\x00' by decide
  rw [parserTokens, if_neg hblank, sqlite3GetToken_blank hz]
  rfl

theorem getToken_blank {z : Text} (hz : isSpace (charAt z 0) = false) :
    getToken (' ' :: z) = getToken z := by
  rw [getToken, sqlite3GetToken_blank hz]
  rfl

/-- A word that is neither an identifier nor a keyword that can be one. -/
theorem getToken_word {w rest : Text} (hw : IsWord w) (hrest : isIdChar (charAt rest 0) = false)
    (hcode : isName (keywordCode w) = false) : (getToken (w ++ rest)).1 = keywordCode w := by
  have hself : ¬(keywordCode w ∈ [TK.ID, .STRING, .JOIN_KW, .WINDOW, .OVER] ∨
      keywordCode w ∈ yyFallback) := by
    simp [isName, isNm] at hcode
    simp [hcode]
  rw [getToken, sqlite3GetToken_word hw hrest, if_neg (keywordCode_ne w).1, if_neg hself]

theorem numberToken_type (z : Text) : (numberToken z).2 ∈ [TK.INTEGER, .FLOAT, .ILLEGAL] := by
  have hfraction : ∀ i, (fraction z i).2 ∈ [TK.INTEGER, .FLOAT, .ILLEGAL] := by
    intro i
    rw [fraction]
    split <;> simp
  have hexponent : ∀ number : Nat × TK, number.2 ∈ [TK.INTEGER, .FLOAT, .ILLEGAL] →
      (exponent z number).2 ∈ [TK.INTEGER, .FLOAT, .ILLEGAL] := by
    intro number hnumber
    rw [exponent]
    split
    · simp
    · exact hnumber
  rw [numberToken]
  split
  · simp
  · rw [numberEnd]
    dsimp only
    split
    · exact hexponent _ (hfraction _)
    · simp

theorem aiClass_digit {c : Char} (hc : c.isDigit = true) : aiClass c = .DIGIT := by
  have hrange := (isDigit_iff c).1 hc
  have hx : ¬(c = 'x' ∨ c = 'X') := by
    rintro (rfl | rfl) <;> exact absurd hc (by decide)
  have hkywd : ¬(c.isAlpha = true ∨ c = '_') := by
    rintro (halpha | rfl)
    · change (c.isUpper || c.isLower) = true at halpha
      rw [Bool.or_eq_true, isUpper_iff, isLower_iff] at halpha
      omega
    · exact absurd hc (by decide)
  have hascii : ¬0x80 ≤ c.toNat := by omega
  rw [aiClass, if_neg hx, if_neg hkywd, if_neg hascii, if_pos hc]

/-- A number is no name. -/
theorem parserTokens_digit (lastToken : Option TK) {c : Char} (hc : c.isDigit = true) (z : Text) :
    ∃ t text more, parserTokens lastToken (c :: z) = (t, text) :: more ∧ isNm t = false := by
  have hclass : aiClass (charAt (c :: z) 0) = .DIGIT := aiClass_digit hc
  have hnul : charAt (c :: z) 0 ≠ '\x00' := by
    intro h
    rw [h] at hclass
    cases hclass
  have htype := numberToken_type (c :: z)
  have hget : sqlite3GetToken (c :: z) = numberToken (c :: z) := by
    rw [sqlite3GetToken, hclass]
  rw [← hget] at htype
  simp only [List.mem_cons, List.not_mem_nil, or_false] at htype
  rcases htype with htype | htype | htype
  · refine ⟨_, _, _, parserTokens_token lastToken hnul (by simp [htype]), ?_⟩
    rw [htype]
    rfl
  · refine ⟨_, _, _, parserTokens_token lastToken hnul (by simp [htype]), ?_⟩
    rw [htype]
    rfl
  · refine ⟨.ILLEGAL, (c :: z).take (sqlite3GetToken (c :: z)).1, [], ?_, rfl⟩
    rw [parserTokens, if_neg hnul, htype]
    rfl

/-! ## Names without regard to cases -/

def sqlite3StrNICmp (zLeft zRight : Text) : Nat → Int
  | 0 => 0
  | n + 1 =>
    if charAt zLeft 0 ≠ '\x00' ∧ charMap (charAt zLeft 0) = charMap (charAt zRight 0) then
      sqlite3StrNICmp (zLeft.drop 1) (zRight.drop 1) n
    else charMap (charAt zLeft 0) - charMap (charAt zRight 0)

theorem charMap_eq_iff {c d : Char} : charMap c = charMap d ↔ toLower c = toLower d :=
  Char.toNat_inj

theorem charMap_eq_zero {c : Char} (h : charMap c = 0) : c = '\x00' := by
  rw [charMap, toNat_toLower] at h
  split at h
  · omega
  · exact Char.toNat_inj.1 h

theorem sqlite3StrNICmp_eq_zero (z : Text) {w : Text} (hw : ∀ d ∈ w, d ≠ '\x00') :
    sqlite3StrNICmp z w w.length = 0 ↔ w.map toLower <+: z.map toLower := by
  induction w generalizing z with
  | nil => exact iff_of_true rfl List.nil_prefix
  | cons d w ih =>
    rw [List.forall_mem_cons] at hw
    rw [List.length_cons, sqlite3StrNICmp]
    cases z with
    | nil =>
      rw [if_neg fun h => h.1 rfl]
      refine iff_of_false (fun h => hw.1 (charMap_eq_zero ?_)) (by simp)
      have hnul : charMap (charAt [] 0) = 0 := rfl
      have hfront : charAt (d :: w) 0 = d := rfl
      rw [hnul, hfront] at h
      omega
    | cons c z =>
      have hleft : charAt (c :: z) 0 = c := rfl
      have hright : charAt (d :: w) 0 = d := rfl
      rw [hleft, hright, List.map_cons, List.map_cons, List.cons_prefix_cons, ← charMap_eq_iff]
      by_cases hsame : charMap c = charMap d
      · have hc : c ≠ '\x00' := by
          rintro rfl
          exact hw.1 (charMap_eq_zero hsame.symm)
        rw [if_pos ⟨hc, hsame⟩]
        exact (ih z hw.2).trans (by simp [hsame])
      · rw [if_neg fun h => hsame h.2]
        refine iff_of_false ?_ fun h => hsame h.1.symm
        omega

end BallyDongle.Sqlite
