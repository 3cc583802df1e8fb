import BallyDongle.StringCompat
import Mathlib.Data.List.GetD

/-!
# The keywords of SQLite

`keywordhash.h` and the part of the grammar that says which tokens are names, in SQLite
3.25.2. A word is looked up by a hash of its ends and its length, in a text in which the
keywords overlap. `keywordCode_reserved` says which words cannot be names.
-/

namespace BallyDongle.Sqlite

open StringCompat

abbrev Text := List Char

/-! ## Tokens -/

/-- The token types that the tokenizer gives. -/
inductive TK
  | SEMI | EXPLAIN | QUERY | PLAN | BEGIN | TRANSACTION | DEFERRED | IMMEDIATE | EXCLUSIVE
  | COMMIT | END | ROLLBACK | SAVEPOINT | RELEASE | TO | TABLE | CREATE | IF | NOT | EXISTS
  | TEMP | LP | RP | AS | WITHOUT | COMMA | ABORT | ACTION | AFTER | ANALYZE | ASC | ATTACH
  | BEFORE | BY | CASCADE | CAST | CONFLICT | DATABASE | DESC | DETACH | EACH | FAIL | OR | AND
  | IS | MATCH | LIKE_KW | BETWEEN | IN | ISNULL | NOTNULL | NE | EQ | GT | LE | LT | GE | ESCAPE
  | ID | COLUMNKW | DO | FOR | IGNORE | INITIALLY | INSTEAD | NO | KEY | OF | OFFSET | PRAGMA
  | RAISE | RECURSIVE | REPLACE | RESTRICT | ROW | ROWS | TRIGGER | VACUUM | VIEW | VIRTUAL
  | WITH | CURRENT | FOLLOWING | PARTITION | PRECEDING | RANGE | UNBOUNDED | REINDEX | RENAME
  | CTIME_KW | BITAND | BITOR | LSHIFT | RSHIFT | PLUS | MINUS | STAR | SLASH | REM | CONCAT
  | COLLATE | BITNOT | ON | INDEXED | STRING | JOIN_KW | CONSTRAINT | DEFAULT | NULL | PRIMARY
  | UNIQUE | CHECK | REFERENCES | AUTOINCR | INSERT | DELETE | UPDATE | SET | DEFERRABLE
  | FOREIGN | DROP | UNION | ALL | EXCEPT | INTERSECT | SELECT | VALUES | DISTINCT | DOT | FROM
  | JOIN | USING | ORDER | GROUP | HAVING | LIMIT | WHERE | INTO | NOTHING | FLOAT | INTEGER
  | VARIABLE | CASE | WHEN | THEN | ELSE | INDEX | ALTER | ADD | WINDOW | OVER | FILTER | SPACE
  | ILLEGAL
  deriving DecidableEq, Repr

/-- `yyFallback`: the tokens that become `ID` where the grammar has no place for them. -/
def yyFallback : List TK := [
  .EXPLAIN, .QUERY, .PLAN, .BEGIN, .DEFERRED, .IMMEDIATE, .EXCLUSIVE, .END, .ROLLBACK,
  .SAVEPOINT, .RELEASE, .IF, .TEMP, .WITHOUT, .ABORT, .ACTION, .AFTER, .ANALYZE, .ASC, .ATTACH,
  .BEFORE, .BY, .CASCADE, .CAST, .CONFLICT, .DATABASE, .DESC, .DETACH, .EACH, .FAIL, .MATCH,
  .LIKE_KW, .COLUMNKW, .DO, .FOR, .IGNORE, .INITIALLY, .INSTEAD, .NO, .KEY, .OF, .OFFSET,
  .PRAGMA, .RAISE, .RECURSIVE, .REPLACE, .RESTRICT, .ROW, .ROWS, .TRIGGER, .VACUUM, .VIEW,
  .VIRTUAL, .WITH, .CURRENT, .FOLLOWING, .PARTITION, .PRECEDING, .RANGE, .UNBOUNDED, .REINDEX,
  .RENAME, .CTIME_KW]

/-- `nm ::= ID|INDEXED`, `nm ::= STRING` and `nm ::= JOIN_KW`, after the fallback. -/
def isNm (t : TK) : Bool := t ∈ [TK.ID, .INDEXED, .STRING, .JOIN_KW] || t ∈ yyFallback

/-! ## The tables -/

/-- The keywords, each the `aKWLen` characters of `zKWText` from `aKWOffset` on. -/
def keywords : List Text :=
  ["REINDEX", "INDEXED", "INDEX", "DESC", "ESCAPE", "EACH", "CHECK", "KEY", "BEFORE", "FOREIGN",
    "FOR", "IGNORE", "REGEXP", "EXPLAIN", "INSTEAD", "ADD", "DATABASE", "AS", "SELECT", "TABLE",
    "LEFT", "THEN", "END", "DEFERRABLE", "ELSE", "EXCEPT", "TRANSACTION", "ACTION", "ON",
    "NATURAL", "ALTER", "RAISE", "EXCLUSIVE", "EXISTS", "SAVEPOINT", "INTERSECT", "TRIGGER",
    "REFERENCES", "CONSTRAINT", "INTO", "OFFSET", "OF", "SET", "TEMPORARY", "TEMP", "OR",
    "UNIQUE", "QUERY", "WITHOUT", "WITH", "OUTER", "RELEASE", "ATTACH", "HAVING", "GROUP",
    "UPDATE", "BEGIN", "INNER", "RANGE", "BETWEEN", "NOTHING", "GLOB", "BY", "CASCADE", "ASC",
    "DELETE", "CASE", "COLLATE", "CREATE", "CURRENT_DATE", "DETACH", "IMMEDIATE", "JOIN",
    "INSERT", "LIKE", "MATCH", "PLAN", "ANALYZE", "PRAGMA", "ABORT", "VALUES", "VIRTUAL",
    "LIMIT", "WHEN", "NOTNULL", "NOT", "NO", "NULL", "WHERE", "RECURSIVE", "AFTER", "RENAME",
    "AND", "DEFAULT", "AUTOINCREMENT", "TO", "IN", "CAST", "COLUMN", "COMMIT", "CONFLICT",
    "CROSS", "CURRENT_TIMESTAMP", "CURRENT_TIME", "CURRENT", "PARTITION", "DEFERRED", "DISTINCT",
    "IS", "DROP", "PRECEDING", "FAIL", "FILTER", "REPLACE", "FOLLOWING", "FROM", "FULL", "IF",
    "ISNULL", "ORDER", "RESTRICT", "OVER", "RIGHT", "ROLLBACK", "ROWS", "ROW", "UNBOUNDED",
    "UNION", "USING", "VACUUM", "VIEW", "WINDOW", "DO", "INITIALLY", "ALL", "PRIMARY"].map String.toList

def aKWHash : List Nat := [
  74, 109, 124, 72, 106, 45, 0, 0, 81, 0, 76, 61, 0, 42, 12, 77, 15, 0, 123, 84, 54, 118, 125,
  19, 0, 0, 130, 0, 128, 121, 0, 22, 96, 0, 9, 0, 0, 115, 69, 0, 67, 6, 0, 48, 93, 136, 0, 126,
  104, 0, 0, 44, 0, 107, 24, 0, 17, 0, 131, 53, 23, 0, 5, 62, 132, 99, 0, 0, 135, 110, 60, 134,
  57, 113, 55, 0, 94, 0, 103, 26, 0, 102, 0, 0, 0, 98, 95, 100, 105, 117, 14, 39, 116, 0, 80, 0,
  133, 114, 92, 59, 0, 129, 79, 119, 86, 46, 83, 0, 0, 97, 40, 122, 120, 0, 127, 0, 0, 29, 0, 89,
  87, 88, 0, 20, 85, 111, 56]

def aKWNext : List Nat := [
  0, 0, 0, 0, 4, 0, 0, 0, 0, 0, 0, 0, 0, 0, 2, 0, 0, 0, 0, 0, 0, 13, 0, 0, 0, 0, 0, 7, 0, 0, 0,
  0, 0, 0, 0, 0, 0, 0, 0, 0, 0, 0, 0, 33, 0, 21, 0, 0, 0, 0, 0, 50, 0, 43, 3, 47, 0, 0, 32, 0, 0,
  0, 0, 0, 0, 0, 1, 64, 0, 0, 65, 0, 41, 0, 38, 0, 0, 0, 0, 0, 49, 75, 0, 0, 30, 0, 58, 0, 0, 0,
  31, 63, 16, 34, 10, 0, 0, 0, 0, 0, 0, 0, 11, 70, 91, 0, 0, 8, 0, 108, 0, 101, 28, 52, 68, 0,
  112, 0, 73, 51, 0, 90, 27, 37, 0, 71, 36, 82, 0, 35, 66, 25, 18, 0, 0, 78]

def aKWCode : List TK := [
  .REINDEX, .INDEXED, .INDEX, .DESC, .ESCAPE, .EACH, .CHECK, .KEY, .BEFORE, .FOREIGN, .FOR,
  .IGNORE, .LIKE_KW, .EXPLAIN, .INSTEAD, .ADD, .DATABASE, .AS, .SELECT, .TABLE, .JOIN_KW, .THEN,
  .END, .DEFERRABLE, .ELSE, .EXCEPT, .TRANSACTION, .ACTION, .ON, .JOIN_KW, .ALTER, .RAISE,
  .EXCLUSIVE, .EXISTS, .SAVEPOINT, .INTERSECT, .TRIGGER, .REFERENCES, .CONSTRAINT, .INTO,
  .OFFSET, .OF, .SET, .TEMP, .TEMP, .OR, .UNIQUE, .QUERY, .WITHOUT, .WITH, .JOIN_KW, .RELEASE,
  .ATTACH, .HAVING, .GROUP, .UPDATE, .BEGIN, .JOIN_KW, .RANGE, .BETWEEN, .NOTHING, .LIKE_KW, .BY,
  .CASCADE, .ASC, .DELETE, .CASE, .COLLATE, .CREATE, .CTIME_KW, .DETACH, .IMMEDIATE, .JOIN,
  .INSERT, .LIKE_KW, .MATCH, .PLAN, .ANALYZE, .PRAGMA, .ABORT, .VALUES, .VIRTUAL, .LIMIT, .WHEN,
  .NOTNULL, .NOT, .NO, .NULL, .WHERE, .RECURSIVE, .AFTER, .RENAME, .AND, .DEFAULT, .AUTOINCR,
  .TO, .IN, .CAST, .COLUMNKW, .COMMIT, .CONFLICT, .JOIN_KW, .CTIME_KW, .CTIME_KW, .CURRENT,
  .PARTITION, .DEFERRED, .DISTINCT, .IS, .DROP, .PRECEDING, .FAIL, .FILTER, .REPLACE, .FOLLOWING,
  .FROM, .JOIN_KW, .IF, .ISNULL, .ORDER, .RESTRICT, .OVER, .JOIN_KW, .ROLLBACK, .ROWS, .ROW,
  .UNBOUNDED, .UNION, .USING, .VACUUM, .VIEW, .WINDOW, .DO, .INITIALLY, .ALL, .PRIMARY]

/-! ## The lookup -/

def charMap (c : Char) : Nat := (toLower c).toNat

/-- `c & ~0x20`. -/
def clearBit5 (c : Char) : Char := if c.toNat / 32 % 2 = 1 then Char.ofNat (c.toNat - 32) else c

def kwHash (z : Text) : Nat :=
  (charMap (z.getD 0 '\x00') * 4 ^^^ charMap (z.getD (z.length - 1) '\x00') * 3 ^^^ z.length) % 127

def isKeyword (i : Nat) (z : Text) : Bool := some (z.map clearBit5) == keywords[i]?

/-- The first of a chain of keywords that is `z`; `next` is one more than its index. -/
def keywordChain (z : Text) : (fuel next : Nat) → TK
  | 0, _ => .ID
  | _ + 1, 0 => .ID
  | fuel + 1, i + 1 =>
    if isKeyword i z then aKWCode.getD i .ID else keywordChain z fuel (aKWNext.getD i 0)

def keywordCode (z : Text) : TK :=
  if 2 ≤ z.length then keywordChain z aKWNext.length (aKWHash.getD (kwHash z) 0) else .ID

/-! ## What is found -/

theorem keywordChain_cases (z : Text) (fuel next : Nat) :
    keywordChain z fuel next = .ID ∨
      ∃ i, isKeyword i z = true ∧ keywordChain z fuel next = aKWCode.getD i .ID := by
  induction fuel generalizing next with
  | zero => exact .inl rfl
  | succ fuel ih =>
    match next with
    | 0 => exact .inl rfl
    | i + 1 =>
      rw [keywordChain]
      split
      · rename_i hkeyword
        exact .inr ⟨i, hkeyword, rfl⟩
      · exact ih _

theorem keywordCode_cases (z : Text) :
    keywordCode z = .ID ∨ ∃ i, isKeyword i z = true ∧ keywordCode z = aKWCode.getD i .ID := by
  rw [keywordCode]
  split
  · exact keywordChain_cases z _ _
  · exact .inl rfl

theorem keywordChain_congr {z z' : Text} (h : ∀ i, isKeyword i z = isKeyword i z')
    (fuel next : Nat) : keywordChain z fuel next = keywordChain z' fuel next := by
  induction fuel generalizing next with
  | zero => rfl
  | succ fuel ih =>
    match next with
    | 0 => rfl
    | i + 1 => rw [keywordChain, keywordChain, h, ih]

def isCapital (c : Char) : Bool := c.isUpper || c == '_'

/-- A keyword is in capitals, begins with a letter other than X, ends with one, and is found
under its own hash. -/
structure Listed (i : Nat) (w : Text) : Prop where
  capital : ∀ c ∈ w, isCapital c = true
  ends : ∀ k ∈ [0, w.length - 1], (w.getD k '\x00').isUpper = true
  head : w.head? ≠ some 'X'
  found : keywordCode w = aKWCode.getD i .ID

def isListed (i : Nat) (w : Text) : Bool :=
  w.all isCapital && [0, w.length - 1].all (fun k => (w.getD k '\x00').isUpper) &&
    w.head? != some 'X' && keywordCode w == aKWCode.getD i .ID

theorem keywords_isListed : ∀ i < keywords.length, (keywords[i]?).all (isListed i) = true := by
  decide +kernel

theorem keywords_listed {i : Nat} {w : Text} (h : keywords[i]? = some w) : Listed i w := by
  have hlisted := keywords_isListed i (List.getElem?_eq_some_iff.1 h).1
  rw [h, Option.all_some, isListed, Bool.and_eq_true, Bool.and_eq_true, Bool.and_eq_true,
    List.all_eq_true, List.all_eq_true, bne_iff_ne, beq_iff_eq] at hlisted
  obtain ⟨⟨⟨capital, ends⟩, head⟩, found⟩ := hlisted
  exact { capital, ends, head, found }

/-! ## Letters -/

theorem toNat_ofNat {n : Nat} (h : n.isValidChar) : (Char.ofNat n).toNat = n := by
  rw [Char.ofNat, dif_pos h]
  rfl

theorem toNat_clearBit5 (c : Char) :
    (clearBit5 c).toNat = if c.toNat / 32 % 2 = 1 then c.toNat - 32 else c.toNat := by
  have hvalid : c.toNat.isValidChar := c.valid
  rw [clearBit5]
  split
  · rename_i hbit
    apply toNat_ofNat
    rw [Nat.isValidChar] at hvalid ⊢
    omega
  · rfl

theorem toNat_toLower (c : Char) :
    (toLower c).toNat = if 65 ≤ c.toNat ∧ c.toNat ≤ 90 then c.toNat + 32 else c.toNat := by
  have hcapital : 'A' ≤ c ∧ c ≤ 'Z' ↔ 65 ≤ c.toNat ∧ c.toNat ≤ 90 := Iff.rfl
  simp only [toLower, hcapital]
  split
  · apply toNat_ofNat
    rw [Nat.isValidChar]
    omega
  · rfl

theorem isUpper_iff (c : Char) : c.isUpper = true ↔ 65 ≤ c.toNat ∧ c.toNat ≤ 90 :=
  decide_eq_true_iff

theorem isLower_iff (c : Char) : c.isLower = true ↔ 97 ≤ c.toNat ∧ c.toNat ≤ 122 := by
  show (decide _ && decide _) = true ↔ _
  rw [Bool.and_eq_true, decide_eq_true_iff, decide_eq_true_iff]
  exact Iff.rfl

theorem isCapital_iff (c : Char) :
    isCapital c = true ↔ 65 ≤ c.toNat ∧ c.toNat ≤ 90 ∨ c.toNat = 95 := by
  have hline : c = '_' ↔ c.toNat = 95 := Char.toNat_inj.symm
  rw [isCapital, Bool.or_eq_true, isUpper_iff, beq_iff_eq, hline]

theorem clearBit5_capital {c : Char} (h : isCapital c = true) : clearBit5 c = c := by
  rw [isCapital_iff] at h
  rw [← Char.toNat_inj, toNat_clearBit5]
  grind

theorem charMap_clearBit5 {c : Char} (h : (clearBit5 c).isUpper = true) :
    charMap (clearBit5 c) = charMap c := by
  rw [isUpper_iff, toNat_clearBit5] at h
  rw [charMap, charMap, toNat_toLower, toNat_toLower, toNat_clearBit5]
  grind

theorem getElem?_of_isKeyword {i : Nat} {z : Text} (h : isKeyword i z = true) :
    keywords[i]? = some (z.map clearBit5) :=
  (eq_of_beq h).symm

/-- A keyword in any mix of cases has its code. -/
theorem keywordCode_of_isKeyword {i : Nat} {z : Text} (h : isKeyword i z = true) :
    keywordCode z = aKWCode.getD i .ID := by
  have hlisted := keywords_listed (getElem?_of_isKeyword h)
  have hclear : (z.map clearBit5).map clearBit5 = z.map clearBit5 := by
    rw [List.map_congr_left fun c hc => clearBit5_capital (hlisted.capital c hc)]
    exact List.map_id _
  have hend : ∀ k ∈ [0, (z.map clearBit5).length - 1],
      charMap ((z.map clearBit5).getD k '\x00') = charMap (z.getD k '\x00') := by
    intro k hk
    have hget : (z.map clearBit5).getD k '\x00' = clearBit5 (z.getD k '\x00') :=
      List.getD_map z '\x00' clearBit5
    have hupper := hlisted.ends k hk
    rw [hget] at hupper ⊢
    exact charMap_clearBit5 hupper
  have hhash : kwHash (z.map clearBit5) = kwHash z := by
    rw [kwHash, hend _ (by simp), hend _ (by simp), List.length_map, kwHash]
  have hsame : ∀ j, isKeyword j z = isKeyword j (z.map clearBit5) := fun j => by
    rw [isKeyword, isKeyword, hclear]
  rw [← hlisted.found, keywordCode, keywordCode, hhash, List.length_map, keywordChain_congr hsame]

/-! ## Words that are not names -/

/-- Whether the grammar takes the token for a name after `EXISTS` or `FROM`, where the three
words of window functions are none of theirs. -/
def isName (t : TK) : Bool := isNm t || t ∈ [TK.WINDOW, .OVER, .FILTER]

def reservedWords : List Text :=
  ((keywords.zip aKWCode).filter fun entry => !isName entry.2).map Prod.fst

def isWordChar (c : Char) : Bool := c.isAlphanum || c == '_'

/-- A keyword, whatever the cases of its letters. -/
def IsReserved (z : Text) : Prop := ∃ w ∈ reservedWords, equalsIgnoreCase z w = true

instance (z : Text) : Decidable (IsReserved z) :=
  inferInstanceAs (Decidable (∃ w ∈ reservedWords, equalsIgnoreCase z w = true))

example : reservedWords.length = 57 := by decide +kernel

theorem mem_filter_zip {α β : Type} {xs : List α} {ys : List β} (hlength : ys.length = xs.length)
    (p : β → Bool) (d : β) (x : α) :
    x ∈ ((xs.zip ys).filter fun entry => p entry.2).map Prod.fst ↔
      ∃ i, xs[i]? = some x ∧ p (ys.getD i d) = true := by
  simp only [List.getD_eq_getElem?_getD]
  rw [List.mem_map]
  constructor
  · rintro ⟨⟨x', y⟩, hentry, rfl⟩
    obtain ⟨hmem, hy⟩ := List.mem_filter.1 hentry
    obtain ⟨i, hget⟩ := List.mem_iff_getElem?.1 hmem
    obtain ⟨hxs, hys⟩ := List.getElem?_zip_eq_some.1 hget
    refine ⟨i, hxs, ?_⟩
    rw [hys]
    exact hy
  · rintro ⟨i, hxs, hy⟩
    have hlt : i < ys.length := by
      rw [hlength]
      exact (List.getElem?_eq_some_iff.1 hxs).1
    obtain ⟨y, hys⟩ : ∃ y, ys[i]? = some y := ⟨_, List.getElem?_eq_getElem hlt⟩
    rw [hys] at hy
    have hmem : (x, y) ∈ xs.zip ys :=
      List.mem_iff_getElem?.2 ⟨i, List.getElem?_zip_eq_some.2 ⟨hxs, hys⟩⟩
    exact ⟨(x, y), List.mem_filter.2 ⟨hmem, hy⟩, rfl⟩

theorem mem_reservedWords (w : Text) :
    w ∈ reservedWords ↔ ∃ i, keywords[i]? = some w ∧ isName (aKWCode.getD i .ID) = false := by
  have hlength : aKWCode.length = keywords.length := by decide +kernel
  have hmem := mem_filter_zip hlength (fun t => !isName t) .ID w
  simp only [Bool.not_eq_true'] at hmem
  exact hmem

theorem isDigit_iff (c : Char) : c.isDigit = true ↔ 48 ≤ c.toNat ∧ c.toNat ≤ 57 := by
  rw [Char.isDigit, Bool.and_eq_true, decide_eq_true_iff, decide_eq_true_iff]
  exact Iff.rfl

theorem isWordChar_iff (c : Char) : isWordChar c = true ↔
    65 ≤ c.toNat ∧ c.toNat ≤ 90 ∨ 97 ≤ c.toNat ∧ c.toNat ≤ 122 ∨ 48 ≤ c.toNat ∧ c.toNat ≤ 57 ∨
      c.toNat = 95 := by
  have hline : c = '_' ↔ c.toNat = 95 := Char.toNat_inj.symm
  show (((c.isUpper || c.isLower) || c.isDigit) || c == '_') = true ↔ _
  rw [Bool.or_eq_true, Bool.or_eq_true, Bool.or_eq_true, isUpper_iff, isLower_iff, isDigit_iff,
    beq_iff_eq, hline, or_assoc, or_assoc]

/-- A letter and a capital are the same but for cases if they are when bit 5 is cleared. -/
theorem clearBit5_eq_iff {c d : Char} (hc : isWordChar c = true) (hd : isCapital d = true) :
    clearBit5 c = d ↔ toLower c = toLower d := by
  rw [isCapital_iff] at hd
  rw [isWordChar_iff] at hc
  rw [← Char.toNat_inj, ← Char.toNat_inj, toNat_clearBit5, toNat_toLower, toNat_toLower]
  grind

theorem map_clearBit5_eq_iff {z w : Text} (hz : ∀ c ∈ z, isWordChar c = true)
    (hw : ∀ d ∈ w, isCapital d = true) : z.map clearBit5 = w ↔ equalsIgnoreCase z w = true := by
  rw [equalsIgnoreCase, beq_iff_eq]
  induction z generalizing w with
  | nil => cases w <;> simp
  | cons c z ih =>
    cases w with
    | nil => simp
    | cons d w =>
      rw [List.forall_mem_cons] at hz hw
      rw [List.map_cons, List.map_cons, List.map_cons, List.cons.injEq, List.cons.injEq,
        clearBit5_eq_iff hz.1 hw.1, ih hz.2 hw.2]

/-- The words that the grammar takes for no names. -/
theorem keywordCode_reserved {z : Text} (hz : ∀ c ∈ z, isWordChar c = true) :
    isName (keywordCode z) = false ↔ IsReserved z := by
  constructor
  · intro hname
    rcases keywordCode_cases z with hcode | ⟨i, hkeyword, hcode⟩
    · rw [hcode] at hname
      exact absurd hname (by decide)
    · have hword := getElem?_of_isKeyword hkeyword
      rw [hcode] at hname
      exact ⟨_, (mem_reservedWords _).2 ⟨i, hword, hname⟩,
        (map_clearBit5_eq_iff hz (keywords_listed hword).capital).1 rfl⟩
  · rintro ⟨w, hw, hsame⟩
    obtain ⟨i, hword, hname⟩ := (mem_reservedWords w).1 hw
    have hmap := (map_clearBit5_eq_iff hz (keywords_listed hword).capital).2 hsame
    have hkeyword : isKeyword i z = true := by
      rw [isKeyword, hmap, hword, beq_self_eq_true]
    rw [keywordCode_of_isKeyword hkeyword]
    exact hname

/-- A word with a digit in it, or an X in front, is no keyword. -/
theorem keywordCode_eq_ID {z : Text}
    (h : (∃ c ∈ z, c.isDigit = true) ∨ z.head? = some 'x' ∨ z.head? = some 'X') :
    keywordCode z = .ID := by
  rcases keywordCode_cases z with hcode | ⟨i, hkeyword, -⟩
  · exact hcode
  have hlisted := keywords_listed (getElem?_of_isKeyword hkeyword)
  rcases h with ⟨c, hc, hdigit⟩ | hx
  · have hcapital := hlisted.capital _ (List.mem_map_of_mem hc)
    rw [isDigit_iff] at hdigit
    rw [isCapital_iff, toNat_clearBit5] at hcapital
    grind
  · refine absurd ?_ hlisted.head
    rw [List.head?_map]
    rcases hx with hx | hx <;> rw [hx] <;> rfl

/-- No keyword is white space or an error. -/
theorem keywordCode_ne (z : Text) : keywordCode z ≠ .SPACE ∧ keywordCode z ≠ .ILLEGAL := by
  have hcodes : ∀ t ∈ aKWCode, t ≠ .SPACE ∧ t ≠ .ILLEGAL := by decide +kernel
  rcases keywordCode_cases z with hcode | ⟨i, -, hcode⟩
  · rw [hcode]
    decide
  · rw [hcode, List.getD_eq_getElem?_getD]
    cases hget : aKWCode[i]? with
    | none => decide
    | some t => exact hcodes t (List.mem_of_getElem? hget)

end BallyDongle.Sqlite
