import BallyDongle.DatabaseStore.Operations
import BallyDongle.Sqlite.Tokens

/-!
# Table names in statements

What SQLite reads in the statements that a name is spliced into once `isSafeIdentifier` has
accepted it. A name is one token in its place unless it begins with a digit or is a keyword
that cannot be a name; and the names of SQLite's own tables pass in capitals
(`accepted_safe_iff`).
-/

namespace BallyDongle.DatabaseStore.TableNames

open StringCompat Sqlite SqlTokens

/-! ## The statements -/

inductive TableSql
  | drop
  | read (limit : Nat)
  | count
  | delete (whereClause : List Char)
  | csv

def TableSql.front : TableSql → List Char
  | drop => "DROP TABLE IF EXISTS ".toList
  | read _ => "SELECT * FROM ".toList
  | count => "SELECT COUNT(*) FROM ".toList
  | delete _ => "DELETE FROM ".toList
  | csv => "SELECT * FROM ".toList

def TableSql.back : TableSql → List Char
  | drop => ";".toList
  | read limit => " LIMIT ".toList ++ decimal limit ++ ";".toList
  | count => ";".toList
  | delete whereClause => " WHERE ".toList ++ whereClause ++ ";".toList
  | csv => ";".toList

def TableSql.sql (s : TableSql) (x : List Char) : List Char := s.front ++ x ++ s.back

section

variable {W : Type} (P : Platform W) (x : List Char)

theorem append_three (a b c d : List Char) : a ++ (b ++ c ++ d) = a ++ b ++ c ++ d := by
  rw [List.append_assoc, List.append_assoc, List.append_assoc]

theorem sql_read (limit : Nat) : (TableSql.read limit).sql x =
    "SELECT * FROM ".toList ++ x ++ " LIMIT ".toList ++ decimal limit ++ ";".toList :=
  append_three _ _ _ _

theorem sql_delete (whereClause : List Char) : (TableSql.delete whereClause).sql x =
    "DELETE FROM ".toList ++ x ++ " WHERE ".toList ++ whereClause ++ ";".toList :=
  append_three _ _ _ _

/-! Each operation gives SQLite its statement for the name, once the filter has accepted it. -/

theorem dropTable_sql : dropTable P x = (do
    if !(← isReady) then return false
    if !isSafeIdentifier x then return false
    executeNoResult P (TableSql.drop.sql x)) := rfl

theorem readTable_sql (limit : Nat) : readTable P x limit = (do
    if !(← isReady) then return (false, notReadyText)
    if !isSafeIdentifier x then return (false, "[database] nome de tabela invalido".toList)
    queryToText P ((TableSql.read (clampLimit 20 200 limit)).sql x) (clampLimit 20 200 limit)) := by
  rw [sql_read]
  rfl

theorem countRows_sql : countRows P x = (do
    if !(← isReady) then return none
    if !isSafeIdentifier x then return none
    querySingleInt P (TableSql.count.sql x)) := rfl

theorem deleteRows_sql (whereClause : List Char) : deleteRows P x whereClause = (do
    if !(← isReady) || !(← isOpen) then return (false, 0)
    if !isSafeIdentifier x || whereClause.isEmpty then return (false, 0)
    if !(← lockDb P kLockTimeoutMs) then return (false, 0)
    let executed ← execRows P ((TableSql.delete whereClause).sql x)
    if executed.rc ≠ .ok then
      logError P executed.errorMessage
      unlockDb
      return (false, 0)
    let deleted ← ask P.changes
    unlockDb
    return (true, Int.bmod deleted (2 ^ 32))) := by
  rw [sql_delete]
  rfl

theorem selectAllSql_sql : selectAllSql x = TableSql.csv.sql x := rfl

end

/-! ## What is read in front of a name -/

/-- A piece of a statement that is read as the same tokens whatever name follows it. -/
def Reads (before : Option TK) (text : List Char) (after : Option TK) : Prop :=
  ∃ ts, ∀ z, isSpace (charAt z 0) = false →
    parserTokens before (text ++ z) = ts ++ parserTokens after z

theorem Reads.nil (t : Option TK) : Reads t [] t := ⟨[], fun _ _ => rfl⟩

theorem Reads.blank {before after : Option TK} {text : List Char}
    (h : Reads before text after) (htext : text.head?.all (!isSpace ·) = true) :
    Reads before (' ' :: text) after := by
  obtain ⟨ts, hts⟩ := h
  refine ⟨ts, fun z hz => ?_⟩
  rw [List.cons_append, parserTokens_blank, hts z hz]
  cases text with
  | nil => exact hz
  | cons c text => exact Bool.not_eq_eq_eq_not.1 htext

theorem Reads.word {before after : Option TK} {w text : List Char} {t : TK}
    (h : Reads (some t) text after) (hw : IsWord w) (hcode : keywordCode w = t)
    (ht : ∀ z, tokenInContext before z t = t)
    (htext : ∃ c text', text = c :: text' ∧ isIdChar c = false) :
    Reads before (w ++ text) after := by
  obtain ⟨ts, hts⟩ := h
  refine ⟨(t, w) :: ts, fun z hz => ?_⟩
  have hrest : isIdChar (charAt (text ++ z) 0) = false := by
    obtain ⟨c, text', rfl, hc⟩ := htext
    exact hc
  rw [List.append_assoc, parserTokens_word before hw hrest, hcode, ht, hts z hz, List.cons_append]

theorem Reads.symbol {before after : Option TK} {c : Char} {text : List Char} {t : TK}
    (h : Reads (some t) text after) (hc : ∀ z, sqlite3GetToken (c :: z) = (1, t))
    (ht : ∀ z, tokenInContext before z t = t) (hnot : c ≠ '\x00' ∧ t ≠ .SPACE ∧ t ≠ .ILLEGAL) :
    Reads before (c :: text) after := by
  obtain ⟨ts, hts⟩ := h
  refine ⟨(t, [c]) :: ts, fun z hz => ?_⟩
  have htoken := parserTokens_token (z := c :: (text ++ z)) before hnot.1
  rw [hc] at htoken
  rw [List.cons_append, htoken hnot.2]
  dsimp only
  rw [ht, List.drop_one, List.tail_cons, hts z hz]
  rfl

/-- A word of the grammar that is read the same wherever it stands. -/
def readsAs (w : List Char) (t : TK) : Bool :=
  w.all isWordChar && w.head?.any (fun c => !c.isDigit) && keywordCode w == t &&
    t ∉ [TK.WINDOW, .OVER, .FILTER]

theorem isWord_of_readsAs {w : List Char} {t : TK} (h : readsAs w t = true) :
    IsWord w ∧ keywordCode w = t ∧ ∀ before z, tokenInContext before z t = t := by
  rw [readsAs, Bool.and_eq_true, Bool.and_eq_true, Bool.and_eq_true, List.all_eq_true, beq_iff_eq,
    decide_eq_true_iff] at h
  obtain ⟨⟨⟨hchars, hfront⟩, hcode⟩, hcontext⟩ := h
  refine ⟨⟨hchars, ?_⟩, hcode, fun before z => ?_⟩
  · cases w with
    | nil => cases hfront
    | cons c w => exact ⟨c, w, rfl, by simpa using hfront⟩
  · unfold tokenInContext
    split
    · exact absurd (by decide) hcontext
    · exact absurd (by decide) hcontext
    · exact absurd (by decide) hcontext
    · rfl

theorem Reads.keyword {before after : Option TK} {w text : List Char} {t : TK}
    (h : Reads (some t) text after) (hw : readsAs w t = true)
    (htext : text.head?.all (!isSpace ·) = true) : Reads before (w ++ ' ' :: text) after := by
  obtain ⟨hword, hcode, hcontext⟩ := isWord_of_readsAs hw
  exact (h.blank htext).word hword hcode (hcontext before) ⟨' ', text, rfl, rfl⟩

theorem reads_from {before : Option TK} : Reads before "FROM ".toList (some .FROM) :=
  (Reads.nil (some .FROM)).keyword (w := "FROM".toList) (by decide +kernel) rfl

theorem reads_select : Reads none "SELECT * FROM ".toList (some .FROM) := by
  have hstar : Reads (some .SELECT) ('*' :: ' ' :: "FROM ".toList) (some .FROM) :=
    (reads_from.blank (by decide +kernel)).symbol (t := .STAR) (fun _ => rfl) (fun _ => rfl)
      (by decide)
  exact hstar.keyword (w := "SELECT".toList) (by decide +kernel) rfl

theorem reads_drop : Reads none "DROP TABLE IF EXISTS ".toList (some .EXISTS) := by
  have hexists : Reads (some .IF) "EXISTS ".toList (some .EXISTS) :=
    (Reads.nil (some .EXISTS)).keyword (w := "EXISTS".toList) (by decide +kernel) rfl
  have hif : Reads (some .TABLE) "IF EXISTS ".toList (some .EXISTS) :=
    hexists.keyword (w := "IF".toList) (by decide +kernel) (by decide +kernel)
  have htable : Reads (some .DROP) "TABLE IF EXISTS ".toList (some .EXISTS) :=
    hif.keyword (w := "TABLE".toList) (by decide +kernel) (by decide +kernel)
  exact htable.keyword (w := "DROP".toList) (by decide +kernel) (by decide +kernel)

theorem reads_count : Reads none "SELECT COUNT(*) FROM ".toList (some .FROM) := by
  have hclose : Reads (some .STAR) (')' :: ' ' :: "FROM ".toList) (some .FROM) :=
    (reads_from.blank (by decide +kernel)).symbol (t := .RP) (fun _ => rfl) (fun _ => rfl)
      (by decide)
  have hstar : Reads (some .LP) ('*' :: ')' :: ' ' :: "FROM ".toList) (some .FROM) :=
    hclose.symbol (t := .STAR) (fun _ => rfl) (fun _ => rfl) (by decide)
  have hopen : Reads (some .ID) ('(' :: '*' :: ')' :: ' ' :: "FROM ".toList) (some .FROM) :=
    hstar.symbol (t := .LP) (fun _ => rfl) (fun _ => rfl) (by decide)
  obtain ⟨hword, hcode, hcontext⟩ : IsWord "COUNT".toList ∧ keywordCode "COUNT".toList = .ID ∧
      ∀ before z, tokenInContext before z .ID = .ID := isWord_of_readsAs (by decide +kernel)
  have hcount : Reads (some .SELECT) "COUNT(*) FROM ".toList (some .FROM) :=
    hopen.word hword hcode (hcontext _) ⟨'(', _, rfl, rfl⟩
  exact hcount.keyword (w := "SELECT".toList) (by decide +kernel) (by decide +kernel)

theorem reads_delete : Reads none "DELETE FROM ".toList (some .FROM) :=
  reads_from.keyword (w := "DELETE".toList) (t := .DELETE) (by decide +kernel) (by decide +kernel)

/-! ## A name in its place -/

/-- A place for a name: no closing parenthesis in front, and nothing behind that a word of
window functions would be read with. -/
structure Place (front back : List Char) : Prop where
  reads : ∃ before, before ≠ some .RP ∧ Reads none front before
  apart : isIdChar (charAt back 0) = false
  next : (getToken back).1 ≠ .ID

theorem isSpace_of_isWordChar {c : Char} (h : isWordChar c = true) : isSpace c = false := by
  have hrange := (isWordChar_iff c).1 h
  have hblank : ¬c = ' ' := by
    rintro rfl
    exact absurd h (by decide)
  simp only [isSpace, Bool.or_eq_false_iff, Bool.and_eq_false_iff, decide_eq_false_iff_not,
    beq_eq_false_iff_ne]
  exact ⟨by omega, hblank⟩

theorem charAt_word_space {w : List Char} (hw : IsWord w) (rest : List Char) :
    isSpace (charAt (w ++ rest) 0) = false := by
  obtain ⟨c, w', rfl, -⟩ := hw.front
  exact isSpace_of_isWordChar (hw.chars c List.mem_cons_self)

theorem getToken_keyword {w z : List Char} {t : TK} (hw : readsAs w t = true)
    (ht : isName t = false) : (getToken (' ' :: (w ++ ' ' :: z))).1 = t := by
  obtain ⟨hword, rfl, -⟩ := isWord_of_readsAs hw
  rw [getToken_blank (charAt_word_space hword _)]
  exact getToken_word hword rfl ht

theorem place (s : TableSql) : Place s.front s.back := by
  have hsemi : (getToken ";".toList).1 ≠ .ID := by decide +kernel
  have hlimit : ∀ z, (getToken (' ' :: ("LIMIT".toList ++ ' ' :: z))).1 = .LIMIT := fun z =>
    getToken_keyword (by decide +kernel) rfl
  have hwhere : ∀ z, (getToken (' ' :: ("WHERE".toList ++ ' ' :: z))).1 = .WHERE := fun z =>
    getToken_keyword (by decide +kernel) rfl
  cases s with
  | drop => exact ⟨⟨_, by decide, reads_drop⟩, rfl, hsemi⟩
  | read limit =>
    refine ⟨⟨_, by decide, reads_select⟩, rfl, fun h => ?_⟩
    have hget : (getToken (TableSql.read limit).back).1 = .LIMIT := hlimit _
    rw [hget] at h
    cases h
  | count => exact ⟨⟨_, by decide, reads_count⟩, rfl, hsemi⟩
  | delete whereClause =>
    refine ⟨⟨_, by decide, reads_delete⟩, rfl, fun h => ?_⟩
    have hget : (getToken (TableSql.delete whereClause).back).1 = .WHERE := hwhere _
    rw [hget] at h
    cases h
  | csv => exact ⟨⟨_, by decide, reads_select⟩, rfl, hsemi⟩

/-- The statement is read as what is in front, one token for the name and what is behind, and
the grammar takes the token for a name. -/
def Spliced (front x back : List Char) : Prop :=
  ∃ t, isNm t = true ∧ parserTokens none (front ++ x ++ back) =
    parserTokens none front ++ (t, x) :: parserTokens (some t) back

/-- In a place for a name the words of window functions are identifiers. -/
theorem tokenInContext_place {before : Option TK} {back : List Char} (hbefore : before ≠ some .RP)
    (hback : (getToken back).1 ≠ .ID) (t : TK) :
    isNm (tokenInContext before back t) = isName t := by
  unfold tokenInContext
  split
  · have hwindow : analyzeWindowKeyword back = .ID := by
      rw [analyzeWindowKeyword]
      split
      · rename_i hget
        exact absurd (congrArg Prod.fst hget) hback
      · rfl
    rw [hwindow]
    rfl
  · rw [analyzeOverKeyword, if_neg fun h => hbefore h.1]
    rfl
  · rw [analyzeFilterKeyword, if_neg fun h => hbefore h.1]
    rfl
  · rename_i hwindow hover hfilter
    have hnot : t ∉ [TK.WINDOW, .OVER, .FILTER] := by
      simp only [List.mem_cons, List.not_mem_nil, or_false, not_or]
      exact ⟨hwindow, hover, hfilter⟩
    rw [isName, decide_eq_false hnot, Bool.or_false]

theorem parserTokens_nil (before : Option TK) : parserTokens before [] = [] := by
  rw [parserTokens]
  rfl

theorem spliced_iff {front back x : List Char} (hplace : Place front back)
    (hx : x ≠ []) (hchars : ∀ c ∈ x, isWordChar c = true) :
    Spliced front x back ↔ (∀ c ∈ x.head?, c.isDigit = false) ∧ ¬IsReserved x := by
  obtain ⟨before, hbefore, ts, hts⟩ := hplace.reads
  have hfront : parserTokens none front = ts := by
    have hnil := hts [] rfl
    rwa [List.append_nil, parserTokens_nil, List.append_nil] at hnil
  obtain ⟨c, x', rfl⟩ := List.exists_cons_of_ne_nil hx
  have hspace : isSpace (charAt (c :: x' ++ back) 0) = false :=
    isSpace_of_isWordChar (hchars c List.mem_cons_self)
  rw [Spliced, List.append_assoc, hts _ hspace, hfront]
  simp only [List.append_cancel_left_eq]
  cases hdigit : c.isDigit with
  | true =>
    -- a number has no token of a name in its place
    obtain ⟨t, text, more, htokens, hnot⟩ := parserTokens_digit before hdigit (x' ++ back)
    refine iff_of_false ?_ fun h => ?_
    · rintro ⟨t', hname, heq⟩
      rw [List.cons_append, htokens] at heq
      cases heq
      rw [hnot] at hname
      cases hname
    · rw [h.1 c rfl] at hdigit
      cases hdigit
  | false =>
    have hword : IsWord (c :: x') := ⟨hchars, c, x', rfl, hdigit⟩
    rw [parserTokens_word before hword hplace.apart]
    have hname := tokenInContext_place hbefore hplace.next (keywordCode (c :: x'))
    have hreserved := keywordCode_reserved hchars
    constructor
    · rintro ⟨t, ht, heq⟩
      cases heq
      rw [hname] at ht
      refine ⟨fun d hd => ?_, fun h => ?_⟩
      · cases hd
        exact hdigit
      · rw [hreserved.2 h] at ht
        cases ht
    · rintro ⟨-, hnot⟩
      refine ⟨_, ?_, rfl⟩
      rw [hname, ← Bool.not_eq_false]
      exact fun h => hnot (hreserved.1 h)

/-! ## What the filter accepts -/

/-- A name that SQLite keeps to itself: it begins with `sqlite_`, in any mix of cases. -/
def NamesInternal (x : List Char) : Prop := sqlite3StrNICmp x "sqlite_".toList 7 = 0

/-- In every statement the name is one token in its place, and it is not one of SQLite's own. -/
def SafeName (x : List Char) : Prop :=
  (∀ s : TableSql, Spliced s.front x s.back) ∧ ¬NamesInternal x

/-- The filter accepts the name in small letters too, it does not begin with a digit, and it is
not a keyword that cannot be a name. -/
structure PlainName (x : List Char) : Prop where
  own : isSafeIdentifier (x.map toLower) = true
  front : ∀ c ∈ x.head?, c.isDigit = false
  word : ¬IsReserved x

theorem isSafeIdentifier_iff (x : List Char) : isSafeIdentifier x = true ↔
    x ≠ [] ∧ (∀ c ∈ x, isWordChar c = true) ∧ ¬"sqlite_".toList <+: x := by
  rw [isSafeIdentifier, Bool.and_eq_true, Bool.and_eq_true, Bool.not_eq_true', Bool.not_eq_true',
    List.isEmpty_eq_false_iff, List.all_eq_true, startsWith, ← Bool.not_eq_true, List.isPrefixOf_iff_prefix,
    and_assoc]
  exact Iff.rfl

theorem isWordChar_toLower {c : Char} (h : isWordChar c = true) : isWordChar (toLower c) = true := by
  rw [isWordChar_iff] at h ⊢
  rw [toNat_toLower]
  grind

/-- An accepted name is one of SQLite's own when the filter refuses it in small letters. -/
theorem namesInternal_iff {x : List Char} (h : isSafeIdentifier x = true) :
    ¬NamesInternal x ↔ isSafeIdentifier (x.map toLower) = true := by
  obtain ⟨hne, hchars, -⟩ := (isSafeIdentifier_iff x).1 h
  have hlower : "sqlite_".toList.map toLower = "sqlite_".toList := by decide +kernel
  have hseven : "sqlite_".toList.length = 7 := by decide +kernel
  have hbytes : "sqlite_".toList.all (· != '\x00') = true := by decide +kernel
  have hnul : ∀ d ∈ "sqlite_".toList, d ≠ '\x00' :=
    fun d hd => bne_iff_ne.1 (List.all_eq_true.1 hbytes d hd)
  have hcompare := sqlite3StrNICmp_eq_zero x hnul
  rw [hlower, hseven] at hcompare
  rw [NamesInternal, hcompare, isSafeIdentifier_iff]
  refine ⟨fun hnot => ⟨by simpa using hne, ?_, hnot⟩, fun hsafe => hsafe.2.2⟩
  intro c hc
  obtain ⟨d, hd, rfl⟩ := List.mem_map.1 hc
  exact isWordChar_toLower (hchars d hd)

theorem accepted_safe_iff {x : List Char} (h : isSafeIdentifier x = true) :
    SafeName x ↔ PlainName x := by
  obtain ⟨hne, hchars, -⟩ := (isSafeIdentifier_iff x).1 h
  have hspliced : ∀ s : TableSql, Spliced s.front x s.back ↔
      (∀ c ∈ x.head?, c.isDigit = false) ∧ ¬IsReserved x := fun s =>
    spliced_iff (place s) hne hchars
  rw [SafeName, namesInternal_iff h]
  constructor
  · rintro ⟨hread, own⟩
    obtain ⟨front, word⟩ := (hspliced .drop).1 (hread .drop)
    exact { own, front, word }
  · intro hplain
    exact ⟨fun s => (hspliced s).2 ⟨hplain.front, hplain.word⟩, hplain.own⟩

/-- The log of commands is safe to name. -/
theorem accepted_safe_iff_command_log :
    isSafeIdentifier "command_log".toList = true ∧ SafeName "command_log".toList := by
  have haccepted : isSafeIdentifier "command_log".toList = true := by decide +kernel
  have hchars := ((isSafeIdentifier_iff _).1 haccepted).2.1
  have hname : isName (keywordCode "command_log".toList) = true := by decide +kernel
  have hfront : ∀ c ∈ "command_log".toList.head?, c.isDigit = false := fun _ hc => by
    cases hc
    rfl
  have hword : ¬IsReserved "command_log".toList := fun h => by
    rw [(keywordCode_reserved hchars).2 h] at hname
    cases hname
  exact ⟨haccepted, (accepted_safe_iff haccepted).2
    { own := by decide +kernel, front := hfront, word := hword }⟩

/-- The filter accepts a name of SQLite's own table in capitals. -/
theorem own_table_accepted :
    ¬∀ x : List Char, isSafeIdentifier x = true → SafeName x := by
  have hinternal : sqlite3StrNICmp "SQLITE_sequence".toList "sqlite_".toList 7 = 0 := by
    decide +kernel
  exact fun h => (h "SQLITE_sequence".toList (by decide +kernel)).2 hinternal

end BallyDongle.DatabaseStore.TableNames
