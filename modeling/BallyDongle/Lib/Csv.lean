import BallyDongle.Lib.Quoted
import Mathlib.Data.List.TakeWhile

/-!
# CSV files

A reader of RFC 4180, with records that may end in LF as well as in CRLF: a field is in
quotes, or has neither comma, quote, CR nor LF in it. A `Style` is a way of writing fields
that reads back for some of them and for no others; a file in a style reads back as its
records just when all its fields do.
-/

namespace Csv

open Quoted

/-- What ends a field. -/
inductive Break
  | comma | line | eof
  deriving DecidableEq, Repr

def plain (c : Char) : Bool := c != ',' && c != '"' && c != '\n' && c != '\r'

def takeBreak : List Char → Option (Break × List Char)
  | [] => some (.eof, [])
  | ',' :: rest => some (.comma, rest)
  | '\n' :: rest => some (.line, rest)
  | '\r' :: '\n' :: rest => some (.line, rest)
  | _ => none

def takeField : List Char → Option (List Char × Break × List Char)
  | '"' :: cs => do
    let (field, rest) ← takeQuoted '"' cs
    let (b, rest) ← takeBreak rest
    return (field, b, rest)
  | cs => do
    let (b, rest) ← takeBreak (cs.dropWhile plain)
    return (cs.takeWhile plain, b, rest)

theorem takeBreak_length {cs rest : List Char} {b : Break} (h : takeBreak cs = some (b, rest))
    (hb : b ≠ .eof) : rest.length < cs.length := by
  unfold takeBreak at h
  split at h
  all_goals cases h
  · exact absurd rfl hb
  all_goals
    simp only [List.length_cons]
    omega

theorem takeField_length {cs field rest : List Char} {b : Break}
    (h : takeField cs = some (field, b, rest)) (hb : b ≠ .eof) : rest.length < cs.length := by
  unfold takeField at h
  split at h
  · obtain ⟨⟨field', rest'⟩, hquoted, h⟩ := Option.bind_eq_some_iff.mp h
    obtain ⟨⟨b', rest''⟩, hbreak, h⟩ := Option.bind_eq_some_iff.mp h
    cases h
    have hlt := takeBreak_length hbreak hb
    have hlength := congrArg List.length (takeQuoted_eq_some.mp hquoted).1
    simp only [List.length_append, List.length_cons] at hlength ⊢
    omega
  · obtain ⟨⟨b', rest'⟩, hbreak, h⟩ := Option.bind_eq_some_iff.mp h
    cases h
    exact Nat.lt_of_lt_of_le (takeBreak_length hbreak hb) (List.dropWhile_suffix _).length_le

/-- A field in front of records goes into the first one. -/
def consField (field : List Char) : List (List (List Char)) → List (List (List Char))
  | [] => [[field]]
  | record :: records => (field :: record) :: records

def readRecords (text : List Char) : Option (List (List (List Char))) :=
  match _ : takeField text with
  | none => none
  | some (field, .eof, _) => some [[field]]
  | some (field, .comma, rest) => (readRecords rest).map (consField field)
  | some (field, .line, rest) =>
    if rest = [] then some [[field]] else (readRecords rest).map ([field] :: ·)
termination_by text.length
decreasing_by
  · exact takeField_length ‹takeField text = some (_, .comma, _)› nofun
  · exact takeField_length ‹takeField text = some (_, .line, _)› nofun

def read (text : List Char) : Option (List (List (List Char))) :=
  if text = [] then some [] else readRecords text

example : read "a,\"b,\"\"\r\n\"\r\n,c\n".toList =
    some [["a".toList, "b,\"\r\n".toList], [[], "c".toList]] := by decide +kernel

theorem read_eq_readRecords {text : List Char} (h : text ≠ []) : read text = readRecords text :=
  if_neg h

/-! ## One field -/

/-- The characters that end a field which is not the last one of the file. -/
inductive Ends : Char → Break → Prop
  | comma : Ends ',' .comma
  | line : Ends '\n' .line

variable {c : Char} {b b' : Break} {text rest rest' : List Char}

theorem Ends.not_plain (h : Ends c b) : plain c = false := by
  cases h
  · rfl
  · rfl

theorem Ends.ne_quote (h : Ends c b) : c ≠ '"' := by
  cases h
  · nofun
  · nofun

theorem Ends.takeBreak (h : Ends c b) (rest : List Char) :
    takeBreak (c :: rest) = some (b, rest) := by
  cases h
  · rfl
  · rfl

theorem takeField_of_ne_quote {cs : List Char} (h : cs.head? ≠ some '"') :
    takeField cs =
      (takeBreak (cs.dropWhile plain)).map fun (b, rest) => (cs.takeWhile plain, b, rest) := by
  unfold takeField
  split
  · exact absurd rfl h
  · cases takeBreak (cs.dropWhile plain) <;> rfl

theorem takeField_quoted (h : Ends c b) (text rest : List Char) :
    takeField ('"' :: double '"' text ++ '"' :: c :: rest) = some (text, b, rest) := by
  have hquote : (c :: rest).head? ≠ some '"' := by simpa using h.ne_quote
  rw [List.cons_append, takeField, takeQuoted_double hquote]
  simp [h.takeBreak]

theorem takeField_plain (h : Ends c b) (htext : ∀ d ∈ text, plain d) (rest : List Char) :
    takeField (text ++ c :: rest) = some (text, b, rest) := by
  have hhead : (text ++ c :: rest).head? ≠ some '"' := by
    cases text with
    | nil => simpa using h.ne_quote
    | cons d text =>
      rw [List.cons_append, List.head?_cons, ne_eq, Option.some.injEq]
      rintro rfl
      exact absurd (htext _ (.head _)) nofun
  rw [takeField_of_ne_quote hhead, List.dropWhile_append_of_pos htext,
    List.takeWhile_append_of_pos htext, List.dropWhile_cons_of_neg (by simp [h.not_plain]),
    List.takeWhile_cons_of_neg (by simp [h.not_plain]), h.takeBreak, List.append_nil]
  rfl

/-- What reads as itself, or as more than itself, is plain. -/
theorem plain_of_takeField {more : List Char} (h : Ends c b)
    (hread : takeField (text ++ c :: rest) = some (text ++ more, b', rest')) :
    ∀ d ∈ text, plain d := by
  by_cases hhead : (text ++ c :: rest).head? = some '"'
  · exfalso
    cases text with
    | nil => exact h.ne_quote (by simpa using hhead)
    | cons d text =>
      obtain rfl : d = '"' := by simpa using hhead
      rw [List.cons_append, takeField] at hread
      obtain ⟨⟨field, r⟩, hquoted, hread⟩ := Option.bind_eq_some_iff.mp hread
      obtain ⟨⟨b'', r'⟩, -, hread⟩ := Option.bind_eq_some_iff.mp hread
      cases hread
      refine append_ne_double h.ne_quote 1 rest (double '"' more ++ '"' :: r)
        ((takeQuoted_eq_some.mp hquoted).1.trans ?_)
      rw [List.cons_append, double_cons_self, double_append]
      simp [List.replicate_succ]
  · rw [takeField_of_ne_quote hhead] at hread
    obtain ⟨⟨b'', r⟩, -, hread⟩ := Option.map_eq_some_iff.mp hread
    have hfield : (text ++ c :: rest).takeWhile plain = text ++ more := congrArg Prod.fst hread
    intro d hd
    refine List.mem_takeWhile_imp (l := text ++ c :: rest) ?_
    rw [hfield]
    exact List.mem_append_left more hd

/-! ## Styles -/

/-- A way of writing values as fields: those in `ok` read back as what they mean. -/
structure Style {δ : Type} (raw means : δ → List Char) (ok : δ → Prop) : Prop where
  reads : ∀ {d c b}, ok d → Ends c b → ∀ rest,
    takeField (raw d ++ c :: rest) = some (means d, b, rest)
  only : ∀ {d c b b' rest rest'}, Ends c b →
    takeField (raw d ++ c :: rest) = some (means d, b', rest') → ok d

/-- Texts as they are. -/
theorem Style.verbatim : Style id id fun text => ∀ c ∈ text, plain c where
  reads htext h rest := takeField_plain h htext rest
  only {text c b b' rest rest'} h hread :=
    @plain_of_takeField _ _ _ _ _ _ [] h (by rwa [List.append_nil])

def writeRecord (fields : List (List Char)) : List Char := List.intercalate [','] fields ++ ['\n']

theorem writeRecord_singleton (field : List Char) : writeRecord [field] = field ++ ['\n'] := by
  simp [writeRecord, List.intercalate]

theorem writeRecord_cons_cons (field field' : List Char) (fields : List (List Char)) :
    writeRecord (field :: field' :: fields) = field ++ ',' :: writeRecord (field' :: fields) := by
  simp [writeRecord, List.intercalate]

/-! ## Records -/

theorem exists_takeField_of_readRecords {field : List Char} {fields : List (List Char)}
    {more : List (List (List Char))} (h : readRecords text = some ((field :: fields) :: more)) :
    ∃ b rest, takeField text = some (field, b, rest) := by
  rw [readRecords] at h
  split at h
  · cases h
  · rename_i hread
    cases h
    exact ⟨_, _, hread⟩
  · rename_i hread
    obtain ⟨records, -, h⟩ := Option.map_eq_some_iff.mp h
    cases records
    all_goals
      cases h
      exact ⟨_, _, hread⟩
  · rename_i hread
    split at h
    · cases h
      exact ⟨_, _, hread⟩
    · obtain ⟨records, -, h⟩ := Option.map_eq_some_iff.mp h
      cases h
      exact ⟨_, _, hread⟩

theorem readRecords_of_comma {field : List Char}
    (h : takeField text = some (field, .comma, rest)) :
    readRecords text = (readRecords rest).map (consField field) := by
  rw [readRecords]
  split <;> simp_all

theorem readRecords_of_line {field : List Char} (h : takeField text = some (field, .line, rest)) :
    readRecords text = (read rest).map ([field] :: ·) := by
  rw [readRecords, read]
  split <;> simp_all
  split <;> simp_all

theorem consField_eq_cons {field field' : List Char} {fields : List (List Char)}
    {records more : List (List (List Char))} :
    consField field records = (field :: field' :: fields) :: more ↔
      records = (field' :: fields) :: more := by
  cases records with
  | nil => simp [consField]
  | cons record records => simp [consField]

section

variable {δ : Type} {raw means : δ → List Char} {ok : δ → Prop}

theorem Style.readRecords_writeRecord (hs : Style raw means ok) (d : δ) (ds : List δ)
    (rest : List Char) (more : List (List (List Char))) :
    readRecords (writeRecord ((d :: ds).map raw) ++ rest) =
        some ((d :: ds).map means :: more) ↔
      (∀ e ∈ d :: ds, ok e) ∧ read rest = some more := by
  induction ds generalizing d with
  | nil =>
    rw [List.map_singleton, writeRecord_singleton, List.append_assoc, List.singleton_append,
      List.forall_mem_singleton]
    constructor
    · intro h
      obtain ⟨b, rest', hread⟩ := exists_takeField_of_readRecords h
      have hd : ok d := hs.only .line hread
      rw [readRecords_of_line (hs.reads hd .line rest)] at h
      exact ⟨hd, by simpa using h⟩
    · rintro ⟨hd, hrest⟩
      rw [readRecords_of_line (hs.reads hd .line rest), hrest]
      rfl
  | cons e es ih =>
    rw [List.map_cons, List.map_cons, writeRecord_cons_cons, ← List.map_cons, List.append_assoc,
      List.cons_append, List.forall_mem_cons]
    constructor
    · intro h
      obtain ⟨b, rest', hread⟩ := exists_takeField_of_readRecords h
      have hd : ok d := hs.only .comma hread
      rw [readRecords_of_comma (hs.reads hd .comma _)] at h
      obtain ⟨records, hrecords, h⟩ := Option.map_eq_some_iff.mp h
      rw [List.map_cons, List.map_cons, consField_eq_cons] at h
      subst h
      obtain ⟨hes, hrest⟩ := (ih e).mp hrecords
      exact ⟨⟨hd, hes⟩, hrest⟩
    · rintro ⟨⟨hd, hes⟩, hrest⟩
      rw [readRecords_of_comma (hs.reads hd .comma _), (ih e).mpr ⟨hes, hrest⟩, Option.map_some]
      rfl

/-- A record in a style reads back just when its fields do. -/
theorem Style.read_writeRecord (hs : Style raw means ok) {ds : List δ} (hds : ds ≠ [])
    (rest : List Char) (more : List (List (List Char))) :
    read (writeRecord (ds.map raw) ++ rest) = some (ds.map means :: more) ↔
      (∀ d ∈ ds, ok d) ∧ read rest = some more := by
  have hne : writeRecord (ds.map raw) ++ rest ≠ [] := by simp [writeRecord]
  rw [read_eq_readRecords hne]
  cases ds with
  | nil => exact absurd rfl hds
  | cons d ds => exact hs.readRecords_writeRecord d ds rest more

theorem Style.read_records (hs : Style raw means ok) {rows : List (List δ)}
    (hrows : ∀ row ∈ rows, row ≠ []) :
    read (rows.flatMap fun row => writeRecord (row.map raw)) = some (rows.map (·.map means)) ↔
      ∀ row ∈ rows, ∀ d ∈ row, ok d := by
  induction rows with
  | nil => simp [read]
  | cons row rows ih =>
    rw [List.forall_mem_cons] at hrows ⊢
    rw [List.flatMap_cons, List.map_cons, hs.read_writeRecord hrows.1, ih hrows.2]

end

end Csv
