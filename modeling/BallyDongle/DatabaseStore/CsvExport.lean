import BallyDongle.DatabaseStore.Operations
import BallyDongle.Lib.Csv
import BallyDongle.Lib.StateShift

/-!
# Exported tables

What the file of `exportTableToCsv` reads back as. The column names are written as they are;
a cell is quoted for a comma, a quote or an LF in it, but not for a CR.
-/

namespace BallyDongle.DatabaseStore

open StringCompat StateShift Csv Quoted

variable {W : Type} {P : Platform W}

/-- What `SELECT *` of a table yields. -/
structure Table where
  columnNames : List Text
  rows : List (List Cell)
  hasColumns : columnNames ≠ []
  width : ∀ cells ∈ rows, cells.length = columnNames.length

/-- NULL reads as an empty field. -/
def cellText (cell : Cell) : Text := cell.text.getD []

def Table.records (t : Table) : List (List Text) := t.columnNames :: t.rows.map (·.map cellText)

/-- What the source asks before it writes a cell in quotes. -/
def CsvSpecial (text : Text) : Prop := ',' ∈ text ∨ '"' ∈ text ∨ '\n' ∈ text

def CellReadsBack (cell : Cell) : Prop :=
  '\x00' ∉ cellText cell ∧ ('\r' ∈ cellText cell → CsvSpecial (cellText cell))

def Table.ReadsBack (t : Table) : Prop :=
  (∀ name ∈ t.columnNames, ∀ c ∈ name, plain c) ∧
    ∀ cells ∈ t.rows, ∀ cell ∈ cells, CellReadsBack cell

/-! ## Cells -/

theorem indexOf_isSome {text : Text} {c : Char} : (indexOf text c).isSome ↔ c ∈ text := by
  simp [indexOf]

theorem replaceAll_quote (text : Text) : replaceAll text ['"'] ['"', '"'] = double '"' text :=
  replaceAll_singleton text '"' ['"', '"']

instance (text : Text) : Decidable (CsvSpecial text) :=
  inferInstanceAs (Decidable (_ ∨ _ ∨ _))

/-- The source looks at the text with its quotes doubled. -/
theorem indexOf_double_iff (text : Text) :
    ((indexOf (double '"' text) ',').isSome || (indexOf (double '"' text) '"').isSome ||
      (indexOf (double '"' text) '\n').isSome) = true ↔ CsvSpecial text := by
  rw [Bool.or_eq_true, Bool.or_eq_true, indexOf_isSome, indexOf_isSome, indexOf_isSome, mem_double,
    mem_double, mem_double, or_assoc, CsvSpecial]

theorem csvCell_eq (cell : Cell) :
    csvCell cell =
      if CsvSpecial (cStr (cellText cell)) then '"' :: double '"' (cStr (cellText cell)) ++ ['"']
      else cStr (cellText cell) := by
  rcases cell with ⟨_ | text, int⟩
  · rfl
  · simp only [csvCell, replaceAll_quote, indexOf_double_iff]
    show _ = if CsvSpecial (cStr text) then _ else _
    split
    · rfl
    · rename_i hbare
      exact double_of_notMem fun hquote => hbare (.inr (.inl hquote))

theorem plain_of_not_special {text : Text} (h : ¬CsvSpecial text) (hcr : '\r' ∉ text) :
    ∀ c ∈ text, plain c := by
  intro c hc
  have hne : ∀ d, d ∉ text → c ≠ d := fun d hd heq => hd (heq ▸ hc)
  simp only [CsvSpecial, not_or] at h
  simp [plain, hne _ h.1, hne _ h.2.1, hne _ h.2.2, hne _ hcr]

/-- Cells as the source writes them. -/
theorem cellStyle : Style csvCell cellText CellReadsBack where
  reads {cell c b} hcell h rest := by
    rw [csvCell_eq, cStr_of_notMem hcell.1]
    by_cases hspecial : CsvSpecial (cellText cell)
    · rw [if_pos hspecial, List.append_assoc]
      exact takeField_quoted h _ rest
    · rw [if_neg hspecial]
      exact takeField_plain h (plain_of_not_special hspecial fun hcr => hspecial (hcell.2 hcr)) rest
  only {cell c b b' rest rest'} h hread := by
    rw [csvCell_eq] at hread
    by_cases hspecial : CsvSpecial (cStr (cellText cell))
    · rw [if_pos hspecial, List.append_assoc] at hread
      have htext : cStr (cellText cell) = cellText cell := by
        have hquoted := (takeField_quoted h (cStr (cellText cell)) rest).symm.trans hread
        exact congrArg Prod.fst (Option.some.inj hquoted)
      rw [htext] at hspecial
      exact ⟨htext ▸ notMem_cStr _, fun _ => hspecial⟩
    · rw [if_neg hspecial] at hread
      obtain ⟨more, hmore⟩ : cStr (cellText cell) <+: cellText cell := List.takeWhile_prefix _
      have hplain := plain_of_takeField h (hread.trans (by rw [hmore]))
      -- a bare cell that reads back is all there
      have htext : cStr (cellText cell) = cellText cell := by
        have hfield := (takeField_plain h hplain rest).symm.trans hread
        exact congrArg Prod.fst (Option.some.inj hfield)
      refine ⟨htext ▸ notMem_cStr _, fun hcr => ?_⟩
      exact absurd (hplain _ (htext ▸ hcr)) (by decide)

/-! ## Files -/

theorem csvText_eq (t : Table) :
    csvText t.columnNames t.rows =
      writeRecord (t.columnNames.map id) ++ t.rows.flatMap fun cells => writeRecord (cells.map csvCell) := by
  rw [List.map_id]
  rfl

theorem Table.rows_ne_nil (t : Table) : ∀ cells ∈ t.rows, cells ≠ [] := by
  intro cells hcells hnil
  have hwidth := t.width cells hcells
  rw [hnil] at hwidth
  exact t.hasColumns (List.length_eq_zero_iff.mp hwidth.symm)

theorem read_csvText (t : Table) :
    Csv.read (csvText t.columnNames t.rows) = some t.records ↔ t.ReadsBack := by
  rw [csvText_eq, Table.ReadsBack, ← cellStyle.read_records t.rows_ne_nil, Table.records]
  have hheader := Style.verbatim.read_writeRecord t.hasColumns
    (t.rows.flatMap fun cells => writeRecord (cells.map csvCell)) (t.rows.map (·.map cellText))
  rwa [List.map_id] at hheader ⊢

/-! ## The export -/

/-- A database whose table SQLite reads to the end, and a card that has room for the file. -/
structure ExportLaws (P : Platform W) (tableName : Text) (t : Table) (holds : W → Prop)
    (file : W → Text → Option Text) : Prop where
  takeMutex : ∀ timeoutMs w, holds w → holds (P.takeMutex timeoutMs w).2
  prepare : ∀ w, holds w → holds (P.prepare (selectAllSql tableName) w).2 ∧
    ∀ names ∈ (P.prepare (selectAllSql tableName) w).1, names = t.columnNames
  isDirectory : ∀ path w, holds w → holds (P.isDirectory path w).2
  mkdir : ∀ path w, holds w → holds (P.mkdir path w).2
  createFile : ∀ path w, holds w → holds (P.createFile path w).2
  run : ∀ w, holds w → (P.run { sql := selectAllSql tableName } w).1.done = true →
    (P.run { sql := selectAllSql tableName } w).1.rows = t.rows
  writeFile : ∀ path content w, file (P.writeFile path content w).2 path = some content

section

variable {tableName : Text} {t : Table} {holds : W → Prop} {file : W → Text → Option Text}

theorem ensures_call {α : Type} {f : W → α × W} (hf : ∀ w, holds w → holds (f w).2) :
    Ensures (holds ·.world) (call f) fun _ s => holds s.world := fun s hs =>
  hf s.world hs

theorem ensures_lockDb (laws : ExportLaws P tableName t holds file) (timeoutMs : Nat) :
    Ensures (holds ·.world) (lockDb P timeoutMs) fun _ s => holds s.world := by
  intro s hs
  obtain ⟨mutex, w, hframe, hw⟩ := lockDb_frame P timeoutMs s
  rw [hframe]
  rcases hw with rfl | rfl
  · exact hs
  · exact laws.takeMutex _ _ hs

theorem ensures_prepare (laws : ExportLaws P tableName t holds file) :
    Ensures (holds ·.world) (sqlite3Prepare P (selectAllSql tableName)) fun names s =>
      holds s.world ∧ ∀ columnNames ∈ names, columnNames = t.columnNames :=
  .bind (fun _ hs => hs) fun _ => .ite (fun _ _ hs => ⟨hs, nofun⟩) fun _ s hs =>
    laws.prepare s.world hs

/-- The file of a table that was exported. -/
def Exported (file : W → Text → Option Text) (tableName : Text) (t : Table) (report : Report)
    (s : Store W) : Prop :=
  report.1 = true → file s.world (csvPath tableName) = some (csvText t.columnNames t.rows)

theorem ensures_writeCsv (laws : ExportLaws P tableName t holds file) :
    Ensures (holds ·.world) (writeCsv P tableName t.columnNames) (Exported file tableName t) := by
  refine .bind (ensures_call (laws.createFile (csvPath tableName))) fun created => .ite ?_ ?_
  · exact fun _ => .of_post fun _ => nofun
  · intro _ s hs
    show Exported file tableName t ((if !(P.run _ _).1.done then _ else _ : DbM W Report) _).1
      ((if !(P.run _ _).1.done then _ else _ : DbM W Report) _).2
    split
    · nofun
    · rename_i hdone
      intro _
      refine (laws.writeFile _ _ _).trans ?_
      rw [laws.run s.world hs (by simpa using hdone)]

theorem ensures_exportTableToCsv (laws : ExportLaws P tableName t holds file) :
    Ensures (holds ·.world) (exportTableToCsv P tableName) (Exported file tableName t) := by
  have hfailed : ∀ {pre : Store W → Prop} {m : DbM W Report}, (∀ s, (m s).1.1 = false) →
      Ensures pre m (Exported file tableName t) := fun h =>
    .of_post fun s hdone => absurd (h s) (by simp [hdone])
  have hwrite := ensures_writeCsv laws
  refine .bind (.reads fun _ => rfl) fun ready => .bind (.reads fun _ => rfl) fun opened =>
    .ite (fun _ => hfailed fun _ => rfl) fun _ => ?_
  refine .ite (fun _ => hfailed fun _ => rfl) fun _ => .bind (ensures_lockDb laws 2000) fun locked =>
    .ite (fun _ => hfailed fun _ => rfl) fun _ => .bind (ensures_prepare laws) fun names => ?_
  cases names with
  | none => exact hfailed fun _ => rfl
  | some columnNames =>
    intro s ⟨hs, hnames⟩
    obtain rfl := hnames columnNames rfl
    refine Ensures.bind (ensures_call (laws.isDirectory kExportDir)) (fun isDirectory => ?_) s hs
    refine .ite (fun _ => ?_) fun _ => hwrite
    refine .bind (ensures_call (laws.mkdir kExportDir)) fun made => ?_
    exact .ite (fun _ => hfailed fun _ => rfl) fun _ => hwrite

/-- The file reads back as the table just when no column name has a comma, quote, CR or LF in
it, no cell has a NUL, and every cell with a CR has a comma, quote or LF as well. -/
theorem export_reads_back_iff (laws : ExportLaws P tableName t holds file) {s : Store W}
    (hs : holds s.world) (hdone : (exportTableToCsv P tableName s).1.1 = true) :
    (file (exportTableToCsv P tableName s).2.world (csvPath tableName)).bind Csv.read =
        some t.records ↔
      t.ReadsBack := by
  rw [ensures_exportTableToCsv laws s hs hdone, Option.bind_some]
  exact read_csvText t

end

/-! ## A card with one table -/

/-- The world is the files that were written, the last one first. -/
def exportCard (t : Table) : Platform (List (Text × Text)) :=
  { noCard _ with
    prepare := fun _ files => (some t.columnNames, files)
    isDirectory := fun _ files => (true, files)
    createFile := fun _ files => (true, files)
    run := fun _ files => ({ rows := t.rows, done := true }, files)
    writeFile := fun path content files => (content.length, (path, content) :: files) }

def exportStore : Store (List (Text × Text)) where
  db := true
  ready := true
  world := []

theorem exportCard_laws (t : Table) (tableName : Text) :
    ExportLaws (exportCard t) tableName t (fun _ => True) fun files path => files.lookup path where
  takeMutex _ _ _ := trivial
  prepare _ _ := ⟨trivial, fun _ hnames => (Option.some.inj hnames).symm⟩
  isDirectory _ _ _ := trivial
  mkdir _ _ _ := trivial
  createFile _ _ _ := trivial
  run _ _ _ := rfl
  writeFile _ _ _ := List.lookup_cons_self

def peersTable : Table where
  columnNames := ["mac".toList, "name".toList]
  rows := [[⟨some "FF:FF".toList, 0⟩, ⟨some "a,\"b\"\r\n".toList, 0⟩], [⟨none, 0⟩, ⟨none, 0⟩]]
  hasColumns := nofun
  width := by decide

theorem export_reads_back_iff_peers :
    ((exportTableToCsv (exportCard peersTable) "peers".toList exportStore).2.world.lookup
        (csvPath "peers".toList)).bind Csv.read = some peersTable.records ↔
      peersTable.ReadsBack :=
  export_reads_back_iff (exportCard_laws peersTable "peers".toList) trivial (by decide +kernel)

def singleTable (name cell : Text) : Table where
  columnNames := [name]
  rows := [[⟨some cell, 0⟩]]
  hasColumns := nofun
  width := fun _ h => by rw [List.mem_singleton.mp h]; rfl

/-- A comma in a column name, and a CR at the end of a cell. -/
theorem csv_not_read_back :
    let exported (t : Table) := exportTableToCsv (exportCard t) "notes".toList exportStore
    let readBack (t : Table) :=
      ((exported t).2.world.lookup (csvPath "notes".toList)).bind Csv.read
    let named := singleTable "a,b".toList "1".toList
    let returned := singleTable "name".toList "x\r".toList
    ((exported named).1.1 = true ∧ readBack named ≠ some named.records) ∧
      (exported returned).1.1 = true ∧ readBack returned ≠ some returned.records := by
  decide +kernel

end BallyDongle.DatabaseStore
