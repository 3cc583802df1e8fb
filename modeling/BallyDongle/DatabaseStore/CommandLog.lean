import BallyDongle.DatabaseStore.Operations
import BallyDongle.Lib.StateShift
import Mathlib.Algebra.Order.BigOperators.Group.List
import Mathlib.Algebra.Order.Group.Nat

/-!
# The command log

`logCommandWithOutput` makes two inserts, one into `command_log` and one into
`command_log_output`, each committed by itself. When both are carried out or the first is not,
the call does what it reports; a command row whose output row failed stays behind.
-/

namespace BallyDongle.DatabaseStore

open StateShift

variable {W : Type} {P : Platform W}

structure CommandRow where
  id : Int
  command : Text
  source : Text
  createdAt : Int
  deriving DecidableEq

/-- A row of `command_log_output`, without its own id. -/
structure OutputRow where
  logId : Int
  output : Text
  createdAt : Int
  deriving DecidableEq

structure LogTables where
  commandLog : List CommandRow := []
  commandLogOutput : List OutputRow := []
  deriving DecidableEq

def LogTables.addCommand (t : LogTables) (row : CommandRow) : LogTables :=
  { t with commandLog := t.commandLog ++ [row] }

def LogTables.addOutput (t : LogTables) (row : OutputRow) : LogTables :=
  { t with commandLogOutput := t.commandLogOutput ++ [row] }

/-- Stepping an insert ended with `SQLITE_DONE`. -/
def Stepped.inserted (stepped : Stepped) : Bool := stepped.rows.isEmpty && stepped.done

/-- What SQLite does to the two tables outside a transaction, nothing else writing to them: an
insert that is done adds its row, under a rowid that no row has, and anything else adds
nothing. -/
structure InsertLaws (P : Platform W) (tables : W → LogTables) : Prop where
  takeMutex : ∀ timeoutMs w, tables (P.takeMutex timeoutMs w).2 = tables w
  time : ∀ w, tables (P.time w).2 = tables w
  millis : ∀ w, tables (P.millis w).2 = tables w
  print : ∀ text w, tables (P.print text w).2 = tables w
  prepare : ∀ sql w, tables (P.prepare sql w).2 = tables w
  command : ∀ command source now w,
    let result := P.run ⟨insertCommandSql, [.text command, .text source, .int64 now]⟩ w
    let id := P.lastInsertRowid result.2
    if result.1.inserted then
      (∀ row ∈ (tables w).commandLog, row.id ≠ id) ∧
        tables result.2 = (tables w).addCommand ⟨id, command, source, now⟩
    else tables result.2 = tables w
  output : ∀ logId output now w,
    let result := P.run ⟨insertOutputSql, [.int64 logId, .text output, .int64 now]⟩ w
    tables result.2 =
      if result.1.inserted then (tables w).addOutput ⟨logId, output, now⟩ else tables w

/-! ## The two inserts -/

/-- The call gets as far as the inserts. -/
def LogsCommand (P : Platform W) (s : Store W) (command : Option Text) : Prop :=
  s.ready = true ∧ command.getD [] ≠ [] ∧ (lockDb P kLockTimeoutMs s).1 = true ∧ s.db = true

/-- The time of the rows, and the state in which the first insert is made. -/
def logTime (P : Platform W) (s : Store W) : Int × Store W :=
  currentEpochSeconds P (lockDb P kLockTimeoutMs s).2

def sourceOrSerial (source : Option Text) : Text :=
  if (source.getD []).isEmpty then "serial".toList else source.getD []

/-- Whether SQLite carries out the insert into `command_log`, and the state after it. -/
def commandInsert (P : Platform W) (s : Store W) (command source : Option Text) :
    Bool × Store W :=
  insertRow P insertCommandSql
    [.text (command.getD []), .text (sourceOrSerial source), .int64 (logTime P s).1] (logTime P s).2

/-- Whether it carries out the insert into `command_log_output` that follows. -/
def outputInsert (P : Platform W) (s : Store W) (command output source : Option Text) :
    Bool × Store W :=
  let first := (commandInsert P s command source).2
  insertRow P insertOutputSql
    [.int64 (P.lastInsertRowid first.world), .text (output.getD []), .int64 (logTime P s).1] first

section inserts

variable {tables : W → LogTables} {s : Store W}

theorem insertRow_eq (hopen : s.db = true) (sql : Text) (bound : List Value) :
    insertRow P sql bound s =
      if (P.prepare sql s.world).1.isNone then
        (false, { s with world := (P.prepare sql s.world).2 })
      else
        let result := P.run ⟨sql, bound⟩ (P.prepare sql s.world).2
        (result.1.inserted, { s with world := result.2 }) := by
  rcases s with ⟨db, hasIo, ready, mutex, world⟩
  subst hopen
  show (if (P.prepare sql world).1.isNone then _ else _ : DbM W Bool) _ = _
  split
  · rfl
  · rfl

theorem insertRow_db (hopen : s.db = true) (sql : Text) (bound : List Value) :
    (insertRow P sql bound s).2.db = true := by
  rw [insertRow_eq hopen]
  split
  · exact hopen
  · exact hopen

theorem tables_lockDb (laws : InsertLaws P tables) (timeoutMs : Nat) (s : Store W) :
    tables (lockDb P timeoutMs s).2.world = tables s.world := by
  obtain ⟨mutex, w, hframe, hw⟩ := lockDb_frame P timeoutMs s
  rw [hframe]
  rcases hw with rfl | rfl
  · rfl
  · exact laws.takeMutex _ _

theorem logTime_db (s : Store W) : (logTime P s).2.db = s.db := by
  obtain ⟨mutex, w, hframe, -⟩ := lockDb_frame P kLockTimeoutMs s
  rw [logTime, hframe, currentEpochSeconds, run_bind, run_ite]
  split
  · rfl
  · rfl

theorem tables_logTime (laws : InsertLaws P tables) (s : Store W) :
    tables (logTime P s).2.world = tables s.world := by
  rw [logTime, ← tables_lockDb laws kLockTimeoutMs s, currentEpochSeconds, run_bind, run_ite]
  split
  · exact laws.time _
  · exact (laws.millis _).trans (laws.time _)

theorem commandInsert_spec (laws : InsertLaws P tables) (hopen : s.db = true)
    (command source : Option Text) :
    let id := P.lastInsertRowid (commandInsert P s command source).2.world
    if (commandInsert P s command source).1 then
      (∀ row ∈ (tables s.world).commandLog, row.id ≠ id) ∧
        tables (commandInsert P s command source).2.world = (tables s.world).addCommand
          ⟨id, command.getD [], sourceOrSerial source, (logTime P s).1⟩
    else tables (commandInsert P s command source).2.world = tables s.world := by
  have hrun := laws.command (command.getD []) (sourceOrSerial source) (logTime P s).1
    (P.prepare insertCommandSql (logTime P s).2.world).2
  rw [laws.prepare, tables_logTime laws] at hrun
  rw [commandInsert, insertRow_eq ((logTime_db s).trans hopen)]
  split
  · exact (laws.prepare _ _).trans (tables_logTime laws s)
  · exact hrun

theorem outputInsert_spec (laws : InsertLaws P tables) (hopen : s.db = true)
    (command output source : Option Text) :
    let first := (commandInsert P s command source).2.world
    tables (outputInsert P s command output source).2.world =
      if (outputInsert P s command output source).1 then
        (tables first).addOutput ⟨P.lastInsertRowid first, output.getD [], (logTime P s).1⟩
      else tables first := by
  intro first
  have hrun := laws.output (P.lastInsertRowid first) (output.getD []) (logTime P s).1
    (P.prepare insertOutputSql first).2
  rw [laws.prepare] at hrun
  have hdb : (commandInsert P s command source).2.db = true :=
    insertRow_db ((logTime_db s).trans hopen) _ _
  rw [outputInsert, insertRow_eq hdb]
  split
  · exact laws.prepare _ _
  · exact hrun

theorem finishLog_spec (laws : InsertLaws P tables) (ok : Bool) (s : Store W) :
    (finishLog P ok s).1 = ok ∧ tables (finishLog P ok s).2.world = tables s.world := by
  cases ok with
  | true => exact ⟨rfl, rfl⟩
  | false =>
    refine ⟨rfl, ?_⟩
    show tables (logLine P _ s).2.world = _
    rw [logLine, run_bind, run_ite]
    split
    · exact laws.print _ _
    · rfl

theorem logCommandWithOutput_eq {command : Option Text} (h : LogsCommand P s command)
    (output source : Option Text) :
    logCommandWithOutput P command output source s =
      if (commandInsert P s command source).1 then
        finishLog P (outputInsert P s command output source).1
          (outputInsert P s command output source).2
      else finishLog P false (commandInsert P s command source).2 := by
  obtain ⟨hready, hcommand, hlock, hopen⟩ := h
  have hgo : ¬(!s.ready || (command.getD []).isEmpty) = true := by
    simp [hready, hcommand]
  have hdb : (lockDb P kLockTimeoutMs s).2.db = true := by
    obtain ⟨mutex, w, hframe, -⟩ := lockDb_frame P kLockTimeoutMs s
    rw [hframe]
    exact hopen
  show (if (!s.ready || (command.getD []).isEmpty) then pure false else _ : DbM W Bool) s = _
  rw [if_neg hgo]
  show (if !(lockDb P kLockTimeoutMs s).1 then pure false else _ : DbM W Bool)
    (lockDb P kLockTimeoutMs s).2 = _
  rw [hlock, if_neg (by decide)]
  show (if !(lockDb P kLockTimeoutMs s).2.db then _ else _ : DbM W Bool)
    (lockDb P kLockTimeoutMs s).2 = _
  rw [hdb, if_neg (by decide)]
  show (if (commandInsert P s command source).1 then _ else _ : DbM W Bool)
    (commandInsert P s command source).2 = _
  split
  · rfl
  · rfl

theorem logCommandWithOutput_idle (laws : InsertLaws P tables) {command : Option Text}
    (h : ¬LogsCommand P s command) (output source : Option Text) :
    ∃ s', logCommandWithOutput P command output source s = (false, s') ∧
      tables s'.world = tables s.world := by
  by_cases hgo : (!s.ready || (command.getD []).isEmpty) = true
  · refine ⟨s, ?_, rfl⟩
    show (if (!s.ready || (command.getD []).isEmpty) then pure false else _ : DbM W Bool) s = _
    rw [if_pos hgo]
    rfl
  obtain ⟨hready, hcommand⟩ : s.ready = true ∧ command.getD [] ≠ [] := by simpa using hgo
  have hlocked := tables_lockDb laws kLockTimeoutMs s
  obtain ⟨mutex, w, hframe, -⟩ := lockDb_frame P kLockTimeoutMs s
  show ∃ s', (if (!s.ready || (command.getD []).isEmpty) then pure false else _ : DbM W Bool) s =
    (false, s') ∧ _
  rw [if_neg hgo]
  show ∃ s', (if !(lockDb P kLockTimeoutMs s).1 then pure false else _ : DbM W Bool)
    (lockDb P kLockTimeoutMs s).2 = (false, s') ∧ _
  cases hlock : (lockDb P kLockTimeoutMs s).1 with
  | false => exact ⟨_, rfl, hlocked⟩
  | true =>
    have hclosed : (lockDb P kLockTimeoutMs s).2.db = false := by
      rw [hframe]
      exact Bool.eq_false_of_not_eq_true fun hopen => h ⟨hready, hcommand, hlock, hopen⟩
    refine ⟨{ (lockDb P kLockTimeoutMs s).2 with
      mutex := (lockDb P kLockTimeoutMs s).2.mutex.map (· - 1) }, ?_, hlocked⟩
    show (if !(lockDb P kLockTimeoutMs s).2.db then _ else _ : DbM W Bool)
      (lockDb P kLockTimeoutMs s).2 = _
    rw [hclosed, if_pos (by decide)]
    rfl

/-- The call does what it reports just when SQLite does not carry out the first insert without
the second. -/
theorem log_traceless_iff (laws : InsertLaws P tables) (s : Store W)
    (command output source : Option Text) :
    let result := logCommandWithOutput P command output source s
    ((result.1 = false → tables result.2.world = tables s.world) ∧
        (result.1 = true → ∃ id createdAt, (∀ row ∈ (tables s.world).commandLog, row.id ≠ id) ∧
          tables result.2.world =
            ((tables s.world).addCommand
              ⟨id, command.getD [], sourceOrSerial source, createdAt⟩).addOutput
                ⟨id, output.getD [], createdAt⟩)) ↔
      (LogsCommand P s command → (commandInsert P s command source).1 = true →
        (outputInsert P s command output source).1 = true) := by
  intro result
  by_cases hlogs : LogsCommand P s command
  case neg =>
    obtain ⟨s', hresult, hsame⟩ := logCommandWithOutput_idle laws hlogs output source
    rw [show result = (false, s') from hresult]
    exact iff_of_true ⟨fun _ => hsame, nofun⟩ fun h => absurd h hlogs
  case pos =>
    have hfirst := commandInsert_spec laws hlogs.2.2.2 command source
    have hsecond := outputInsert_spec laws hlogs.2.2.2 command output source
    rw [show result = _ from logCommandWithOutput_eq hlogs output source]
    cases hdone : (commandInsert P s command source).1 with
    | false =>
      rw [hdone, if_neg Bool.false_ne_true] at hfirst
      rw [if_neg Bool.false_ne_true]
      obtain ⟨hresult, hsame⟩ := finishLog_spec laws false (commandInsert P s command source).2
      rw [hresult, hsame, hfirst]
      exact iff_of_true ⟨fun _ => rfl, nofun⟩ fun _ => nofun
    | true =>
      rw [hdone, if_pos rfl] at hfirst
      rw [if_pos rfl]
      obtain ⟨hresult, hsame⟩ := finishLog_spec laws (outputInsert P s command output source).1
        (outputInsert P s command output source).2
      rw [hresult, hsame, hsecond, hfirst.2]
      cases (outputInsert P s command output source).1 with
      | true => exact iff_of_true ⟨nofun, fun _ => ⟨_, _, hfirst.1, rfl⟩⟩ fun _ _ => rfl
      | false =>
        -- the command row stays behind
        refine iff_of_false (fun h => ?_) fun h => Bool.false_ne_true (h hlogs rfl)
        have hrows := congrArg (fun t => t.commandLog.length) (h.1 rfl)
        simp [LogTables.addCommand] at hrows

end inserts

/-! ## A card with the two tables -/

/-- `outcomes` says which of the next steps are done. -/
structure LogCard where
  tables : LogTables := {}
  lastRowid : Int := 0
  outcomes : List Bool

def LogCard.freshId (w : LogCard) : Int := (w.tables.commandLog.map (·.id.natAbs)).sum + 1

def LogCard.insert (w : LogCard) (statement : Statement) : LogCard :=
  if statement.sql = insertCommandSql then
    match statement.bound with
    | [.text command, .text source, .int64 now] =>
      { w with
        tables := w.tables.addCommand ⟨w.freshId, command, source, now⟩
        lastRowid := w.freshId }
    | _ => w
  else
    match statement.bound with
    | [.int64 logId, .text output, .int64 now] =>
      { w with
        tables := w.tables.addOutput ⟨logId, output, now⟩
        lastRowid := w.tables.commandLogOutput.length + 1 }
    | _ => w

def logCard : Platform LogCard :=
  { noCard LogCard with
    time := fun w => (1700000000, w)
    prepare := fun _ w => (some [], w)
    run := fun statement w =>
      match w.outcomes with
      | [] => ({ done := false }, w)
      | false :: outcomes => ({ done := false }, { w with outcomes })
      | true :: outcomes => ({ done := true }, { w.insert statement with outcomes })
    lastInsertRowid := LogCard.lastRowid }

theorem LogCard.freshId_ne {w : LogCard} {row : CommandRow} (h : row ∈ w.tables.commandLog) :
    row.id ≠ w.freshId := by
  have hle : row.id.natAbs ≤ (w.tables.commandLog.map (·.id.natAbs)).sum :=
    List.single_le_sum (fun _ _ => Nat.zero_le _) _ (List.mem_map_of_mem h)
  rw [LogCard.freshId]
  omega

theorem logCard_laws : InsertLaws logCard LogCard.tables where
  takeMutex _ _ := rfl
  time _ := rfl
  millis _ := rfl
  print _ _ := rfl
  prepare _ _ := rfl
  command command source now w := by
    rcases w with ⟨tables, lastRowid, _ | ⟨_ | _, outcomes⟩⟩
    · rfl
    · rfl
    · exact ⟨fun row hrow => LogCard.freshId_ne hrow, rfl⟩
  output logId output now w := by
    have hother : insertOutputSql ≠ insertCommandSql := by decide
    rcases w with ⟨tables, lastRowid, _ | ⟨_ | _, outcomes⟩⟩
    · rfl
    · rfl
    · show LogCard.tables { LogCard.insert _ _ with outcomes } = LogTables.addOutput _ _
      rw [LogCard.insert, if_neg hother]

def helpStore (outcomes : List Bool) : Store LogCard where
  db := true
  ready := true
  world := { outcomes }

theorem log_traceless_iff_help :
    let result := logCommandWithOutput logCard (some "help".toList) none none (helpStore [true, true])
    ((result.1 = false → result.2.world.tables = (helpStore [true, true]).world.tables) ∧
        (result.1 = true → ∃ id createdAt,
          (∀ row ∈ (helpStore [true, true]).world.tables.commandLog, row.id ≠ id) ∧
            result.2.world.tables =
              ((helpStore [true, true]).world.tables.addCommand
                ⟨id, "help".toList, sourceOrSerial none, createdAt⟩).addOutput
                  ⟨id, [], createdAt⟩)) ↔
      (LogsCommand logCard (helpStore [true, true]) (some "help".toList) →
        (commandInsert logCard (helpStore [true, true]) (some "help".toList) none).1 = true →
          (outputInsert logCard (helpStore [true, true]) (some "help".toList) none none).1 = true) :=
  log_traceless_iff logCard_laws _ _ _ _

/-- The second insert fails, and the row of the first one stays. -/
theorem orphan_row :
    let result := logCommandWithOutput logCard (some "help".toList) (some "ok".toList) none
      (helpStore [true, false])
    result.1 = false ∧ result.2.world.tables.commandLog.length = 1 ∧
      result.2.world.tables.commandLogOutput = [] ∧
      (helpStore [true, false]).world.tables.commandLog = [] := by decide

end BallyDongle.DatabaseStore
