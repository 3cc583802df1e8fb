import BallyDongle.Btp
import BallyDongle.BtpTransport.PeerTable
import BallyDongle.Lib.Hex
import BallyDongle.StringCompat

/-!
# The database on the card

`DatabaseStore.cpp`: its state, its lock, its texts, and the helpers that every operation is
built from. SQLite, the files of the card, the clock and the device manager are calls into a
world that answers as it likes; a finished statement is all the rows that stepping it
yielded and whether it ended with `SQLITE_DONE`.
-/

namespace BallyDongle.DatabaseStore

open BtpTransport StringCompat

abbrev Text := List Char

/-! ## The world -/

/-- The return codes that the code tells apart: `SQLITE_OK`, `SQLITE_ABORT`, the others. -/
inductive Rc
  | ok | abort | error
  deriving DecidableEq, Repr

/-- What `sqlite3_column_text` and `sqlite3_column_int64` say of a value; NULL has no text. -/
structure Cell where
  text : Option Text
  int : Int
  deriving DecidableEq, Repr

/-- A row as a callback gets it: name and text of each column. -/
abbrev ExecRow := List (Option Text × Option Text)

/-- What `sqlite3_exec` comes to when no callback stops it. -/
structure Executed where
  rows : List ExecRow := []
  rc : Rc
  errorMessage : Option Text := none

inductive Value
  | text (value : Text)
  | int64 (value : Int)
  deriving DecidableEq, Repr

structure Statement where
  sql : Text
  bound : List Value := []
  deriving DecidableEq, Repr

structure Stepped where
  rows : List (List Cell) := []
  done : Bool

structure Device where
  mac : Mac
  name : Text
  description : Text

structure Platform (W : Type) where
  /-- the other tasks let this one take the mutex in time -/
  takeMutex : (timeoutMs : Nat) → W → Bool × W
  time : W → Int × W
  millis : W → Nat × W
  /-- `localtime_r` and `strftime`; `none` when the first fails -/
  strftime : (format : Text) → (epoch : Int) → Option Text
  print : Text → W → Unit × W
  /-- `sqlite3_initialize` -/
  initSqlite : W → Bool × W
  /-- the code is `SQLITE_OK`, and the handle is not null -/
  openDb : (path : Text) → W → (Bool × Bool) × W
  closeDb : W → Unit × W
  exec : (sql : Text) → W → Executed × W
  /-- the column names of a statement; `none` for an error or no statement -/
  prepare : (sql : Text) → W → Option (List Text) × W
  run : Statement → W → Stepped × W
  errmsg : W → Text
  changes : W → Int
  lastInsertRowid : W → Int
  openBackup : (path : Text) → W → (Bool × Bool) × W
  initBackup : W → Bool × W
  /-- the step is done, the finish and the copy's error code are `SQLITE_OK` -/
  copyBackup : W → (Bool × Bool × Bool) × W
  closeBackup : W → Unit × W
  isDirectory : (path : Text) → W → Bool × W
  isPresent : (path : Text) → W → Bool × W
  mkdir : (path : Text) → W → Bool × W
  remove : (path : Text) → W → Bool × W
  fileSize : (path : Text) → W → Option Nat × W
  /-- `fopen` for writing -/
  createFile : (path : Text) → W → Bool × W
  /-- the octets of a file just created; how many were written -/
  writeFile : (path content : Text) → W → Nat × W
  readFile : (path : Text) → W → Option Text × W
  devices : W → List (Option Device)
  deviceKnown : Mac → W → Bool
  addDevice : Device → W → Bool × W

/-- The same world, with something beside it that the platform leaves alone. -/
def Platform.beside {W : Type} (P : Platform W) (A : Type) : Platform (W × A) :=
  let lift {α : Type} (f : W → α × W) (w : W × A) : α × (W × A) := ((f w.1).1, (f w.1).2, w.2)
  { takeMutex := fun timeoutMs => lift (P.takeMutex timeoutMs)
    time := lift P.time
    millis := lift P.millis
    strftime := P.strftime
    print := fun text => lift (P.print text)
    initSqlite := lift P.initSqlite
    openDb := fun path => lift (P.openDb path)
    closeDb := lift P.closeDb
    exec := fun sql => lift (P.exec sql)
    prepare := fun sql => lift (P.prepare sql)
    run := fun statement => lift (P.run statement)
    errmsg := fun w => P.errmsg w.1
    changes := fun w => P.changes w.1
    lastInsertRowid := fun w => P.lastInsertRowid w.1
    openBackup := fun path => lift (P.openBackup path)
    initBackup := lift P.initBackup
    copyBackup := lift P.copyBackup
    closeBackup := lift P.closeBackup
    isDirectory := fun path => lift (P.isDirectory path)
    isPresent := fun path => lift (P.isPresent path)
    mkdir := fun path => lift (P.mkdir path)
    remove := fun path => lift (P.remove path)
    fileSize := fun path => lift (P.fileSize path)
    createFile := fun path => lift (P.createFile path)
    writeFile := fun path content => lift (P.writeFile path content)
    readFile := fun path => lift (P.readFile path)
    devices := fun w => P.devices w.1
    deviceKnown := fun mac w => P.deviceKnown mac w.1
    addDevice := fun device => lift (P.addDevice device) }

/-- A world in which the mutex is free and nothing else works. -/
def noCard (W : Type) : Platform W where
  takeMutex _ w := (true, w)
  time w := (0, w)
  millis w := (0, w)
  strftime _ _ := none
  print _ w := ((), w)
  initSqlite w := (false, w)
  openDb _ w := ((false, false), w)
  closeDb w := ((), w)
  exec _ w := ({ rc := .error }, w)
  prepare _ w := (none, w)
  run _ w := ({ done := false }, w)
  errmsg _ := []
  changes _ := 0
  lastInsertRowid _ := 0
  openBackup _ w := ((false, false), w)
  initBackup w := (false, w)
  copyBackup w := ((false, false, false), w)
  closeBackup w := ((), w)
  isDirectory _ w := (false, w)
  isPresent _ w := (false, w)
  mkdir _ w := (false, w)
  remove _ w := (false, w)
  fileSize _ w := (none, w)
  createFile _ w := (false, w)
  writeFile _ _ w := (0, w)
  readFile _ w := (none, w)
  devices _ := []
  deviceKnown _ _ := false
  addDevice _ w := (false, w)

/-! ## State -/

structure Store (W : Type) where
  db : Bool := false
  hasIo : Bool := false
  ready : Bool := false
  /-- how often this task holds the mutex; `none` where there is no mutex -/
  mutex : Option Nat := some 0
  world : W

/-- A member function of the store. -/
abbrev DbM (W α : Type) := StateM (Store W) α

variable {W : Type} (P : Platform W)

def call {α : Type} (f : W → α × W) : DbM W α := fun s =>
  ((f s.world).1, { s with world := (f s.world).2 })

def ask {α : Type} (f : W → α) : DbM W α := do return f (← get).world

def isReady : DbM W Bool := do return (← get).ready

def isOpen : DbM W Bool := do return (← get).db

def lockDb (timeoutMs : Nat) : DbM W Bool := do
  match (← get).mutex with
  | none => return true
  | some 0 =>
    if ← call (P.takeMutex timeoutMs) then
      modify fun s => { s with mutex := some 1 }
      return true
    else return false
  | some (depth + 1) =>
    -- a holder of a recursive mutex need not wait
    modify fun s => { s with mutex := some (depth + 2) }
    return true

/-- The timeout `lockDb` has by default. -/
def kLockTimeoutMs : Nat := 1000

def unlockDb : DbM W Unit := modify fun s => { s with mutex := s.mutex.map (· - 1) }

def logLine (text : Text) : DbM W Unit := do
  if (← get).hasIo then call (P.print (text ++ ['\n']))

/-! ## Texts -/

def kDatabaseDir : Text := "/sdcard/database".toList
def kBackupDir : Text := "/sdcard/database/backups".toList
def kBootstrapPath : Text := "/sdcard/database/bootstrap.sql".toList
def kDatabasePath : Text := "/sdcard/database/dongle.db".toList
def kExportDir : Text := "/sdcard/database/exports".toList

/-- `std::to_string`. -/
def decimal (n : Int) : Text := (toString n).toList

/-- What is in front of the terminator of a buffer of `size` octets. -/
def snprintf (size : Nat) (text : Text) : Text := text.take (size - 1)

/-- `isalnum` in the C locale. -/
def isAlnum (c : Char) : Bool := c.isAlphanum

def isSafeIdentifier (value : Text) : Bool :=
  !value.isEmpty && value.all (fun c => isAlnum c || c == '_') &&
    !startsWith value "sqlite_".toList

def escapeSqlText (value : Text) : Text :=
  value.flatMap fun c => if c = '\'' then [c, '\''] else [c]

def macToText (mac : Mac) : Text :=
  List.intercalate [':'] (mac.toList.map fun octet => Hex.digits 2 octet.toNat)

def payloadPreviewText (payload : Option Btp.Bytes) (payloadSize : Nat) : Text :=
  let length := if payloadSize < 256 then payloadSize else 256
  let shown := (List.range length).map fun i =>
    let octet := (payload.map fun data => data.getD i 0).getD 0
    if 0x20 ≤ octet && octet < 0x7F then Char.ofNat octet.toNat else '.'
  if 256 < payloadSize then shown ++ "...".toList else shown

def sanitizeField (c : Char) : Char :=
  if c = '\r' ∨ c = '\n' ∨ c = '\t' then ' ' else if c = '|' then '/' else c

def sanitizeAndTruncateField (input : Text) (maxLen : Nat) : Text :=
  let out := input.map sanitizeField
  let out := if 0 < maxLen ∧ maxLen < input.length then out.take maxLen ++ "...".toList else out
  let out := trim out
  if out.isEmpty then "(vazio)".toList else out

def epochToDateTimeText (epoch : Int) : Text :=
  if epoch ≤ 0 then "(sem-data)".toList
  else (P.strftime "%Y-%m-%d %H:%M:%S".toList epoch).getD "(sem-data)".toList

def notReadyText : Text := "[database] nao inicializado".toList
def lockedText : Text := "[database] lock indisponivel".toList
def emptyQueryText : Text :=
  "[database] consulta sem linhas (ou comando executado com sucesso)".toList
def sqlErrorText (message : Text) : Text := "[database] SQL error: ".toList ++ message

/-! ## Statements -/

def currentEpochSeconds : DbM W Int := do
  let now ← call P.time
  if 0 < now then return now
  else return (← call P.millis) / 1000

/-- Hand rows to a callback until it stops them. -/
def feed {σ : Type} (callback : ExecRow → σ → σ × Bool) : σ → List ExecRow → σ × Bool
  | context, [] => (context, false)
  | context, row :: rows =>
    match callback row context with
    | (context, true) => (context, true)
    | (context, false) => feed callback context rows

/-- `sqlite3_exec`; on a null handle it fails without a message. -/
def execRows (sql : Text) : DbM W Executed := do
  if !(← isOpen) then return { rc := .error }
  call (P.exec sql)

def sqlite3Exec {σ : Type} (sql : Text) (callback : ExecRow → σ → σ × Bool) (context : σ) :
    DbM W (σ × Rc × Option Text) := do
  let executed ← execRows P sql
  let (context, stopped) := feed callback context executed.rows
  return (context, if stopped then .abort else executed.rc, executed.errorMessage)

/-- `sqlite3_prepare_v2`. -/
def sqlite3Prepare (sql : Text) : DbM W (Option (List Text)) := do
  if !(← isOpen) then return none
  call (P.prepare sql)

def logError : Option Text → DbM W Unit
  | none => return
  | some message => logLine P (sqlErrorText message)

def executeNoResult (sql : Text) : DbM W Bool := do
  if !(← lockDb P kLockTimeoutMs) then return false
  if !(← isOpen) then
    unlockDb
    return false
  let (_, rc, errorMessage) ← sqlite3Exec P sql (fun _ context => (context, false)) ()
  if rc ≠ .ok then
    logError P errorMessage
    unlockDb
    return false
  unlockDb
  return true

/-- The board's `long` and `int32_t` have 32 bits. -/
def queryIntCallback (row : ExecRow) (context : Option Int) : Option Int × Bool :=
  match row with
  | (_, some text) :: _ => (some (Numeral.strtol (2 ^ 31 - 1) text).1, false)
  | _ => (context, false)

def querySingleInt (sql : Text) : DbM W (Option Int) := do
  if !(← lockDb P kLockTimeoutMs) then return none
  if !(← isOpen) then
    unlockDb
    return none
  let (context, rc, _) ← sqlite3Exec P sql queryIntCallback none
  if rc ≠ .ok then
    unlockDb
    return none
  match context with
  | none =>
    unlockDb
    return none
  | some value =>
    unlockDb
    return some value

structure QueryTextContext where
  out : Text := []
  rowCount : Nat := 0
  maxRows : Nat
  truncated : Bool := false

def queryTextCallback (row : ExecRow) (context : QueryTextContext) : QueryTextContext × Bool :=
  if context.maxRows ≤ context.rowCount then ({ context with truncated := true }, true)
  else
    let columns := row.map fun (name, value) =>
      name.getD "col".toList ++ ['='] ++ value.getD "NULL".toList
    let line := ['['] ++ decimal (context.rowCount + 1) ++ "] ".toList ++
      List.intercalate " | ".toList columns ++ ['\n']
    ({ context with out := context.out ++ line, rowCount := context.rowCount + 1 }, false)

/-- The result of an operation that reports in `outText`. -/
abbrev Report := Bool × Text

def queryToText (sql : Text) (maxRows : Nat) : DbM W Report := do
  if !(← lockDb P kLockTimeoutMs) then return (false, lockedText)
  if !(← isOpen) then
    unlockDb
    return (false, notReadyText)
  let (context, rc, errorMessage) ← sqlite3Exec P sql queryTextCallback { maxRows }
  if rc ≠ .ok ∧ rc ≠ .abort then
    unlockDb
    return (false, (errorMessage.map sqlErrorText).getD "[database] SQL error".toList)
  unlockDb
  if context.rowCount = 0 ∧ !context.truncated then return (true, emptyQueryText)
  else if context.truncated then return (true, context.out ++ "... resultado truncado ...\n".toList)
  else return (true, context.out)

/-! ## The handle -/

def openDatabase : DbM W Bool := do
  if !(← lockDb P kLockTimeoutMs) then return false
  if ← isOpen then
    unlockDb
    return true
  if !(← call P.initSqlite) then
    logLine P "[database] sqlite3_initialize() falhou".toList
    unlockDb
    return false
  let (rcOk, handle) ← call (P.openDb kDatabasePath)
  if !rcOk || !handle then
    if handle then
      logLine P ("[database] sqlite open error: ".toList ++ (← ask P.errmsg))
      call P.closeDb
    else
      logLine P "[database] sqlite open error: handle nulo".toList
    unlockDb
    return false
  modify fun s => { s with db := true }
  unlockDb
  return true

def closeDatabase : DbM W Unit := do
  if !(← lockDb P kLockTimeoutMs) then return
  if ← isOpen then
    call P.closeDb
    modify fun s => { s with db := false }
  modify fun s => { s with ready := false }
  unlockDb

/-! ## What the lock changes -/

theorem lockDb_free {s : Store W} (timeoutMs : Nat) (hs : s.mutex = some 0) :
    lockDb P timeoutMs s =
      if (P.takeMutex timeoutMs s.world).1 then
        (true, { s with mutex := some 1, world := (P.takeMutex timeoutMs s.world).2 })
      else (false, { s with world := (P.takeMutex timeoutMs s.world).2 }) := by
  rcases s with ⟨db, hasIo, ready, mutex, world⟩
  subst hs
  show (if (P.takeMutex timeoutMs world).1 then _ else _ : DbM W Bool) _ = _
  split
  · rfl
  · rfl

/-- Taking the lock changes the depth, and the world only by waiting. -/
theorem lockDb_frame (timeoutMs : Nat) (s : Store W) :
    ∃ mutex w, (lockDb P timeoutMs s).2 = { s with mutex, world := w } ∧
      (w = s.world ∨ w = (P.takeMutex timeoutMs s.world).2) := by
  rcases s with ⟨db, hasIo, ready, _ | _ | depth, world⟩
  · exact ⟨none, world, rfl, .inl rfl⟩
  · rw [lockDb_free P timeoutMs rfl]
    split
    · exact ⟨some 1, _, rfl, .inr rfl⟩
    · exact ⟨some 0, _, rfl, .inr rfl⟩
  · exact ⟨some (depth + 2), world, rfl, .inl rfl⟩

end BallyDongle.DatabaseStore
