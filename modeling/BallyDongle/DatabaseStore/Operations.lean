import BallyDongle.DatabaseStore

/-!
# The operations of the database

The public member functions of `DatabaseStore`, each one under its own name and, for a task
that calls one after the other, as an `Op`.
-/

namespace BallyDongle.DatabaseStore

open BtpTransport StringCompat

variable {W : Type} (P : Platform W)

/-! ## Opening -/

def kDefaultBootstrapSql : Text :=
  "
CREATE TABLE IF NOT EXISTS peers (
    id INTEGER PRIMARY KEY AUTOINCREMENT,
    mac TEXT NOT NULL UNIQUE,
    name TEXT NOT NULL,
    description TEXT DEFAULT '',
    created_at INTEGER NOT NULL DEFAULT (strftime('%s','now')),
    updated_at INTEGER NOT NULL DEFAULT (strftime('%s','now'))
);

CREATE TABLE IF NOT EXISTS command_log (
    id INTEGER PRIMARY KEY AUTOINCREMENT,
    command TEXT NOT NULL,
    source TEXT NOT NULL DEFAULT 'serial',
    created_at INTEGER NOT NULL DEFAULT (strftime('%s','now'))
);

CREATE TABLE IF NOT EXISTS command_log_output (
    id INTEGER PRIMARY KEY AUTOINCREMENT,
    log_id INTEGER NOT NULL,
    output TEXT NOT NULL,
    created_at INTEGER NOT NULL DEFAULT (strftime('%s','now')),
    FOREIGN KEY(log_id) REFERENCES command_log(id) ON DELETE CASCADE
);

CREATE TABLE IF NOT EXISTS espnow_outgoing_log (
    id INTEGER PRIMARY KEY AUTOINCREMENT,
    peer_id INTEGER,
    mac TEXT NOT NULL,
    payload TEXT NOT NULL,
    payload_type INTEGER NOT NULL DEFAULT 0,
    delivered INTEGER NOT NULL DEFAULT 0,
    sent_at INTEGER NOT NULL DEFAULT (strftime('%s','now')),
    FOREIGN KEY(peer_id) REFERENCES peers(id) ON DELETE SET NULL
);

CREATE TABLE IF NOT EXISTS boot_events (
    id INTEGER PRIMARY KEY AUTOINCREMENT,
    reason TEXT NOT NULL,
    boot_at INTEGER NOT NULL DEFAULT (strftime('%s','now'))
);

CREATE TABLE IF NOT EXISTS kv_store (
    key TEXT PRIMARY KEY,
    value TEXT NOT NULL,
    updated_at INTEGER NOT NULL DEFAULT (strftime('%s','now'))
);
".toList

def kMigrationsSql : Text :=
  "CREATE TABLE IF NOT EXISTS command_log_output (".toList ++
    "id INTEGER PRIMARY KEY AUTOINCREMENT,".toList ++
    "log_id INTEGER NOT NULL,".toList ++
    "output TEXT NOT NULL,".toList ++
    "created_at INTEGER NOT NULL DEFAULT (strftime('%s','now')),".toList ++
    "FOREIGN KEY(log_id) REFERENCES command_log(id) ON DELETE CASCADE".toList ++
    ");".toList ++
    "CREATE TABLE IF NOT EXISTS espnow_outgoing_log (".toList ++
    "id INTEGER PRIMARY KEY AUTOINCREMENT,".toList ++
    "peer_id INTEGER,".toList ++
    "mac TEXT NOT NULL,".toList ++
    "payload TEXT NOT NULL,".toList ++
    "payload_type INTEGER NOT NULL DEFAULT 0,".toList ++
    "delivered INTEGER NOT NULL DEFAULT 0,".toList ++
    "sent_at INTEGER NOT NULL DEFAULT (strftime('%s','now')),".toList ++
    "FOREIGN KEY(peer_id) REFERENCES peers(id) ON DELETE SET NULL".toList ++
    ");".toList ++
    "CREATE TABLE IF NOT EXISTS boot_events (".toList ++
    "id INTEGER PRIMARY KEY AUTOINCREMENT,".toList ++
    "reason TEXT NOT NULL,".toList ++
    "boot_at INTEGER NOT NULL DEFAULT (strftime('%s','now'))".toList ++
    ");".toList ++
    "CREATE INDEX IF NOT EXISTS idx_peers_mac ON peers(mac);".toList ++
    "CREATE INDEX IF NOT EXISTS idx_outgoing_peer ON espnow_outgoing_log(peer_id);".toList ++
    "CREATE INDEX IF NOT EXISTS idx_log_output_log_id ON command_log_output(log_id);".toList

def ensureBootstrapAssets : DbM W Bool := do
  if !(← call (P.isDirectory kDatabaseDir)) then
    if !(← call (P.mkdir kDatabaseDir)) then return false
  if !(← call (P.isPresent kBootstrapPath)) then
    if !(← call (P.createFile kBootstrapPath)) then return false
    if (← call (P.writeFile kBootstrapPath kDefaultBootstrapSql)) = 0 then return false
    logLine P "[database] bootstrap.sql criado em /database/bootstrap.sql".toList
  return true

def applyBootstrapScript : DbM W Bool := do
  match ← call (P.readFile kBootstrapPath) with
  | none => return false
  | some script => if script.isEmpty then return false else executeNoResult P script

def applyRuntimeMigrations : DbM W Bool := executeNoResult P kMigrationsSql

def ensureDefaultBroadcastPeer : DbM W Bool := do
  if !(← isReady) then return false
  let now ← currentEpochSeconds P
  let insertSql :=
    "INSERT OR IGNORE INTO peers(mac,name,description,created_at,updated_at) VALUES('".toList ++
      "FF:FF:FF:FF:FF:FF".toList ++ "','Default','peer virtual padrao para broadcast',".toList ++
      decimal now ++ ",".toList ++ decimal now ++ ");".toList
  if !(← executeNoResult P insertSql) then return false
  executeNoResult P
    ("UPDATE peers SET name='Default', description='peer virtual padrao para broadcast', ".toList ++
      "updated_at=".toList ++ decimal now ++ " WHERE mac='FF:FF:FF:FF:FF:FF';".toList)

def begin (io : Bool) : DbM W Bool := do
  modify fun s => { s with hasIo := io, ready := false }
  closeDatabase P
  if !(← ensureBootstrapAssets P) then
    logLine P "[database] falha ao preparar bootstrap no SD".toList
    return false
  if !(← openDatabase P) then
    logLine P "[database] falha ao abrir arquivo sqlite".toList
    return false
  if !(← applyBootstrapScript P) then
    closeDatabase P
    logLine P "[database] falha ao aplicar bootstrap SQL".toList
    return false
  if !(← applyRuntimeMigrations P) then
    closeDatabase P
    logLine P "[database] falha ao aplicar migracoes da base".toList
    return false
  modify fun s => { s with ready := true }
  if !(← ensureDefaultBroadcastPeer P) then
    logLine P "[database] aviso: nao foi possivel garantir peer default 000".toList
  return true

def end_ : DbM W Unit := closeDatabase P

/-! ## Peers -/

/-- One `%02x` of `sscanf`. -/
def scanOctet (text : Text) : Option (UInt8 × Text) :=
  let text := text.dropWhile Numeral.isSpace
  let (negative, numeral) := Numeral.takeSign (text.take 2)
  let (ds, rest) := Numeral.takeDigits 16 numeral
  if ds = [] then none
  else
    let octet := UInt8.ofNat (Numeral.value 16 ds)
    some (if negative then -octet else octet, rest ++ text.drop 2)

/-- The rest of a `%02x:%02x` and so on, after the first field. -/
def scanOctets : (fields : Nat) → Text → Option (List UInt8)
  | 0, _ => some []
  | fields + 1, ':' :: text => do
    let (octet, text) ← scanOctet text
    return octet :: (← scanOctets fields text)
  | _ + 1, _ => none

def scanMac (text : Text) : Option Mac := do
  let (octet, text) ← scanOctet text
  let octets ← scanOctets 5 text
  return Vector.ofFn fun i => (octet :: octets).getD i 0

structure PeerLoadContext where
  loaded : Nat := 0
  alreadyPresent : Nat := 0
  skippedBroadcast : Nat := 0
  failed : Nat := 0
  processed : Nat := 0

def loadPeer (row : ExecRow) (context : PeerLoadContext) : DbM W PeerLoadContext := do
  match row with
  | (_, some macText) :: columns =>
    let context := { context with processed := context.processed + 1 }
    match scanMac macText with
    | none => return context
    | some mac =>
      if mac = Vector.replicate 6 0xFF then
        -- the broadcast peer stays virtual
        return { context with skippedBroadcast := context.skippedBroadcast + 1 }
      let name := (columns[0]?.bind Prod.snd).getD "peer".toList
      let description := (columns[1]?.bind Prod.snd).getD []
      if ← ask (P.deviceKnown mac) then
        return { context with alreadyPresent := context.alreadyPresent + 1 }
      if ← call (P.addDevice { mac, name, description }) then
        return { context with loaded := context.loaded + 1 }
      return { context with failed := context.failed + 1 }
  | _ => return context

def loadRows : List ExecRow → PeerLoadContext → DbM W PeerLoadContext
  | [], context => return context
  | row :: rows, context => do loadRows rows (← loadPeer P row context)

def PeerLoadContext.line (context : PeerLoadContext) : Text :=
  "[database] peers lidos=".toList ++ decimal context.processed ++ " adicionados=".toList ++
    decimal context.loaded ++ " ja_em_memoria=".toList ++ decimal context.alreadyPresent ++
    " ignorado_000=".toList ++ decimal context.skippedBroadcast ++ " falhas=".toList ++
    decimal context.failed

def loadPeersFromDatabase : DbM W Bool := do
  if !(← isReady) || !(← isOpen) then return false
  if !(← lockDb P kLockTimeoutMs) then return false
  let executed ← execRows P "SELECT mac,name,description FROM peers ORDER BY id ASC LIMIT 64;".toList
  let context ← loadRows P executed.rows {}
  if executed.rc ≠ .ok then
    match executed.errorMessage with
    | none => pure ()
    | some message => logLine P ("[database] erro carregando peers: ".toList ++ message)
    unlockDb
    return false
  logLine P (snprintf 192 context.line)
  unlockDb
  return true

def loadPeers : DbM W Bool := loadPeersFromDatabase P

def rebuild : DbM W Bool := do
  closeDatabase P
  if ← call (P.isPresent kDatabasePath) then
    if !(← call (P.remove kDatabasePath)) then
      logLine P "[database] falha ao remover banco anterior".toList
      return false
  if !(← begin P (← get).hasIo) then return false
  if !(← loadPeers P) then
    logLine P "[database] banco recriado, mas falhou carga inicial de peers".toList
  return true

def updatePeerSql (now : Int) (macText name description : Text) : Text :=
  "UPDATE peers SET name='".toList ++ escapeSqlText name ++ "', description='".toList ++
    escapeSqlText description ++ "', updated_at=".toList ++ decimal now ++ " WHERE mac='".toList ++
    escapeSqlText macText ++ "';".toList

def insertPeerSql (now : Int) (macText name description : Text) : Text :=
  "INSERT OR IGNORE INTO peers(mac,name,description,created_at,updated_at) VALUES('".toList ++
    escapeSqlText macText ++ "','".toList ++ escapeSqlText name ++ "','".toList ++
    escapeSqlText description ++ "',".toList ++ decimal now ++ ",".toList ++ decimal now ++
    ");".toList

def removePeerSql (macText : Text) : Text :=
  "DELETE FROM peers WHERE mac='".toList ++ escapeSqlText macText ++ "';".toList

def selectSql (macText : Text) : Text :=
  "SELECT id FROM peers WHERE mac='".toList ++ escapeSqlText macText ++ "' LIMIT 1;".toList

/-- `none` stands for a null pointer. -/
def upsertPeer (mac : Option Mac) (name description : Option Text) : DbM W Bool := do
  match ← isReady, mac with
  | true, some mac =>
    let now ← currentEpochSeconds P
    let peerName := name.getD []
    let peerDescription := description.getD []
    executeNoResult P
      (updatePeerSql now (macToText mac) peerName peerDescription ++
        insertPeerSql now (macToText mac) peerName peerDescription)
  | _, _ => return false

def removePeer (mac : Option Mac) : DbM W Bool := do
  match ← isReady, mac with
  | true, some mac => executeNoResult P (removePeerSql (macToText mac))
  | _, _ => return false

def peerIdByMac (mac : Option Mac) : DbM W (Option Int) := do
  match ← isReady, mac with
  | true, some mac => querySingleInt P (selectSql (macToText mac))
  | _, _ => return none

def updatePeerMetadata (mac : Option Mac) (name description : Option Text) : DbM W Bool := do
  match ← isReady, mac with
  | true, some mac =>
    if (← peerIdByMac P (some mac)).isNone then return false
    let now ← currentEpochSeconds P
    executeNoResult P (updatePeerSql now (macToText mac) (name.getD []) (description.getD []))
  | _, _ => return false

def ensurePeerExistsWithDefaults (mac : Option Mac) : DbM W (Option Int) := do
  match ← isReady, mac with
  | true, some mac =>
    if let some peerId ← peerIdByMac P (some mac) then return some peerId
    let defaultName := autoName mac
    let now ← currentEpochSeconds P
    if !(← executeNoResult P
      (insertPeerSql now (macToText mac) defaultName
        "adicionado automaticamente por RX ESP-NOW".toList)) then
      return none
    peerIdByMac P (some mac)
  | _, _ => return none

/-- The loop of `syncPeersFromManager`; `none` where `deviceAt` fails. -/
def syncPeers : List (Option Device) → (allOk : Bool) → DbM W Bool
  | [], allOk => return allOk
  | none :: devices, _ => syncPeers devices false
  | some item :: devices, allOk => do
    let ok ← upsertPeer P (some item.mac) (some item.name) (some item.description)
    syncPeers devices (allOk && ok)

def syncPeersFromManager : DbM W Bool := do
  if !(← isReady) then return false
  syncPeers P (← ask P.devices) true

/-! ## Logs -/

def insertCommandSql : Text :=
  "INSERT INTO command_log(command,source,created_at) VALUES(?1,?2,?3);".toList

def insertOutputSql : Text :=
  "INSERT INTO command_log_output(log_id,output,created_at) VALUES(?1,?2,?3);".toList

/-- Prepare an insert, bind and step it: whether the step was `SQLITE_DONE`. -/
def insertRow (sql : Text) (bound : List Value) : DbM W Bool := do
  if (← sqlite3Prepare P sql).isNone then return false
  let stepped ← call (P.run { sql, bound })
  return stepped.rows.isEmpty && stepped.done

/-- The end of `logCommandWithOutput`, under the lock. -/
def finishLog (ok : Bool) : DbM W Bool := do
  if !ok then logLine P (sqlErrorText (← ask P.errmsg))
  unlockDb
  return ok

def logCommandWithOutput (command output source : Option Text) : DbM W Bool := do
  if !(← isReady) || (command.getD []).isEmpty then return false
  if !(← lockDb P kLockTimeoutMs) then return false
  if !(← isOpen) then
    unlockDb
    return false
  let now ← currentEpochSeconds P
  let sourceText := if (source.getD []).isEmpty then "serial".toList else source.getD []
  let outputText := output.getD []
  let logged ←
    insertRow P insertCommandSql [.text (command.getD []), .text sourceText, .int64 now]
  let ok ←
    if logged then do
      let logId ← ask P.lastInsertRowid
      insertRow P insertOutputSql [.int64 logId, .text outputText, .int64 now]
    else pure false
  finishLog P ok

def logCommand (command source : Option Text) : DbM W Bool := do
  if !(← isReady) || (command.getD []).isEmpty then return false
  logCommandWithOutput P command (some []) source

def outgoingSql (peerId : Option Int) (mac : Mac) (type : Nat) (preview : Text) (delivered : Bool)
    (now : Int) : Text :=
  let peerText :=
    match peerId with
    | some peerId => if 0 < peerId then decimal peerId else "NULL".toList
    | none => "NULL".toList
  "INSERT INTO espnow_outgoing_log(peer_id,mac,payload,payload_type,delivered,sent_at) VALUES(".toList ++
    peerText ++ ",'".toList ++ escapeSqlText (macToText mac) ++ "','".toList ++
    escapeSqlText preview ++ "',".toList ++ decimal type ++ ",".toList ++
    (if delivered then "1".toList else "0".toList) ++ ",".toList ++ decimal now ++ ");".toList

/-- `type` is the number of a `btp::MessageType`. -/
def logOutgoingEspNow (mac : Option Mac) (type : Nat) (payload : Option Btp.Bytes)
    (payloadSize : Nat) (delivered : Bool) : DbM W Bool := do
  match ← isReady, mac with
  | true, some mac =>
    let known ← peerIdByMac P (some mac)
    let peerId ← if known.isNone then ensurePeerExistsWithDefaults P (some mac) else pure known
    let now ← currentEpochSeconds P
    executeNoResult P
      (outgoingSql peerId mac type (payloadPreviewText payload payloadSize) delivered now)
  | _, _ => return false

def logBootEvent (reason : Option Text) : DbM W Bool := do
  if !(← isReady) then return false
  let now ← currentEpochSeconds P
  executeNoResult P
    ("INSERT INTO boot_events(reason,boot_at) VALUES('".toList ++
      escapeSqlText (reason.getD "power_on".toList) ++ "',".toList ++ decimal now ++ ");".toList)

/-! ## Reports -/

def getStatus : DbM W Report := do
  if !(← isReady) then return (false, notReadyText)
  let peerRows ← querySingleInt P "SELECT COUNT(*) FROM peers;".toList
  let commandRows ← querySingleInt P "SELECT COUNT(*) FROM command_log;".toList
  let outgoingRows ← querySingleInt P "SELECT COUNT(*) FROM espnow_outgoing_log;".toList
  let bootRows ← querySingleInt P "SELECT COUNT(*) FROM boot_events;".toList
  return (true, snprintf 256
    ("[database] pronto arquivo=".toList ++ kDatabasePath ++ " peers=".toList ++
      decimal (peerRows.getD (-1)) ++ " comandos=".toList ++ decimal (commandRows.getD (-1)) ++
      " tx=".toList ++ decimal (outgoingRows.getD (-1)) ++ " boots=".toList ++
      decimal (bootRows.getD (-1))))

def listTables : DbM W Report := do
  if !(← isReady) then return (false, notReadyText)
  queryToText P
    "SELECT name FROM sqlite_master WHERE type='table' AND name NOT LIKE 'sqlite_%' ORDER BY name;".toList
    64

/-- A limit of a query: 0 stands for a default. -/
def clampLimit (default most limit : Nat) : Nat := min (if limit = 0 then default else limit) most

def readTable (tableName : Text) (limit : Nat) : DbM W Report := do
  if !(← isReady) then return (false, notReadyText)
  if !isSafeIdentifier tableName then return (false, "[database] nome de tabela invalido".toList)
  let limit := clampLimit 20 200 limit
  queryToText P
    ("SELECT * FROM ".toList ++ tableName ++ " LIMIT ".toList ++ decimal limit ++ ";".toList) limit

/-- `safeColumnText`. -/
def columnText (cells : List Cell) (i : Nat) : Text :=
  (cells[i]?.bind Cell.text).elim [] cStr

def columnInt64 (cells : List Cell) (i : Nat) : Int := cells[i]?.elim 0 Cell.int

/-- `sqlite3_column_int` gives the low 32 bits. -/
def columnInt (cells : List Cell) (i : Nat) : Int := Int.bmod (columnInt64 cells i) (2 ^ 32)

def commandLogLine (rowCount : Nat) (cells : List Cell) : Text :=
  "[".toList ++ decimal rowCount ++ "] id=".toList ++ decimal (columnInt cells 0) ++
    " | data_hora=".toList ++ epochToDateTimeText P (columnInt64 cells 1) ++ " | source=".toList ++
    sanitizeAndTruncateField (columnText cells 2) 24 ++ " | command=".toList ++
    sanitizeAndTruncateField (columnText cells 3) 72 ++ " | output=".toList ++
    sanitizeAndTruncateField (columnText cells 4) 96 ++ "\n".toList

def historyLine (rowCount : Nat) (cells : List Cell) : Text :=
  "[".toList ++ decimal rowCount ++ "] id=".toList ++ decimal (columnInt cells 0) ++
    " | data_hora=".toList ++ epochToDateTimeText P (columnInt64 cells 1) ++ " | peer=".toList ++
    sanitizeAndTruncateField (columnText cells 2) 24 ++ " | mac=".toList ++
    sanitizeAndTruncateField (columnText cells 3) 17 ++ " | mensagem=".toList ++
    sanitizeAndTruncateField (columnText cells 4) 96 ++ " | status=".toList ++
    (if columnInt cells 5 = 1 then "sucesso".toList else "falha".toList) ++ "\n".toList

/-- The lines of rows, numbered from 1. -/
def numberedLines (line : Nat → List Cell → Text) (rows : List (List Cell)) : Text :=
  (List.range rows.length).flatMap fun i => line (i + 1) (rows.getD i [])

def readCommandLogsWithOutput (limit : Nat) : DbM W Report := do
  if !(← lockDb P kLockTimeoutMs) then return (false, lockedText)
  if !(← isReady) then return (false, notReadyText)
  let limit := clampLimit 20 200 limit
  let sql :=
    "SELECT c.id, c.created_at, c.source, c.command, o.output ".toList ++
      "FROM command_log c ".toList ++
      "LEFT JOIN command_log_output o ON o.log_id = c.id ".toList ++
      "ORDER BY c.id DESC LIMIT ".toList ++ decimal limit ++ ";".toList
  if (← sqlite3Prepare P sql).isNone then
    let message ← ask P.errmsg
    unlockDb
    return (false, sqlErrorText message)
  let stepped ← call (P.run { sql })
  if !stepped.done then
    let message ← ask P.errmsg
    unlockDb
    return (false, sqlErrorText message)
  unlockDb
  if stepped.rows.isEmpty then return (true, emptyQueryText)
  return (true, numberedLines (commandLogLine P) stepped.rows)

/-- The serial commands of the rows, one in a line. -/
def commandLines (rows : List (List Cell)) : Text :=
  rows.flatMap fun cells =>
    let command := columnText cells 0
    if command.isEmpty then [] else command ++ "\n".toList

def readRecentCommands (limit : Nat) : DbM W Report := do
  if !(← lockDb P kLockTimeoutMs) then return (false, lockedText)
  if !(← isReady) || !(← isOpen) then
    unlockDb
    return (false, notReadyText)
  let limit := clampLimit 64 256 limit
  let sql :=
    "SELECT command FROM (".toList ++ "SELECT id, command FROM command_log ".toList ++
      "WHERE source='serial' ORDER BY id DESC LIMIT ".toList ++ decimal limit ++
      ") t ORDER BY id ASC;".toList
  if (← sqlite3Prepare P sql).isNone then
    let message ← ask P.errmsg
    unlockDb
    return (false, sqlErrorText message)
  let stepped ← call (P.run { sql })
  if !stepped.done then
    let message ← ask P.errmsg
    unlockDb
    return (false, sqlErrorText message)
  unlockDb
  return (true, trim (commandLines stepped.rows))

def readEspNowHistory (limit : Nat) : DbM W Report := do
  if !(← lockDb P kLockTimeoutMs) then return (false, lockedText)
  if !(← isReady) then return (false, notReadyText)
  let limit := clampLimit 20 200 limit
  let sql :=
    "SELECT o.id, o.sent_at, p.name, o.mac, o.payload, o.delivered ".toList ++
      "FROM espnow_outgoing_log o ".toList ++ "LEFT JOIN peers p ON p.id = o.peer_id ".toList ++
      "ORDER BY o.sent_at DESC LIMIT ".toList ++ decimal limit ++ ";".toList
  if (← sqlite3Prepare P sql).isNone then
    let message ← ask P.errmsg
    unlockDb
    return (false, sqlErrorText message)
  let stepped ← call (P.run { sql })
  if !stepped.done then
    let message ← ask P.errmsg
    unlockDb
    return (false, sqlErrorText message)
  unlockDb
  let lines := numberedLines (historyLine P) stepped.rows
  return (true, "[database] ESP-NOW TX\n".toList ++
    if stepped.rows.isEmpty then "(sem linhas)\n".toList else lines)

/-! ## Tables -/

def dropTable (tableName : Text) : DbM W Bool := do
  if !(← isReady) then return false
  if !isSafeIdentifier tableName then return false
  executeNoResult P ("DROP TABLE IF EXISTS ".toList ++ tableName ++ ";".toList)

def executeSql (sql : Text) : DbM W Report := do
  if !(← isReady) then return (false, notReadyText)
  let trimmed := trim sql
  if trimmed.isEmpty then return (false, "[database] SQL vazio".toList)
  queryToText P trimmed 80

def countRows (tableName : Text) : DbM W (Option Int) := do
  if !(← isReady) then return none
  if !isSafeIdentifier tableName then return none
  querySingleInt P ("SELECT COUNT(*) FROM ".toList ++ tableName ++ ";".toList)

def deleteRows (tableName whereClause : Text) : DbM W (Bool × Int) := do
  if !(← isReady) || !(← isOpen) then return (false, 0)
  if !isSafeIdentifier tableName || whereClause.isEmpty then return (false, 0)
  if !(← lockDb P kLockTimeoutMs) then return (false, 0)
  let executed ← execRows P
    ("DELETE FROM ".toList ++ tableName ++ " WHERE ".toList ++ whereClause ++ ";".toList)
  if executed.rc ≠ .ok then
    logError P executed.errorMessage
    unlockDb
    return (false, 0)
  let deleted ← ask P.changes
  unlockDb
  return (true, Int.bmod deleted (2 ^ 32))

def vacuum : DbM W Report := do
  if !(← isReady) || !(← isOpen) then return (false, notReadyText)
  let beforeBytes ← call (P.fileSize kDatabasePath)
  if !(← executeNoResult P "VACUUM;".toList) then
    return (false, "[database] falha ao executar VACUUM".toList)
  let afterBytes ← call (P.fileSize kDatabasePath)
  return (true, snprintf 128
    ("[database] VACUUM concluido: ".toList ++ decimal (beforeBytes.getD 0) ++ "B -> ".toList ++
      decimal (afterBytes.getD 0) ++ "B".toList))

/-- One cell of a CSV file; nothing for NULL. -/
def csvCell (cell : Cell) : Text :=
  match cell.text with
  | none => []
  | some text =>
    let value := replaceAll (cStr text) ['"'] ['"', '"']
    if (indexOf value ',').isSome || (indexOf value '"').isSome || (indexOf value '\n').isSome then
      ['"'] ++ value ++ ['"']
    else value

def csvHeader (columnNames : List Text) : Text := List.intercalate [','] columnNames ++ ['\n']

def csvRow (cells : List Cell) : Text := List.intercalate [','] (cells.map csvCell) ++ ['\n']

def csvText (columnNames : List Text) (rows : List (List Cell)) : Text :=
  csvHeader columnNames ++ rows.flatMap csvRow

def csvPath (tableName : Text) : Text := kExportDir ++ "/".toList ++ tableName ++ ".csv".toList

def selectAllSql (tableName : Text) : Text := "SELECT * FROM ".toList ++ tableName ++ ";".toList

/-- `exportTableToCsv` once its folder is there, under the lock. -/
def writeCsv (tableName : Text) (columnNames : List Text) : DbM W Report := do
  if !(← call (P.createFile (csvPath tableName))) then
    unlockDb
    return (false, "[database] falha ao criar arquivo CSV".toList)
  let stepped ← call (P.run { sql := selectAllSql tableName })
  let _ ← call (P.writeFile (csvPath tableName) (csvText columnNames stepped.rows))
  unlockDb
  if !stepped.done then
    return (false, "[database] SQL error durante exportacao: ".toList ++ (← ask P.errmsg))
  return (true, snprintf 192
    ("[database] exportado ".toList ++ tableName ++ ": ".toList ++ decimal stepped.rows.length ++
      " linha(s) -> ".toList ++ csvPath tableName))

def exportTableToCsv (tableName : Text) : DbM W Report := do
  if !(← isReady) || !(← isOpen) then return (false, notReadyText)
  if !isSafeIdentifier tableName then return (false, "[database] nome de tabela invalido".toList)
  if !(← lockDb P 2000) then
    return (false, "[database] lock indisponivel para exportar".toList)
  match ← sqlite3Prepare P (selectAllSql tableName) with
  | none =>
    let message ← ask P.errmsg
    unlockDb
    return (false, sqlErrorText message)
  | some columnNames =>
    if !(← call (P.isDirectory kExportDir)) then
      if !(← call (P.mkdir kExportDir)) then
        unlockDb
        return (false, "[database] falha ao criar pasta de exportacao".toList)
    writeCsv P tableName columnNames

def clearLogsSql : Text :=
  "DELETE FROM command_log_output;DELETE FROM command_log;DELETE FROM espnow_outgoing_log;".toList

def clearLogs : DbM W Report := do
  if !(← isReady) || !(← isOpen) then return (false, notReadyText)
  let commandRows ← querySingleInt P "SELECT COUNT(*) FROM command_log;".toList
  let outgoingRows ← querySingleInt P "SELECT COUNT(*) FROM espnow_outgoing_log;".toList
  if !(← executeNoResult P clearLogsSql) then
    return (false, "[database] falha ao limpar logs".toList)
  return (true, snprintf 128
    ("[database] logs limpos: ".toList ++ decimal (commandRows.getD 0) ++ " comando(s) e ".toList ++
      decimal (outgoingRows.getD 0) ++ " envio(s) removidos".toList))

def beginTransaction : DbM W Bool := do
  if !(← isReady) then return false
  executeNoResult P "BEGIN IMMEDIATE;".toList

def commitTransaction : DbM W Bool := do
  if !(← isReady) then return false
  executeNoResult P "COMMIT;".toList

def rollbackTransaction : DbM W Bool := do
  if !(← isReady) then return false
  executeNoResult P "ROLLBACK;".toList

/-! ## Backup -/

/-- Three decimal digits at least, as `%03d`. -/
def suffixText (suffix : Nat) : Text :=
  let digits := decimal suffix
  '_' :: (List.replicate (3 - digits.length) '0' ++ digits)

/-- The loop over suffixes, from `suffix` on while `turns` are left. -/
def backupPath (baseName : Text) : (turns suffix : Nat) → Text → DbM W Text
  | 0, _, path => do
    let _ ← call (P.isPresent path)
    return path
  | turns + 1, suffix, path => do
    if ← call (P.isPresent path) then
      backupPath baseName turns (suffix + 1)
        (kBackupDir ++ "/".toList ++ baseName ++ suffixText suffix ++ ".db".toList)
    else return path

/-- `backup` from the lock on. -/
def copyTo (path : Text) : DbM W Report := do
  if !(← lockDb P 5000) then return (false, "[database] lock indisponivel para backup".toList)
  if !(← isOpen) then
    unlockDb
    return (false, notReadyText)
  let _ ← execRows P "PRAGMA wal_checkpoint(FULL);".toList
  let (rcOk, handle) ← call (P.openBackup path)
  if !rcOk || !handle then
    if handle then call P.closeBackup
    unlockDb
    return (false, "[database] falha ao abrir arquivo de backup".toList)
  if !(← call P.initBackup) then
    call P.closeBackup
    unlockDb
    return (false, "[database] falha ao iniciar copia do backup".toList)
  let (stepDone, finishOk, errcodeOk) ← call P.copyBackup
  call P.closeBackup
  unlockDb
  if !(stepDone && finishOk && errcodeOk) then
    let _ ← call (P.remove path)
    return (false, "[database] falha ao gerar backup".toList)
  let backupBytes ← call (P.fileSize path)
  return (true, snprintf 256
    ("[database] backup salvo: ".toList ++ path ++ " (".toList ++ decimal (backupBytes.getD 0) ++
      "B)".toList))

/-- `backup` once its folder is there. -/
def backupNow : DbM W Report := do
  let nowEpoch ← currentEpochSeconds P
  let stamp := if 0 < nowEpoch then P.strftime "%Y%m%d_%H%M%S".toList nowEpoch else none
  let baseName := "dongle_".toList ++ stamp.getD ("epoch_".toList ++ decimal nowEpoch)
  let path ← backupPath P baseName 999 1 (kBackupDir ++ "/".toList ++ baseName ++ ".db".toList)
  if ← call (P.isPresent path) then
    return (false, "[database] falha ao gerar nome unico para backup".toList)
  copyTo P path

def backup : DbM W Report := do
  if !(← isReady) then return (false, notReadyText)
  if !(← call (P.isDirectory kBackupDir)) then
    if !(← call (P.mkdir kBackupDir)) then
      return (false, "[database] falha ao criar pasta de backup".toList)
  backupNow P

/-! ## Operations -/

/-- A call of a public member function. -/
inductive Op
  | begin (io : Bool)
  | loadPeers
  | rebuild
  | backup
  | end_
  | isReady
  | upsertPeer (mac : Option Mac) (name description : Option Text)
  | removePeer (mac : Option Mac)
  | updatePeerMetadata (mac : Option Mac) (name description : Option Text)
  | logCommand (command source : Option Text)
  | logCommandWithOutput (command output source : Option Text)
  | logOutgoingEspNow (mac : Option Mac) (type : Nat) (payload : Option Btp.Bytes)
    (payloadSize : Nat) (delivered : Bool)
  | logBootEvent (reason : Option Text)
  | syncPeersFromManager
  | getStatus
  | listTables
  | readTable (tableName : Text) (limit : Nat)
  | readCommandLogsWithOutput (limit : Nat)
  | readRecentCommands (limit : Nat)
  | readEspNowHistory (limit : Nat)
  | dropTable (tableName : Text)
  | executeSql (sql : Text)
  | countRows (tableName : Text)
  | deleteRows (tableName whereClause : Text)
  | vacuum
  | exportTableToCsv (tableName : Text)
  | clearLogs
  | beginTransaction
  | commitTransaction
  | rollbackTransaction
  deriving DecidableEq, Repr

/-- Call a member function and leave its result. -/
def after {α : Type} (m : DbM W α) (s : Store W) : Store W := (m s).2

def perform (s : Store W) : Op → Store W
  | .begin io => after (begin P io) s
  | .loadPeers => after (loadPeers P) s
  | .rebuild => after (rebuild P) s
  | .backup => after (backup P) s
  | .end_ => after (end_ P) s
  | .isReady => after isReady s
  | .upsertPeer mac name description => after (upsertPeer P mac name description) s
  | .removePeer mac => after (removePeer P mac) s
  | .updatePeerMetadata mac name description => after (updatePeerMetadata P mac name description) s
  | .logCommand command source => after (logCommand P command source) s
  | .logCommandWithOutput command output source =>
    after (logCommandWithOutput P command output source) s
  | .logOutgoingEspNow mac type payload payloadSize delivered =>
    after (logOutgoingEspNow P mac type payload payloadSize delivered) s
  | .logBootEvent reason => after (logBootEvent P reason) s
  | .syncPeersFromManager => after (syncPeersFromManager P) s
  | .getStatus => after (getStatus P) s
  | .listTables => after (listTables P) s
  | .readTable tableName limit => after (readTable P tableName limit) s
  | .readCommandLogsWithOutput limit => after (readCommandLogsWithOutput P limit) s
  | .readRecentCommands limit => after (readRecentCommands P limit) s
  | .readEspNowHistory limit => after (readEspNowHistory P limit) s
  | .dropTable tableName => after (dropTable P tableName) s
  | .executeSql sql => after (executeSql P sql) s
  | .countRows tableName => after (countRows P tableName) s
  | .deleteRows tableName whereClause => after (deleteRows P tableName whereClause) s
  | .vacuum => after (vacuum P) s
  | .exportTableToCsv tableName => after (exportTableToCsv P tableName) s
  | .clearLogs => after (clearLogs P) s
  | .beginTransaction => after (beginTransaction P) s
  | .commitTransaction => after (commitTransaction P) s
  | .rollbackTransaction => after (rollbackTransaction P) s

end BallyDongle.DatabaseStore
