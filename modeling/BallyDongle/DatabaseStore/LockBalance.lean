import BallyDongle.DatabaseStore.Operations
import BallyDongle.Lib.Run
import BallyDongle.Lib.StateShift

/-!
# The lock is given back

Most operations hold the mutex afterwards as often as before. What an operation calls between
taking the lock and giving it back keeps the mutex, and every way out gives it back once.
Two reports do not: called before the database is ready, they return with the lock held.
-/

namespace BallyDongle.DatabaseStore

open StateShift

variable {W : Type} {P : Platform W} {α β : Type}

/-- The program leaves the mutex as it found it. -/
abbrev Balanced (m : DbM W α) : Prop := Keeps Store.mutex m

/-- The program gives the mutex back once. -/
abbrev Releases (m : DbM W α) : Prop := Shifts Store.mutex (Option.map (· - 1)) m

/-! ## Helpers -/

theorem balanced_call (f : W → α × W) : Balanced (call f) := fun _ => rfl

theorem balanced_ask (f : W → α) : Balanced (ask f) := fun _ => rfl

theorem balanced_isReady : Balanced (isReady : DbM W Bool) := fun _ => rfl

theorem balanced_isOpen : Balanced (isOpen : DbM W Bool) := fun _ => rfl

theorem releases_unlockDb : Releases (unlockDb : DbM W Unit) := fun _ => rfl

theorem lockDb_mutex (timeoutMs : Nat) (s : Store W) :
    (lockDb P timeoutMs s).2.mutex =
      if (lockDb P timeoutMs s).1 then s.mutex.map (· + 1) else s.mutex := by
  cases hs : s.mutex with
  | none =>
    rcases s with ⟨db, hasIo, ready, mutex, world⟩
    subst hs
    rfl
  | some depth =>
    cases depth with
    | zero =>
      rw [lockDb_free P timeoutMs hs]
      split
      · rfl
      · exact hs
    | succ depth =>
      rcases s with ⟨db, hasIo, ready, mutex, world⟩
      subst hs
      rfl

/-- What runs under the lock gives it back; what runs without it keeps the mutex. -/
theorem balanced_locked {timeoutMs : Nat} {failed body : DbM W α} (hfailed : Balanced failed)
    (hbody : Releases body) :
    Balanced (lockDb P timeoutMs >>= fun got => if !got then failed else body) :=
  Keeps.bracket (lockDb_mutex timeoutMs) (fun d => by cases d <;> simp) hfailed hbody

theorem releases_then {m : DbM W α} (hm : Balanced m) : Releases (unlockDb >>= fun _ => m) :=
  releases_unlockDb.then fun _ => hm

theorem balanced_logLine (text : Text) : Balanced (logLine P text) :=
  Keeps.get.bind fun _ => .ite (balanced_call _) (.pure _)

theorem balanced_currentEpochSeconds : Balanced (currentEpochSeconds P) :=
  (balanced_call _).bind fun _ => .ite (.pure _) ((balanced_call _).bind fun _ => .pure _)

theorem balanced_execRows (sql : Text) : Balanced (execRows P sql) :=
  balanced_isOpen.bind fun _ => .ite (.pure _) (balanced_call _)

theorem balanced_sqlite3Exec {σ : Type} (sql : Text) (callback : ExecRow → σ → σ × Bool)
    (context : σ) : Balanced (sqlite3Exec P sql callback context) :=
  (balanced_execRows sql).bind fun _ => .pure _

theorem balanced_sqlite3Prepare (sql : Text) : Balanced (sqlite3Prepare P sql) :=
  balanced_isOpen.bind fun _ => .ite (.pure _) (balanced_call _)

theorem balanced_logError (message : Option Text) : Balanced (logError P message) := by
  cases message with
  | none => exact .pure _
  | some message => exact balanced_logLine _

theorem balanced_executeNoResult (sql : Text) : Balanced (executeNoResult P sql) := by
  refine balanced_locked (.pure _) (balanced_isOpen.bind fun _ => .ite (releases_then (.pure _)) ?_)
  refine (balanced_sqlite3Exec sql _ _).bind fun result => .ite ?_ (releases_then (.pure _))
  exact (balanced_logError _).bind fun _ => releases_then (.pure _)

theorem balanced_querySingleInt (sql : Text) : Balanced (querySingleInt P sql) := by
  refine balanced_locked (.pure _) (balanced_isOpen.bind fun _ => .ite (releases_then (.pure _)) ?_)
  refine (balanced_sqlite3Exec sql _ _).bind fun result => .ite (releases_then (.pure _)) ?_
  split
  · exact releases_then (.pure _)
  · exact releases_then (.pure _)

theorem balanced_queryToText (sql : Text) (maxRows : Nat) :
    Balanced (queryToText P sql maxRows) := by
  refine balanced_locked (.pure _) (balanced_isOpen.bind fun _ => .ite (releases_then (.pure _)) ?_)
  refine (balanced_sqlite3Exec sql _ _).bind fun result => .ite (releases_then (.pure _)) ?_
  exact releases_then (.ite (.pure _) (.ite (.pure _) (.pure _)))

theorem balanced_openDatabase : Balanced (openDatabase P) := by
  refine balanced_locked (.pure _) (balanced_isOpen.bind fun _ => .ite (releases_then (.pure _)) ?_)
  refine (balanced_call _).bind fun _ => .ite ?_ ?_
  · exact (balanced_logLine _).bind fun _ => releases_then (.pure _)
  refine (balanced_call _).bind fun result => .ite (.ite ?_ ?_) ?_
  · refine (balanced_ask _).bind fun _ => (balanced_logLine _).bind fun _ => ?_
    exact (balanced_call _).bind fun _ => releases_then (.pure _)
  · exact (balanced_logLine _).bind fun _ => releases_then (.pure _)
  · exact Keeps.bind (fun _ => rfl) fun _ => releases_then (.pure _)

theorem balanced_closeDatabase : Balanced (closeDatabase P) := by
  have hready : Releases
      (do modify fun s : Store W => { s with ready := false }; unlockDb : DbM W Unit) :=
    Keeps.bind (fun _ => rfl) fun _ => releases_unlockDb
  refine balanced_locked (.pure _) (balanced_isOpen.bind fun _ => .ite ?_ hready)
  exact (balanced_call _).bind fun _ => Keeps.bind (fun _ => rfl) fun _ => hready

/-! ## Opening -/

theorem balanced_ensureBootstrapAssets : Balanced (ensureBootstrapAssets P) := by
  have hscript : Balanced (do
      if !(← call (P.isPresent kBootstrapPath)) then
        if !(← call (P.createFile kBootstrapPath)) then return false
        if (← call (P.writeFile kBootstrapPath kDefaultBootstrapSql)) = 0 then return false
        logLine P "[database] bootstrap.sql criado em /database/bootstrap.sql".toList
      return true : DbM W Bool) := by
    refine (balanced_call _).bind fun _ => .ite ?_ (.pure _)
    refine (balanced_call _).bind fun _ => .ite (.pure _) ?_
    refine (balanced_call _).bind fun _ => .ite (.pure _) ?_
    exact (balanced_logLine _).bind fun _ => .pure _
  refine (balanced_call _).bind fun _ => .ite ?_ hscript
  exact (balanced_call _).bind fun _ => .ite (.pure _) hscript

theorem balanced_applyBootstrapScript : Balanced (applyBootstrapScript P) := by
  refine (balanced_call _).bind fun script => ?_
  split
  · exact .pure _
  · exact .ite (.pure _) (balanced_executeNoResult _)

theorem balanced_ensureDefaultBroadcastPeer : Balanced (ensureDefaultBroadcastPeer P) := by
  refine balanced_isReady.bind fun _ => .ite (.pure _) ?_
  refine balanced_currentEpochSeconds.bind fun _ => ?_
  exact (balanced_executeNoResult _).bind fun _ => .ite (.pure _) (balanced_executeNoResult _)

theorem balanced_begin (io : Bool) : Balanced (begin P io) := by
  have hfailed (text : Text) : Balanced (do logLine P text; return false : DbM W Bool) :=
    (balanced_logLine text).bind fun _ => .pure _
  have hclosed (text : Text) :
      Balanced (do closeDatabase P; logLine P text; return false : DbM W Bool) :=
    balanced_closeDatabase.bind fun _ => hfailed text
  refine Keeps.bind (fun _ => rfl) fun _ => balanced_closeDatabase.bind fun _ => ?_
  refine balanced_ensureBootstrapAssets.bind fun _ => .ite (hfailed _) ?_
  refine balanced_openDatabase.bind fun _ => .ite (hfailed _) ?_
  refine balanced_applyBootstrapScript.bind fun _ => .ite (hclosed _) ?_
  refine (balanced_executeNoResult _).bind fun _ => .ite (hclosed _) ?_
  refine Keeps.bind (fun _ => rfl) fun _ => ?_
  refine balanced_ensureDefaultBroadcastPeer.bind fun _ => .ite ?_ (.pure _)
  exact (balanced_logLine _).bind fun _ => .pure _

/-! ## Peers -/

theorem balanced_loadPeer (row : ExecRow) (context : PeerLoadContext) :
    Balanced (loadPeer P row context) := by
  unfold loadPeer
  split
  · dsimp only
    split
    · exact .pure _
    · refine .ite (.pure _) ((balanced_ask _).bind fun _ => .ite (.pure _) ?_)
      exact (balanced_call _).bind fun _ => .ite (.pure _) (.pure _)
  · exact .pure _

theorem balanced_loadRows (rows : List ExecRow) (context : PeerLoadContext) :
    Balanced (loadRows P rows context) := by
  induction rows generalizing context with
  | nil => exact .pure _
  | cons row rows ih => exact (balanced_loadPeer row context).bind fun _ => ih _

theorem balanced_loadPeers : Balanced (loadPeers P) := by
  refine balanced_isReady.bind fun _ => balanced_isOpen.bind fun _ => .ite (.pure _) ?_
  refine balanced_locked (.pure _) ((balanced_execRows _).bind fun executed => ?_)
  refine (balanced_loadRows _ _).bind fun context => .ite ?_ ?_
  · split
    · exact releases_then (.pure _)
    · exact (balanced_logLine _).bind fun _ => releases_then (.pure _)
  · exact (balanced_logLine _).bind fun _ => releases_then (.pure _)

theorem balanced_rebuild : Balanced (rebuild P) := by
  have hload : Balanced (do
      if !(← loadPeers P) then
        logLine P "[database] banco recriado, mas falhou carga inicial de peers".toList
      return true : DbM W Bool) :=
    balanced_loadPeers.bind fun _ => .ite ((balanced_logLine _).bind fun _ => .pure _) (.pure _)
  have hbegin : Balanced (do
      if !(← begin P (← get).hasIo) then return false
      if !(← loadPeers P) then
        logLine P "[database] banco recriado, mas falhou carga inicial de peers".toList
      return true : DbM W Bool) :=
    Keeps.get.bind fun _ => (balanced_begin _).bind fun _ => .ite (.pure _) hload
  refine balanced_closeDatabase.bind fun _ => (balanced_call _).bind fun _ => .ite ?_ hbegin
  refine (balanced_call _).bind fun _ => .ite ?_ hbegin
  exact (balanced_logLine _).bind fun _ => .pure _

theorem balanced_upsertPeer (mac : Option BtpTransport.Mac) (name description : Option Text) :
    Balanced (upsertPeer P mac name description) := by
  refine balanced_isReady.bind fun _ => ?_
  split
  · exact balanced_currentEpochSeconds.bind fun _ => balanced_executeNoResult _
  · exact .pure _

theorem balanced_removePeer (mac : Option BtpTransport.Mac) : Balanced (removePeer P mac) := by
  refine balanced_isReady.bind fun _ => ?_
  split
  · exact balanced_executeNoResult _
  · exact .pure _

theorem balanced_peerIdByMac (mac : Option BtpTransport.Mac) : Balanced (peerIdByMac P mac) := by
  refine balanced_isReady.bind fun _ => ?_
  split
  · exact balanced_querySingleInt _
  · exact .pure _

theorem balanced_updatePeerMetadata (mac : Option BtpTransport.Mac)
    (name description : Option Text) : Balanced (updatePeerMetadata P mac name description) := by
  refine balanced_isReady.bind fun _ => ?_
  split
  · refine (balanced_peerIdByMac _).bind fun _ => .ite (.pure _) ?_
    exact balanced_currentEpochSeconds.bind fun _ => balanced_executeNoResult _
  · exact .pure _

theorem balanced_ensurePeerExistsWithDefaults (mac : Option BtpTransport.Mac) :
    Balanced (ensurePeerExistsWithDefaults P mac) := by
  refine balanced_isReady.bind fun _ => ?_
  split
  · refine (balanced_peerIdByMac _).bind fun known => ?_
    split
    · exact .pure _
    · refine balanced_currentEpochSeconds.bind fun _ => (balanced_executeNoResult _).bind fun _ => ?_
      exact .ite (.pure _) (balanced_peerIdByMac _)
  · exact .pure _

theorem balanced_syncPeers (devices : List (Option Device)) (allOk : Bool) :
    Balanced (syncPeers P devices allOk) := by
  induction devices generalizing allOk with
  | nil => exact .pure _
  | cons device devices ih =>
    cases device with
    | none => exact ih _
    | some item => exact (balanced_upsertPeer _ _ _).bind fun _ => ih _

theorem balanced_syncPeersFromManager : Balanced (syncPeersFromManager P) :=
  balanced_isReady.bind fun _ => .ite (.pure _) ((balanced_ask _).bind fun _ => balanced_syncPeers _ _)

/-! ## Logs and reports -/

theorem balanced_insertRow (sql : Text) (bound : List Value) : Balanced (insertRow P sql bound) :=
  (balanced_sqlite3Prepare _).bind fun _ => .ite (.pure _) ((balanced_call _).bind fun _ => .pure _)

theorem releases_finishLog (ok : Bool) : Releases (finishLog P ok) := by
  refine .ite ?_ (releases_then (.pure _))
  exact (balanced_ask _).bind fun _ => (balanced_logLine _).bind fun _ => releases_then (.pure _)

theorem balanced_logCommandWithOutput (command output source : Option Text) :
    Balanced (logCommandWithOutput P command output source) := by
  refine balanced_isReady.bind fun _ => .ite (.pure _) (balanced_locked (.pure _) ?_)
  refine balanced_isOpen.bind fun _ => .ite (releases_then (.pure _)) ?_
  refine balanced_currentEpochSeconds.bind fun _ => (balanced_insertRow _ _).bind fun _ => ?_
  refine .ite ?_ (releases_finishLog false)
  exact (balanced_ask _).bind fun _ => (balanced_insertRow _ _).bind fun _ => releases_finishLog _

theorem balanced_logCommand (command source : Option Text) :
    Balanced (logCommand P command source) :=
  balanced_isReady.bind fun _ => .ite (.pure _) (balanced_logCommandWithOutput _ _ _)

theorem balanced_logOutgoingEspNow (mac : Option BtpTransport.Mac) (type : Nat)
    (payload : Option Btp.Bytes) (payloadSize : Nat) (delivered : Bool) :
    Balanced (logOutgoingEspNow P mac type payload payloadSize delivered) := by
  refine balanced_isReady.bind fun _ => ?_
  split
  · have hinsert (peerId : Option Int) (mac : BtpTransport.Mac) : Balanced (do
        let now ← currentEpochSeconds P
        executeNoResult P
          (outgoingSql peerId mac type (payloadPreviewText payload payloadSize) delivered now)) :=
      balanced_currentEpochSeconds.bind fun _ => balanced_executeNoResult _
    refine (balanced_peerIdByMac _).bind fun _ => .ite ?_ (hinsert _ _)
    exact (balanced_ensurePeerExistsWithDefaults _).bind fun _ => hinsert _ _
  · exact .pure _

theorem balanced_logBootEvent (reason : Option Text) : Balanced (logBootEvent P reason) :=
  balanced_isReady.bind fun _ => .ite (.pure _) <|
    balanced_currentEpochSeconds.bind fun _ => balanced_executeNoResult _

theorem balanced_getStatus : Balanced (getStatus P) := by
  refine balanced_isReady.bind fun _ => .ite (.pure _) ?_
  refine (balanced_querySingleInt _).bind fun _ => (balanced_querySingleInt _).bind fun _ => ?_
  exact (balanced_querySingleInt _).bind fun _ => (balanced_querySingleInt _).bind fun _ => .pure _

theorem balanced_listTables : Balanced (listTables P) :=
  balanced_isReady.bind fun _ => .ite (.pure _) (balanced_queryToText _ _)

theorem balanced_readTable (tableName : Text) (limit : Nat) :
    Balanced (readTable P tableName limit) :=
  balanced_isReady.bind fun _ => .ite (.pure _) (.ite (.pure _) (balanced_queryToText _ _))

/-- Run a query under the lock, and report on it without. -/
theorem releases_rows {sql : Text} {finish : Stepped → DbM W Report}
    (hfinish : ∀ stepped, Balanced (finish stepped)) :
    Releases (do
      if (← sqlite3Prepare P sql).isNone then
        let message ← ask P.errmsg
        unlockDb
        return (false, sqlErrorText message)
      let stepped ← call (P.run { sql })
      if !stepped.done then
        let message ← ask P.errmsg
        unlockDb
        return (false, sqlErrorText message)
      unlockDb
      finish stepped : DbM W Report) := by
  have hfailed : Releases (do
      let message ← ask P.errmsg
      unlockDb
      return (false, sqlErrorText message) : DbM W Report) :=
    (balanced_ask _).bind fun _ => releases_then (.pure _)
  refine (balanced_sqlite3Prepare _).bind fun _ => .ite hfailed ?_
  exact (balanced_call _).bind fun _ => .ite hfailed (releases_then (hfinish _))

theorem balanced_readRecentCommands (limit : Nat) : Balanced (readRecentCommands P limit) :=
  balanced_locked (.pure _) <| balanced_isReady.bind fun _ => balanced_isOpen.bind fun _ =>
    .ite (releases_then (.pure _)) (releases_rows fun _ => .pure _)

/-! ## Tables -/

theorem balanced_dropTable (tableName : Text) : Balanced (dropTable P tableName) :=
  balanced_isReady.bind fun _ => .ite (.pure _) (.ite (.pure _) (balanced_executeNoResult _))

theorem balanced_executeSql (sql : Text) : Balanced (executeSql P sql) :=
  balanced_isReady.bind fun _ => .ite (.pure _) (.ite (.pure _) (balanced_queryToText _ _))

theorem balanced_countRows (tableName : Text) : Balanced (countRows P tableName) :=
  balanced_isReady.bind fun _ => .ite (.pure _) (.ite (.pure _) (balanced_querySingleInt _))

theorem balanced_deleteRows (tableName whereClause : Text) :
    Balanced (deleteRows P tableName whereClause) := by
  refine balanced_isReady.bind fun _ => balanced_isOpen.bind fun _ => .ite (.pure _) ?_
  refine .ite (.pure _) (balanced_locked (.pure _) ((balanced_execRows _).bind fun _ => .ite ?_ ?_))
  · exact (balanced_logError _).bind fun _ => releases_then (.pure _)
  · exact (balanced_ask _).bind fun _ => releases_then (.pure _)

theorem balanced_vacuum : Balanced (vacuum P) := by
  refine balanced_isReady.bind fun _ => balanced_isOpen.bind fun _ => .ite (.pure _) ?_
  refine (balanced_call _).bind fun _ => (balanced_executeNoResult _).bind fun _ => ?_
  exact .ite (.pure _) ((balanced_call _).bind fun _ => .pure _)

theorem releases_writeCsv (tableName : Text) (columnNames : List Text) :
    Releases (writeCsv P tableName columnNames) := by
  refine (balanced_call _).bind fun _ => .ite (releases_then (.pure _)) ?_
  refine (balanced_call _).bind fun _ => (balanced_call _).bind fun _ => releases_then ?_
  exact .ite ((balanced_ask _).bind fun _ => .pure _) (.pure _)

theorem balanced_exportTableToCsv (tableName : Text) : Balanced (exportTableToCsv P tableName) := by
  refine balanced_isReady.bind fun _ => balanced_isOpen.bind fun _ => .ite (.pure _) ?_
  refine .ite (.pure _) (balanced_locked (.pure _) ((balanced_sqlite3Prepare _).bind fun names => ?_))
  split
  · exact (balanced_ask _).bind fun _ => releases_then (.pure _)
  · refine (balanced_call _).bind fun _ => .ite ?_ (releases_writeCsv _ _)
    exact (balanced_call _).bind fun _ => .ite (releases_then (.pure _)) (releases_writeCsv _ _)

theorem balanced_clearLogs : Balanced (clearLogs P) := by
  refine balanced_isReady.bind fun _ => balanced_isOpen.bind fun _ => .ite (.pure _) ?_
  refine (balanced_querySingleInt _).bind fun _ => (balanced_querySingleInt _).bind fun _ => ?_
  exact (balanced_executeNoResult _).bind fun _ => .ite (.pure _) (.pure _)

theorem balanced_whenReady (sql : Text) : Balanced (do
    if !(← isReady) then return false
    executeNoResult P sql : DbM W Bool) :=
  balanced_isReady.bind fun _ => .ite (.pure _) (balanced_executeNoResult _)

theorem balanced_backupPath (baseName : Text) (turns suffix : Nat) (path : Text) :
    Balanced (backupPath P baseName turns suffix path) := by
  induction turns generalizing suffix path with
  | zero => exact (balanced_call _).bind fun _ => .pure _
  | succ turns ih => exact (balanced_call _).bind fun _ => .ite (ih _ _) (.pure _)

theorem balanced_copyTo (path : Text) : Balanced (copyTo P path) := by
  refine balanced_locked (.pure _) (balanced_isOpen.bind fun _ => .ite (releases_then (.pure _)) ?_)
  refine (balanced_execRows _).bind fun _ => (balanced_call _).bind fun opened => .ite (.ite ?_ ?_) ?_
  · exact (balanced_call _).bind fun _ => releases_then (.pure _)
  · exact releases_then (.pure _)
  refine (balanced_call _).bind fun _ => .ite ?_ ?_
  · exact (balanced_call _).bind fun _ => releases_then (.pure _)
  refine (balanced_call _).bind fun copied => (balanced_call _).bind fun _ => releases_then ?_
  exact .ite ((balanced_call _).bind fun _ => .pure _) ((balanced_call _).bind fun _ => .pure _)

theorem balanced_backup : Balanced (backup P) := by
  have hnow : Balanced (backupNow P) :=
    balanced_currentEpochSeconds.bind fun _ => (balanced_backupPath _ _ _ _).bind fun _ =>
      (balanced_call _).bind fun _ => .ite (.pure _) (balanced_copyTo _)
  refine balanced_isReady.bind fun _ => .ite (.pure _) ((balanced_call _).bind fun _ => .ite ?_ hnow)
  exact (balanced_call _).bind fun _ => .ite (.pure _) hnow

/-! ## The two reports -/

theorem lockDb_ready (timeoutMs : Nat) (s : Store W) :
    (lockDb P timeoutMs s).2.ready = s.ready := by
  obtain ⟨mutex, w, hframe, -⟩ := lockDb_frame P timeoutMs s
  rw [hframe]

/-- `lockDb` would take the mutex. -/
def Store.takesMutex (P : Platform W) (s : Store W) : Bool :=
  match s.mutex with
  | none => false
  | some 0 => (P.takeMutex kLockTimeoutMs s.world).1
  | some (_ + 1) => true

theorem lockDb_takes (s : Store W) (hmutex : s.mutex ≠ none) :
    (lockDb P kLockTimeoutMs s).1 = s.takesMutex P := by
  rcases s with ⟨db, hasIo, ready, _ | _ | depth, world⟩
  · exact absurd rfl hmutex
  · rw [lockDb_free P _ rfl, Store.takesMutex]
    split
    · rename_i htaken
      exact htaken.symm
    · rename_i htaken
      exact (Bool.not_eq_true _ ▸ htaken).symm
  · rfl

/-- A report that takes the lock and then looks whether the database is ready returns with the
lock held just when it is not. -/
theorem mutex_report_iff {locked early : Report} {body : DbM W Report} (hbody : Releases body)
    (s : Store W) :
    ((do
      if !(← lockDb P kLockTimeoutMs) then return locked
      if !(← isReady) then return early
      body : DbM W Report) s).2.mutex = s.mutex ↔ s.ready = true ∨ s.takesMutex P = false := by
  have hmutex := @lockDb_mutex _ P kLockTimeoutMs s
  have hready := @lockDb_ready _ P kLockTimeoutMs s
  have htakes := @lockDb_takes _ P s
  show ((if !(lockDb P kLockTimeoutMs s).1 then pure locked else _ : DbM W Report)
    (lockDb P kLockTimeoutMs s).2).2.mutex = _ ↔ _
  generalize lockDb P kLockTimeoutMs s = got at hmutex hready htakes ⊢
  rcases got with ⟨got, s'⟩
  cases got with
  | false =>
    refine iff_of_true hmutex (.inr ?_)
    by_cases hnone : s.mutex = none
    · rw [Store.takesMutex, hnone]
    · exact (htakes hnone).symm
  | true =>
    show ((if !s'.ready then pure early else body : DbM W Report) s').2.mutex = _ ↔ _
    rw [show s'.ready = s.ready from hready]
    cases hr : s.ready with
    | true =>
      refine iff_of_true ((hbody s').trans ?_) (.inl rfl)
      rw [show s'.mutex = s.mutex.map (· + 1) from hmutex, Option.map_map]
      exact Option.map_id'
    | false =>
      show s'.mutex = s.mutex ↔ _
      rw [show s'.mutex = s.mutex.map (· + 1) from hmutex]
      cases hs : s.mutex with
      | none => simp [Store.takesMutex, hs]
      | some depth =>
        rw [← htakes (by rw [hs]; exact Option.some_ne_none depth)]
        simp

/-- The two reports that look at `ready_` under the lock and forget it. -/
def Op.forgets : Op → Bool
  | .readCommandLogsWithOutput _ | .readEspNowHistory _ => true
  | _ => false

/-- One of these is called before the database is ready, and gets the lock. -/
def TooEarly (P : Platform W) (s : Store W) (op : Op) : Prop :=
  op.forgets = true ∧ s.ready = false ∧ s.takesMutex P = true

instance (s : Store W) (op : Op) : Decidable (TooEarly P s op) :=
  inferInstanceAs (Decidable (_ ∧ _ ∧ _))

theorem mutex_forgets_iff {s : Store W} {op : Op} (hforgets : op.forgets = true) :
    ¬TooEarly P s op ↔ s.ready = true ∨ s.takesMutex P = false := by
  rw [TooEarly, hforgets]
  cases s.ready <;> cases s.takesMutex P <;> simp

theorem perform_balanced {op : Op} (hforgets : op.forgets = false) (s : Store W) :
    (perform P s op).mutex = s.mutex := by
  cases op with
  | readCommandLogsWithOutput limit => cases hforgets
  | readEspNowHistory limit => cases hforgets
  | begin io => exact balanced_begin io s
  | loadPeers => exact balanced_loadPeers s
  | rebuild => exact balanced_rebuild s
  | backup => exact balanced_backup s
  | end_ => exact balanced_closeDatabase s
  | isReady => rfl
  | upsertPeer mac name description => exact balanced_upsertPeer mac name description s
  | removePeer mac => exact balanced_removePeer mac s
  | updatePeerMetadata mac name description =>
    exact balanced_updatePeerMetadata mac name description s
  | logCommand command source => exact balanced_logCommand command source s
  | logCommandWithOutput command output source =>
    exact balanced_logCommandWithOutput command output source s
  | logOutgoingEspNow mac type payload payloadSize delivered =>
    exact balanced_logOutgoingEspNow mac type payload payloadSize delivered s
  | logBootEvent reason => exact balanced_logBootEvent reason s
  | syncPeersFromManager => exact balanced_syncPeersFromManager s
  | getStatus => exact balanced_getStatus s
  | listTables => exact balanced_listTables s
  | readTable tableName limit => exact balanced_readTable tableName limit s
  | readRecentCommands limit => exact balanced_readRecentCommands limit s
  | dropTable tableName => exact balanced_dropTable tableName s
  | executeSql sql => exact balanced_executeSql sql s
  | countRows tableName => exact balanced_countRows tableName s
  | deleteRows tableName whereClause => exact balanced_deleteRows tableName whereClause s
  | vacuum => exact balanced_vacuum s
  | exportTableToCsv tableName => exact balanced_exportTableToCsv tableName s
  | clearLogs => exact balanced_clearLogs s
  | beginTransaction => exact balanced_whenReady _ s
  | commitTransaction => exact balanced_whenReady _ s
  | rollbackTransaction => exact balanced_whenReady _ s

theorem perform_mutex_iff (s : Store W) (op : Op) :
    (perform P s op).mutex = s.mutex ↔ ¬TooEarly P s op := by
  cases hforgets : op.forgets with
  | false =>
    refine iff_of_true (perform_balanced hforgets s) fun hearly => ?_
    rw [hearly.1] at hforgets
    cases hforgets
  | true =>
    rw [mutex_forgets_iff hforgets]
    cases op with
    | readCommandLogsWithOutput limit =>
      exact mutex_report_iff (releases_rows fun _ => .ite (.pure _) (.pure _)) s
    | readEspNowHistory limit => exact mutex_report_iff (releases_rows fun _ => .pure _) s
    | _ => cases hforgets

/-- The depth of a task stays what it was throughout a run of operations just when none of them
comes too early. -/
theorem lock_balanced (s : Store W) (ops : List Op) :
    Run.Throughout (perform P) (fun t => t.mutex = s.mutex) s ops ↔
      Run.AllSteps (perform P) (fun t op => ¬TooEarly P t op) s ops :=
  Run.throughout_iff_allSteps (fun t op ht => ht ▸ perform_mutex_iff t op) rfl

/-- Where the card is missing, both reports return with the lock held. -/
theorem reports_hold_lock :
    (perform (noCard Unit) { world := () } (.readCommandLogsWithOutput 20)).mutex = some 1 ∧
      (perform (noCard Unit) { world := () } (.readEspNowHistory 20)).mutex = some 1 ∧
      ({ world := () } : Store Unit).mutex = some 0 := by decide

end BallyDongle.DatabaseStore
