import BallyDongle.DatabaseStore.PeerStatements
import BallyDongle.EspNowManager.PeersAgree

/-!
# The table of peers

What the operations on peers do to the table and to the device manager, given what SQLite
does with the statements they make (`PeersTable`).
-/

namespace BallyDongle.DatabaseStore

open BtpTransport EspNowManager StringCompat StateShift SqlTokens

/-! ## Addresses as text -/

theorem scanOctet_digits (octet : UInt8) (rest : Text) :
    scanOctet (Hex.digits 2 octet.toNat ++ rest) = some (octet, rest) := by
  have hdigit : ∀ v < 16, Numeral.isSpace (Hex.digit v) = false ∧ Hex.digit v ≠ '-' ∧
      Hex.digit v ≠ '+' ∧ Numeral.digitIn 16 (Hex.digit v) = some v := by decide
  have hlt := octet.toNat_lt
  obtain ⟨hspace, hminus, hplus, hhigh⟩ := hdigit (octet.toNat / 16) (by omega)
  obtain ⟨-, -, -, hlow⟩ := hdigit (octet.toNat % 16) (by omega)
  have hvalue : Numeral.value 16 [octet.toNat / 16, octet.toNat % 16] = octet.toNat := by
    change (0 * 16 + octet.toNat / 16) * 16 + octet.toNat % 16 = octet.toNat
    omega
  have hdigits : Hex.digits 2 octet.toNat =
      [Hex.digit (octet.toNat / 16), Hex.digit (octet.toNat % 16)] := by
    have hhead : octet.toNat / 16 % 16 = octet.toNat / 16 := Nat.mod_eq_of_lt (by omega)
    simp [Hex.digits, hhead]
  have hsign : ∀ cs, Numeral.takeSign (Hex.digit (octet.toNat / 16) :: cs) =
      (false, Hex.digit (octet.toNat / 16) :: cs) := by
    intro cs
    unfold Numeral.takeSign
    split
    · rename_i h
      exact absurd (List.cons.inj h).1 hminus
    · rename_i h
      exact absurd (List.cons.inj h).1 hplus
    · rfl
  simp [scanOctet, hdigits, hspace, hsign, Numeral.takeDigits, hhigh, hlow, hvalue]

theorem scanOctets_digits (octets : List UInt8) :
    scanOctets octets.length (octets.flatMap fun octet => ':' :: Hex.digits 2 octet.toNat) =
      some octets := by
  induction octets with
  | nil => rfl
  | cons octet octets ih =>
    rw [List.length_cons, List.flatMap_cons, List.cons_append, scanOctets, scanOctet_digits]
    simp [ih]

theorem scanMac_macToText (mac : Mac) : scanMac (macToText mac) = some mac := by
  have hlength : mac.toList.length = 6 := by simp
  cases hlist : mac.toList with
  | nil => simp [hlist] at hlength
  | cons octet octets =>
    have hfive : octets.length = 5 := by simpa [hlist] using hlength
    have htext : macToText mac = Hex.digits 2 octet.toNat ++
        octets.flatMap fun octet => ':' :: Hex.digits 2 octet.toNat := by
      rw [macToText, hlist, List.map_cons, Intercalate.intercalate_cons, List.flatMap_map]
      rfl
    have hoctets := scanOctets_digits octets
    rw [hfive] at hoctets
    rw [htext, scanMac, scanOctet_digits]
    simp only [Option.bind_eq_bind, Option.bind_some, hoctets, Option.pure_def]
    congr 1
    ext i hi
    simp [← hlist]

theorem macToText_inj {mac mac' : Mac} (h : macToText mac = macToText mac') : mac = mac' := by
  have := congrArg scanMac h
  rw [scanMac_macToText, scanMac_macToText] at this
  exact Option.some.inj this

/-! ## The table -/

/-- A row of `peers`, without what nothing reads back. -/
structure PeerRow where
  mac : Text
  name : Text
  description : Text
  deriving DecidableEq

/-- `UPDATE peers SET name=…, description=… WHERE mac=…` -/
def updateRow (row : PeerRow) (rows : List PeerRow) : List PeerRow :=
  rows.map fun other => if other.mac = row.mac then row else other

/-- `INSERT OR IGNORE`: the new id is above all others, so that the row comes last. -/
def insertRow? (row : PeerRow) (rows : List PeerRow) : List PeerRow :=
  if rows.any fun other => other.mac = row.mac then rows else rows ++ [row]

/-- `DELETE FROM peers WHERE mac=…` -/
def deleteRow (mac : Text) (rows : List PeerRow) : List PeerRow :=
  rows.filter fun row => row.mac ≠ mac

def PeerRow.cells (row : PeerRow) : ExecRow :=
  [(some "mac".toList, some row.mac), (some "name".toList, some row.name),
    (some "description".toList, some row.description)]

def listSql : Text := "SELECT mac,name,description FROM peers ORDER BY id ASC LIMIT 64;".toList

/-- The rows by id, and what SQLite does to them for a statement that reads as one of those about
peers and succeeds. A text is read up to its NUL. -/
structure PeersTable {W : Type} (P : Platform W) where
  rows : W → List PeerRow
  /-- `mac TEXT NOT NULL UNIQUE` -/
  unique : ∀ w, ((rows w).map PeerRow.mac).Nodup
  upsert : ∀ {sql now mac name description} w,
    tokens (cStr sql) = some (updateTokens now mac name description ++
      insertTokens now mac name description) →
    (P.exec sql w).1.rc = .ok →
    rows (P.exec sql w).2 =
      insertRow? ⟨mac, name, description⟩ (updateRow ⟨mac, name, description⟩ (rows w))
  update : ∀ {sql now mac name description} w,
    tokens (cStr sql) = some (updateTokens now mac name description) →
    (P.exec sql w).1.rc = .ok →
    rows (P.exec sql w).2 = updateRow ⟨mac, name, description⟩ (rows w)
  delete : ∀ {sql mac} w, tokens (cStr sql) = some (deleteTokens mac) →
    (P.exec sql w).1.rc = .ok → rows (P.exec sql w).2 = deleteRow mac (rows w)
  selectId : ∀ {sql mac} w, tokens (cStr sql) = some (selectTokens mac) →
    rows (P.exec sql w).2 = rows w
  list : ∀ w, rows (P.exec listSql w).2 = rows w ∧
    ((P.exec listSql w).1.rc = .ok →
      (P.exec listSql w).1.rows = ((rows w).take 64).map PeerRow.cells)
  takeMutex : ∀ timeoutMs w, rows (P.takeMutex timeoutMs w).2 = rows w
  time : ∀ w, rows (P.time w).2 = rows w
  millis : ∀ w, rows (P.millis w).2 = rows w
  print : ∀ text w, rows (P.print text w).2 = rows w

/-! ## The manager in the world -/

/-- A text of octets. -/
def octetsOf (text : Text) : Btp.Bytes := text.map fun c => UInt8.ofNat c.toNat

def textOf (octets : Btp.Bytes) : Text := octets.map fun octet => Char.ofNat octet.toNat

/-- The same world, with the device manager in it. -/
def managed {W : Type} (P : Platform W) (outcome : Nat → Bool) : Platform (W × Manager) :=
  { P.beside Manager with
    devices := fun w => w.2.devices.map fun device =>
      some
        { mac := device.mac, name := textOf device.name
          description := textOf device.description }
    deviceKnown := fun mac w => (findDeviceIndexByMac w.2 (some mac)).isSome
    addDevice := fun device w =>
      let added := EspNowManager.addDevice outcome w.2 (some device.mac)
        (some (octetsOf device.name)) (some (octetsOf device.description))
      (added.2, w.1, added.1) }

section

variable {W : Type} {P : Platform W} (T : PeersTable P) {outcome : Nat → Bool}

/-- What the operations on peers work on. -/
structure Book where
  rows : List PeerRow
  manager : Manager
  ready : Bool
  opened : Bool

def book (s : Store (W × Manager)) : Book := ⟨T.rows s.world.1, s.world.2, s.ready, s.db⟩

/-! ## Steps that change neither -/

theorem keeps_lock (timeoutMs : Nat) :
    Keeps (book T) (lockDb (managed P outcome) timeoutMs) := by
  intro s
  obtain ⟨mutex, w, hframe, hw⟩ := lockDb_frame (managed P outcome) timeoutMs s
  rw [hframe]
  rcases hw with rfl | rfl
  · rfl
  · unfold book
    dsimp only [managed, Platform.beside]
    rw [T.takeMutex]
    rfl

theorem keeps_log (text : Text) : Keeps (book T) (logLine (managed P outcome) text) := by
  refine Keeps.get.bind fun s => .ite (fun s => ?_) (.pure _)
  unfold book call
  dsimp only [managed, Platform.beside]
  rw [T.print]
  rfl

theorem keeps_opened : Keeps (book T) (isOpen : DbM (W × Manager) Bool) := fun _ => rfl

theorem keeps_unlock : Keeps (book T) (unlockDb : DbM (W × Manager) Unit) := fun _ => rfl

theorem keeps_epoch : Keeps (book T) (currentEpochSeconds (managed P outcome)) := by
  have htime : Keeps (book T) (call (managed P outcome).time) := by
    intro s
    unfold book call
    dsimp only [managed, Platform.beside]
    rw [T.time]
    rfl
  have hmillis : Keeps (book T) (call (managed P outcome).millis) := by
    intro s
    unfold book call
    dsimp only [managed, Platform.beside]
    rw [T.millis]
    rfl
  exact htime.bind fun _ => .ite (.pure _) (hmillis.bind fun _ => .pure _)

/-! ## Statements -/

/-- The book with the rows changed. -/
def Book.onRows (b : Book) (effect : List PeerRow → List PeerRow) : Book :=
  { b with rows := effect b.rows }

variable {b : Book} {sql : Text} {effect : List PeerRow → List PeerRow}

theorem ensures_execRows
    (hexec : ∀ w, (P.exec sql w).1.rc = .ok → T.rows (P.exec sql w).2 = effect (T.rows w)) :
    Ensures (book T · = b) (execRows (managed P outcome) sql)
      fun executed s => executed.rc = .ok → book T s = b.onRows effect := by
  refine ((keeps_opened T).ensures (· = b)).bind fun opened =>
    .ite (fun _ s _ hok => ?_) fun _ s hs hok => ?_
  · cases hok
  · rw [← hs]
    unfold Book.onRows book
    dsimp only
    rw [← hexec _ hok]
    rfl

theorem feed_passive (rows : List ExecRow) :
    (feed (fun _ context => (context, false)) () rows).2 = false := by
  induction rows with
  | nil => rfl
  | cons row rows ih => exact ih

theorem ensures_execute
    (hexec : ∀ w, (P.exec sql w).1.rc = .ok → T.rows (P.exec sql w).2 = effect (T.rows w)) :
    Ensures (book T · = b) (executeNoResult (managed P outcome) sql)
      fun ok s => ok = true → book T s = b.onRows effect := by
  have hsqlite : Ensures (book T · = b)
      (sqlite3Exec (managed P outcome) sql (fun _ context => (context, false)) ())
      fun result s => result.2.1 = .ok → book T s = b.onRows effect := by
    refine (ensures_execRows T hexec).bind fun executed s hs hok => hs ?_
    change (if (feed _ () executed.rows).2 then Rc.abort else executed.rc) = .ok at hok
    rw [feed_passive] at hok
    exact hok
  refine ((keeps_lock T _).ensures (· = b)).bind fun locked =>
    .ite (fun _ s _ hok => by cases hok) fun _ =>
      ((keeps_opened T).ensures (· = b)).bind fun opened =>
        .ite (fun _ s _ hok => by cases hok) fun _ =>
          hsqlite.bind fun result => .ite (fun _ => ?_) fun hrc => ?_
  · exact .of_post fun s hok => by cases hok
  · intro s hs _
    exact (keeps_unlock T s).trans (hs (not_not.1 hrc))

theorem keeps_query (hexec : ∀ w, T.rows (P.exec sql w).2 = T.rows w) :
    Keeps (book T) (querySingleInt (managed P outcome) sql) := by
  have hrows : Keeps (book T) (execRows (managed P outcome) sql) := by
    refine (keeps_opened T).bind fun opened => .ite (.pure _) fun s => ?_
    unfold book call
    dsimp only [managed, Platform.beside]
    rw [hexec]
    rfl
  have hsqlite : Keeps (book T) (sqlite3Exec (managed P outcome) sql queryIntCallback none) :=
    Keeps.bind hrows fun _ => .pure _
  have hrelease : ∀ result : Option Int, Keeps (book T) (do
      unlockDb
      return result : DbM (W × Manager) (Option Int)) := fun result =>
    (keeps_unlock T).bind fun _ => .pure _
  refine (keeps_lock T _).bind fun locked => .ite (.pure _) ((keeps_opened T).bind fun opened =>
    .ite (hrelease none) (Keeps.bind hsqlite fun result => .ite (hrelease none) ?_))
  split
  · exact hrelease none
  · exact hrelease _

/-! ## The operations on peers -/

section

variable (mac : Mac) {name description : Text}

theorem ensures_upsertPeer (hname : '\x00' ∉ name) (hdescription : '\x00' ∉ description) :
    Ensures (book T · = b)
      (upsertPeer (managed P outcome) (some mac) (some name) (some description))
      fun ok s => ok = true → book T s = b.onRows fun rows =>
        insertRow? ⟨macToText mac, name, description⟩
          (updateRow ⟨macToText mac, name, description⟩ rows) := by
  have hmac := notMem_macToText mac
  refine (Ensures.reads fun _ => rfl).bind fun ready => ?_
  cases ready with
  | false => exact .of_post fun _ hok => by cases hok
  | true =>
    refine ((keeps_epoch T).ensures (· = b)).bind fun now => ensures_execute T fun w => ?_
    exact T.upsert w (tokens_cStr (tokens_upsertSql now ..) (List.forall_mem_append.mpr
      ⟨nulFree_updateTokens _ hmac hname hdescription,
        nulFree_insertTokens _ hmac hname hdescription⟩))

theorem ensures_removePeer :
    Ensures (book T · = b) (removePeer (managed P outcome) (some mac))
      fun ok s => ok = true → book T s = b.onRows (deleteRow (macToText mac)) := by
  refine (Ensures.reads fun _ => rfl).bind fun ready => ?_
  cases ready with
  | false => exact .of_post fun _ hok => by cases hok
  | true =>
    exact ensures_execute T fun w => T.delete w
      (tokens_cStr (tokens_removePeerSql _) (nulFree_deleteTokens (notMem_macToText mac)))

theorem keeps_peerIdByMac : Keeps (book T) (peerIdByMac (managed P outcome) (some mac)) := by
  refine Keeps.bind (fun _ => rfl) fun ready => ?_
  cases ready with
  | false => exact .pure _
  | true =>
    exact keeps_query T fun w => T.selectId w
      (tokens_cStr (tokens_selectSql _) (nulFree_selectTokens (notMem_macToText mac)))

theorem ensures_updatePeerMetadata (hname : '\x00' ∉ name)
    (hdescription : '\x00' ∉ description) :
    Ensures (book T · = b)
      (updatePeerMetadata (managed P outcome) (some mac) (some name) (some description))
      fun ok s => ok = true →
        book T s = b.onRows (updateRow ⟨macToText mac, name, description⟩) := by
  refine (Ensures.reads fun _ => rfl).bind fun ready => ?_
  cases ready with
  | false => exact .of_post fun _ hok => by cases hok
  | true =>
    refine ((keeps_peerIdByMac T mac).ensures (· = b)).bind fun found =>
      .ite (fun _ => .of_post fun _ hok => by cases hok) fun _ =>
        ((keeps_epoch T).ensures (· = b)).bind fun now => ensures_execute T fun w => ?_
    exact T.update w (tokens_cStr (tokens_updatePeerSql now ..)
      (nulFree_updateTokens _ (notMem_macToText mac) hname hdescription))

end

/-! ## Loading -/

/-- What a row does to the registry when the peers are loaded. -/
def reload (outcome : Nat → Bool) (m : Manager) (row : PeerRow) : Manager :=
  match scanMac row.mac with
  | none => m
  | some mac =>
    if mac = Vector.replicate 6 0xFF then m
    else if (findDeviceIndexByMac m (some mac)).isSome then m
    else
      (EspNowManager.addDevice outcome m (some mac) (some (octetsOf row.name))
        (some (octetsOf row.description))).1

theorem shifts_loadPeer (row : PeerRow) (context : PeerLoadContext) :
    Shifts (book T) (fun b => { b with manager := reload outcome b.manager row })
      (loadPeer (managed P outcome) row.cells context) := by
  rintro ⟨db, hasIo, ready, mutex, w, m⟩
  unfold loadPeer PeerRow.cells reload
  dsimp only
  cases scanMac row.mac with
  | none => rfl
  | some mac =>
    by_cases hbroadcast : mac = Vector.replicate 6 0xFF
    · dsimp only
      rw [if_pos hbroadcast, if_pos hbroadcast]
      rfl
    · dsimp only
      rw [if_neg hbroadcast, if_neg hbroadcast]
      change book T ((if (findDeviceIndexByMac m (some mac)).isSome = true then _ else _ :
        DbM (W × Manager) PeerLoadContext) _).2 =
          ⟨_, if (findDeviceIndexByMac m (some mac)).isSome = true then _ else _, _, _⟩
      by_cases hknown : (findDeviceIndexByMac m (some mac)).isSome = true
      · rw [if_pos hknown, if_pos hknown]
        rfl
      · rw [if_neg hknown, if_neg hknown, run_bind, run_ite]
        split <;> rfl

/-- The book with the rows read into the registry. -/
def Book.reloaded (outcome : Nat → Bool) (b : Book) (rows : List PeerRow) : Book :=
  { b with manager := rows.foldl (reload outcome) b.manager }

theorem shifts_loadRows (rows : List PeerRow) (context : PeerLoadContext) :
    Shifts (book T) (·.reloaded outcome rows)
      (loadRows (managed P outcome) (rows.map PeerRow.cells) context) := by
  induction rows generalizing context with
  | nil => exact .pure _
  | cons row rows ih =>
    intro s
    exact (ih _ _).trans (congrArg (·.reloaded outcome rows) (shifts_loadPeer T row context s))

/-- The statement gave the rows, if it succeeded. -/
def Listed (b : Book) (executed : Executed) (s : Store (W × Manager)) : Prop :=
  book T s = b ∧ (executed.rc = .ok → executed.rows = (b.rows.take 64).map PeerRow.cells)

theorem ensures_listRows :
    Ensures (book T · = b) (execRows (managed P outcome) listSql) (Listed T b) := by
  refine ((keeps_opened T).ensures (· = b)).bind fun opened =>
    .ite (fun _ s hs => ⟨hs, fun hok => by cases hok⟩) fun _ s hs => ?_
  obtain ⟨hkept, hrows⟩ := T.list s.world.1
  refine ⟨?_, fun hok => ?_⟩
  · rw [← hs]
    unfold book
    rw [← hkept]
    rfl
  · rw [← hs]
    exact hrows hok

theorem ensures_loadPeers :
    Ensures (book T · = b) (loadPeers (managed P outcome)) fun ok s => ok = true →
      book T s = b.reloaded outcome (b.rows.take 64) := by
  refine (Ensures.reads fun _ => rfl).bind fun ready =>
    (Ensures.reads fun _ => rfl).bind fun opened =>
      .ite (fun _ => .of_post fun _ hok => by cases hok) fun _ =>
        ((keeps_lock T _).ensures (· = b)).bind fun locked =>
          .ite (fun _ => .of_post fun _ hok => by cases hok) fun _ =>
            (ensures_listRows T).bind fun executed => ?_
  by_cases hrc : executed.rc = .ok
  · have hload : Ensures (Listed T b executed) (loadRows (managed P outcome) executed.rows {})
        fun _ s => book T s = b.reloaded outcome (b.rows.take 64) := by
      rintro s ⟨hs, hrows⟩
      rw [hrows hrc]
      exact (shifts_loadRows T _ _ s).trans (congrArg (·.reloaded outcome (b.rows.take 64)) hs)
    refine hload.bind fun context => .ite (fun hfailed => absurd hrc hfailed) fun _ => ?_
    exact ((keeps_log T _).ensures (· = _)).bind fun _ =>
      ((keeps_unlock T).ensures (· = _)).bind fun _ s hs _ => hs
  · have hload : Ensures (Listed T b executed) (loadRows (managed P outcome) executed.rows {})
        fun _ _ => True :=
      fun _ _ => trivial
    refine hload.bind fun context => .ite (fun _ => ?_) fun hok => absurd (not_not.mp hok) hrc
    split
    · exact .of_post fun _ hok => by cases hok
    · exact .of_post fun _ hok => by cases hok

end

end BallyDongle.DatabaseStore
