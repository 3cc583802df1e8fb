import BallyDongle.DatabaseStore.Operations
import BallyDongle.Lib.Intercalate
import BallyDongle.Lib.SqlTokens
import BallyDongle.Lib.StateShift

/-!
# The statements about peers

The statements of `upsertPeer`, `updatePeerMetadata` and `removePeer`, token for token: what a
peer is called stays inside its literal.
-/

namespace BallyDongle.DatabaseStore

open BtpTransport StringCompat StateShift SqlTokens Quoted

variable {W : Type} {P : Platform W}

/-! ## Intended statements -/

def numberTokens (n : Int) : List Token :=
  if 0 ≤ n then [.number (Nat.toDigits 10 n.toNat)]
  else [.symbol '-', .number (Nat.toDigits 10 (-n).toNat)]

def word (name : String) : Token := .word name.toList

/-- `UPDATE peers SET name=…, description=…, updated_at=… WHERE mac=…;` -/
def updateTokens (now : Int) (macText name description : Text) : List Token :=
  [word "UPDATE", word "peers", word "SET", word "name", .symbol '=', .literal name, .symbol ',',
    word "description", .symbol '=', .literal description, .symbol ',', word "updated_at",
    .symbol '='] ++ numberTokens now ++
    [word "WHERE", word "mac", .symbol '=', .literal macText, .symbol ';']

/-- `INSERT OR IGNORE INTO peers(mac,name,description,created_at,updated_at) VALUES(…);` -/
def insertTokens (now : Int) (macText name description : Text) : List Token :=
  [word "INSERT", word "OR", word "IGNORE", word "INTO", word "peers", .symbol '(', word "mac",
    .symbol ',', word "name", .symbol ',', word "description", .symbol ',', word "created_at",
    .symbol ',', word "updated_at", .symbol ')', word "VALUES", .symbol '(', .literal macText,
    .symbol ',', .literal name, .symbol ',', .literal description, .symbol ','] ++
    numberTokens now ++ [.symbol ','] ++ numberTokens now ++ [.symbol ')', .symbol ';']

/-- `DELETE FROM peers WHERE mac=…;` -/
def deleteTokens (macText : Text) : List Token :=
  [word "DELETE", word "FROM", word "peers", word "WHERE", word "mac", .symbol '=',
    .literal macText, .symbol ';']

/-- `SELECT id FROM peers WHERE mac=… LIMIT 1;` -/
def selectTokens (macText : Text) : List Token :=
  [word "SELECT", word "id", word "FROM", word "peers", word "WHERE", word "mac", .symbol '=',
    .literal macText, word "LIMIT", .number ['1'], .symbol ';']

/-! ## Numbers -/

theorem decimal_eq (n : Int) :
    decimal n =
      if 0 ≤ n then Nat.toDigits 10 n.toNat else '-' :: Nat.toDigits 10 (-n).toNat := by
  rw [decimal, Int.toString_eq_repr, Int.repr_eq_if]
  split
  · exact Nat.toList_repr
  · rw [String.toList_append, Nat.toList_repr]
    rfl

theorem isDigit_of_mem_digits {n : Nat} {c : Char} (h : c ∈ Nat.toDigits 10 n) :
    c.isDigit = true :=
  Nat.isDigit_of_mem_toDigits (by decide) (by decide) h

theorem tokens_decimal (n : Int) : tokens (decimal n) = some (numberTokens n) := by
  have hdigits := fun m => tokens_number (@Nat.toDigits_ne_nil m 10) fun c => isDigit_of_mem_digits
  rw [decimal_eq, numberTokens]
  split
  · exact hdigits _
  · have happart : Apart ['-'] (Nat.toDigits 10 (-n).toNat) := by
      intro c hc d hd
      obtain rfl := Option.some.inj hc
      exact joins_minus (isDigit_of_mem_digits (List.mem_of_mem_head? hd))
    have hminus : tokens ['-'] = some [.symbol '-'] := by decide +kernel
    rw [← List.singleton_append, tokens_append hminus happart, hdigits]
    rfl

theorem decimal_starts (n : Int) : decimal n ≠ [] ∧ (decimal n).head? ≠ some '=' := by
  rw [decimal_eq]
  split
  · refine ⟨Nat.toDigits_ne_nil, fun hhead => ?_⟩
    exact absurd (isDigit_of_mem_digits (List.mem_of_mem_head? hhead)) (by decide)
  · exact ⟨nofun, nofun⟩

def number (n : Int) : Splice := ⟨decimal n, numberTokens n, tokens_decimal n, decimal_starts n⟩

/-! ## Frames -/

def updateFrame : Frame where
  text := "UPDATE peers SET name=".toList
  toks := [word "UPDATE", word "peers", word "SET", word "name", .symbol '=']
  reads := by decide +kernel
  ends := by decide +kernel

def descriptionLink : Link where
  text := ", description=".toList
  toks := [.symbol ',', word "description", .symbol '=']
  reads := by decide +kernel
  ends := by decide +kernel
  starts := by decide +kernel

def updatedAtLink : Link where
  text := ", updated_at=".toList
  toks := [.symbol ',', word "updated_at", .symbol '=']
  reads := by decide +kernel
  ends := by decide +kernel
  starts := by decide +kernel

def whereMacLink : Link where
  text := " WHERE mac=".toList
  toks := [word "WHERE", word "mac", .symbol '=']
  reads := by decide +kernel
  ends := by decide +kernel
  starts := by decide +kernel

def endLink : Link where
  text := ";".toList
  toks := [.symbol ';']
  reads := by decide +kernel
  ends := by decide +kernel
  starts := by decide +kernel

def insertFrame : Frame where
  text := "INSERT OR IGNORE INTO peers(mac,name,description,created_at,updated_at) VALUES(".toList
  toks := [word "INSERT", word "OR", word "IGNORE", word "INTO", word "peers", .symbol '(',
    word "mac", .symbol ',', word "name", .symbol ',', word "description", .symbol ',',
    word "created_at", .symbol ',', word "updated_at", .symbol ')', word "VALUES", .symbol '(']
  reads := by decide +kernel
  ends := by decide +kernel

def commaLink : Link where
  text := ",".toList
  toks := [.symbol ',']
  reads := by decide +kernel
  ends := by decide +kernel
  starts := by decide +kernel

def closeLink : Link where
  text := ");".toList
  toks := [.symbol ')', .symbol ';']
  reads := by decide +kernel
  ends := by decide +kernel
  starts := by decide +kernel

def deleteFrame : Frame where
  text := "DELETE FROM peers WHERE mac=".toList
  toks := [word "DELETE", word "FROM", word "peers", word "WHERE", word "mac", .symbol '=']
  reads := by decide +kernel
  ends := by decide +kernel

def selectFrame : Frame where
  text := "SELECT id FROM peers WHERE mac=".toList
  toks := [word "SELECT", word "id", word "FROM", word "peers", word "WHERE", word "mac",
    .symbol '=']
  reads := by decide +kernel
  ends := by decide +kernel

def limitLink : Link where
  text := " LIMIT 1;".toList
  toks := [word "LIMIT", .number ['1'], .symbol ';']
  reads := by decide +kernel
  ends := by decide +kernel
  starts := by decide +kernel

theorem escapeSqlText_eq (value : Text) : escapeSqlText value = double '\'' value := by
  rw [escapeSqlText, double]
  congr 1
  funext c
  split
  · rename_i hquote
    rw [hquote]
  · rfl

/-! ## Statements as filled frames -/

theorem updatePeerSql_eq (now : Int) (macText name description : Text) :
    updatePeerSql now macText name description =
      updateFrame.fill [(.literal name, descriptionLink), (.literal description, updatedAtLink),
        (number now, whereMacLink), (.literal macText, endLink)] := by
  -- the quotes of a literal are parts of the texts around it
  have hparts : ∀ a b c d e : Text, a = updateFrame.text ++ ['\''] →
      b = '\'' :: descriptionLink.text ++ ['\''] → c = '\'' :: updatedAtLink.text →
      d = whereMacLink.text ++ ['\''] → e = '\'' :: endLink.text →
      a ++ escapeSqlText name ++ b ++ escapeSqlText description ++ c ++ decimal now ++ d ++
        escapeSqlText macText ++ e = updateFrame.fill [(.literal name, descriptionLink),
          (.literal description, updatedAtLink), (number now, whereMacLink),
          (.literal macText, endLink)] := by
    rintro _ _ _ _ _ rfl rfl rfl rfl rfl
    simp [Frame.fill, Splice.literal, number, escapeSqlText_eq]
  exact hparts _ _ _ _ _ (by decide +kernel) (by decide +kernel) (by decide +kernel)
    (by decide +kernel) (by decide +kernel)

theorem insertPeerSql_eq (now : Int) (macText name description : Text) :
    insertPeerSql now macText name description =
      insertFrame.fill [(.literal macText, commaLink), (.literal name, commaLink),
        (.literal description, commaLink), (number now, commaLink), (number now, closeLink)] := by
  have hparts : ∀ a b c d e : Text, a = insertFrame.text ++ ['\''] →
      b = '\'' :: commaLink.text ++ ['\''] → c = '\'' :: commaLink.text → d = commaLink.text →
      e = closeLink.text →
      a ++ escapeSqlText macText ++ b ++ escapeSqlText name ++ b ++ escapeSqlText description ++ c ++
        decimal now ++ d ++ decimal now ++ e = insertFrame.fill [(.literal macText, commaLink),
          (.literal name, commaLink), (.literal description, commaLink), (number now, commaLink),
          (number now, closeLink)] := by
    rintro _ _ _ _ _ rfl rfl rfl rfl rfl
    simp [Frame.fill, Splice.literal, number, escapeSqlText_eq]
  exact hparts _ _ _ _ _ (by decide +kernel) (by decide +kernel) (by decide +kernel)
    (by decide +kernel) (by decide +kernel)

theorem removePeerSql_eq (macText : Text) :
    removePeerSql macText = deleteFrame.fill [(.literal macText, endLink)] := by
  have hparts : ∀ a b : Text, a = deleteFrame.text ++ ['\''] → b = '\'' :: endLink.text →
      a ++ escapeSqlText macText ++ b = deleteFrame.fill [(.literal macText, endLink)] := by
    rintro _ _ rfl rfl
    simp [Frame.fill, Splice.literal, escapeSqlText_eq]
  exact hparts _ _ (by decide +kernel) (by decide +kernel)

theorem selectSql_eq (macText : Text) :
    selectSql macText =
      selectFrame.fill [(.literal macText, limitLink)] := by
  have hparts : ∀ a b : Text, a = selectFrame.text ++ ['\''] → b = '\'' :: limitLink.text →
      a ++ escapeSqlText macText ++ b = selectFrame.fill [(.literal macText, limitLink)] := by
    rintro _ _ rfl rfl
    simp [Frame.fill, Splice.literal, escapeSqlText_eq]
  exact hparts _ _ (by decide +kernel) (by decide +kernel)

theorem tokens_updatePeerSql (now : Int) (macText name description : Text) :
    tokens (updatePeerSql now macText name description) =
      some (updateTokens now macText name description) := by
  rw [updatePeerSql_eq, Frame.tokens_fill, Frame.fillToks, updateTokens]
  simp only [List.flatMap_cons, List.flatMap_nil, List.append_nil, List.append_assoc]
  rfl

theorem tokens_insertPeerSql (now : Int) (macText name description : Text) :
    tokens (insertPeerSql now macText name description) =
      some (insertTokens now macText name description) := by
  rw [insertPeerSql_eq, Frame.tokens_fill, Frame.fillToks, insertTokens]
  simp only [List.flatMap_cons, List.flatMap_nil, List.append_nil, List.append_assoc]
  rfl

/-- The two statements of `upsertPeer` are one text. -/
theorem tokens_upsertSql (now : Int) (macText name description : Text) :
    tokens (updatePeerSql now macText name description ++
        insertPeerSql now macText name description) =
      some (updateTokens now macText name description ++
        insertTokens now macText name description) := by
  have happart : Apart (updatePeerSql now macText name description)
      (insertPeerSql now macText name description) := by
    have hlast : ∀ before after : Text, after = '\'' :: endLink.text →
        (before ++ after).getLast? = some ';' := by
      rintro before _ rfl
      rw [List.getLast?_append_of_ne_nil _ (List.cons_ne_nil _ _)]
      decide +kernel
    intro c hc d _
    have hend : (updatePeerSql now macText name description).getLast? = some ';' :=
      hlast _ _ (by decide +kernel)
    obtain rfl := Option.some.inj (hend.symm.trans hc)
    exact joins_of_isSeparator (.inl (by decide))
  rw [tokens_append (tokens_updatePeerSql ..) happart, tokens_insertPeerSql]
  rfl

theorem tokens_removePeerSql (macText : Text) :
    tokens (removePeerSql macText) = some (deleteTokens macText) := by
  rw [removePeerSql_eq, Frame.tokens_fill]
  rfl

theorem tokens_selectSql (macText : Text) :
    tokens (selectSql macText) = some (selectTokens macText) := by
  rw [selectSql_eq, Frame.tokens_fill]
  rfl

/-! ## Texts without NUL -/

/-- A literal in the token has no NUL in it. -/
def NulFree : Token → Prop
  | .literal text => '\x00' ∉ text
  | _ => True

@[simp] theorem nulFree_word (name : String) : NulFree (word name) := trivial
@[simp] theorem nulFree_symbol (c : Char) : NulFree (.symbol c) := trivial
@[simp] theorem nulFree_number (digits : Text) : NulFree (.number digits) := trivial
@[simp] theorem nulFree_literal (text : Text) : NulFree (.literal text) ↔ '\x00' ∉ text := Iff.rfl

theorem notMem_macToText (mac : Mac) : '\x00' ∉ macToText mac := by
  have hdigit : ∀ v < 16, Hex.digit v ≠ '\x00' := by decide
  intro hmem
  rcases Intercalate.mem_intercalate hmem with hcolon | ⟨octetText, hoctet, hmem⟩
  · exact absurd hcolon (by decide)
  · obtain ⟨octet, -, rfl⟩ := List.mem_map.mp hoctet
    rw [Hex.digits_eq_map] at hmem
    obtain ⟨v, hv, hv0⟩ := List.mem_map.mp hmem
    exact hdigit v (Hex.nibbles_lt hv) hv0

section

variable {macText name description : Text}

theorem nulFree_numberTokens (n : Int) : ∀ t ∈ numberTokens n, NulFree t := by
  rw [numberTokens]
  split
  · simp
  · simp

theorem nulFree_updateTokens (now : Int) (hmac : '\x00' ∉ macText) (hname : '\x00' ∉ name)
    (hdescription : '\x00' ∉ description) :
    ∀ t ∈ updateTokens now macText name description, NulFree t := by
  simp only [updateTokens, List.forall_mem_append, List.forall_mem_cons, nulFree_word,
    nulFree_symbol, nulFree_literal]
  simpa [hmac, hname, hdescription] using nulFree_numberTokens now

theorem nulFree_insertTokens (now : Int) (hmac : '\x00' ∉ macText) (hname : '\x00' ∉ name)
    (hdescription : '\x00' ∉ description) :
    ∀ t ∈ insertTokens now macText name description, NulFree t := by
  simp only [insertTokens, List.forall_mem_append, List.forall_mem_cons, nulFree_word,
    nulFree_symbol, nulFree_literal]
  simpa [hmac, hname, hdescription] using nulFree_numberTokens now

theorem nulFree_deleteTokens (hmac : '\x00' ∉ macText) :
    ∀ t ∈ deleteTokens macText, NulFree t := by
  simp only [deleteTokens, List.forall_mem_cons, nulFree_word, nulFree_symbol, nulFree_literal]
  simp [hmac]

theorem nulFree_selectTokens (hmac : '\x00' ∉ macText) :
    ∀ t ∈ selectTokens macText, NulFree t := by
  simp only [selectTokens, List.forall_mem_cons, nulFree_word, nulFree_symbol, nulFree_literal]
  simp [hmac]

end

/-! ## Runs -/

/-- The same world, with a list of the texts that `sqlite3_exec` was called with. -/
def logged (P : Platform W) : Platform (W × List Text) :=
  { P.beside (List Text) with
    exec := fun sql w => ((P.exec sql w.1).1, (P.exec sql w.1).2, w.2 ++ [sql]) }

abbrev Log : Store (W × List Text) → List Text := fun s => s.world.2

theorem keeps_lockDb (timeoutMs : Nat) : Keeps Log (lockDb (logged P) timeoutMs) := by
  intro s
  obtain ⟨mutex, w, hframe, hw⟩ := lockDb_frame (logged P) timeoutMs s
  rw [hframe]
  rcases hw with rfl | rfl
  · rfl
  · rfl

theorem keeps_isOpen : Keeps Log (isOpen : DbM (W × List Text) Bool) := fun _ => rfl

theorem keeps_unlockDb : Keeps Log (unlockDb : DbM (W × List Text) Unit) := fun _ => rfl

theorem keeps_logError (message : Option Text) : Keeps Log (logError (logged P) message) := by
  cases message with
  | none => exact .pure _
  | some message => exact Keeps.get.bind fun _ => .ite (fun _ => rfl) (.pure _)

theorem keeps_currentEpochSeconds : Keeps Log (currentEpochSeconds (logged P)) :=
  Keeps.bind (fun _ => rfl) fun _ => .ite (.pure _) (Keeps.bind (fun _ => rfl) fun _ => .pure _)

section

variable {log : List Text} {sql : Text}

/-- The text was handed to `sqlite3_exec`, or nothing was and the call failed. -/
def Tried {α : Type} (log : List Text) (sql : Text) (failed : α → Prop) (a : α)
    (s : Store (W × List Text)) : Prop :=
  Log s = log ++ [sql] ∨ failed a ∧ Log s = log

theorem Tried.keeps {α β : Type} {failed : α → Prop} {failed' : β → Prop} {m : DbM (W × List Text) β}
    (hm : Keeps Log m) (a : α) (h : ∀ s, failed a → failed' (m s).1) :
    Ensures (Tried log sql failed a) m (Tried log sql failed') := fun s hs =>
  hs.imp (hm s).trans fun ⟨ha, hlog⟩ => ⟨h s ha, (hm s).trans hlog⟩

theorem tried_execRows :
    Ensures (Log · = log) (execRows (logged P) sql) (Tried log sql fun result => result.rc ≠ .ok) := by
  refine (keeps_isOpen.ensures (· = log)).bind fun opened => .ite (fun _ s hs => ?_) fun _ s hs => ?_
  · exact .inr ⟨nofun, hs⟩
  · exact .inl (congrArg (· ++ [sql]) hs)

theorem tried_sqlite3Exec {σ : Type} (callback : ExecRow → σ → σ × Bool) (context : σ) :
    Ensures (Log · = log) (sqlite3Exec (logged P) sql callback context)
      (Tried log sql fun result => result.2.1 ≠ .ok) := by
  refine tried_execRows.bind fun executed => Tried.keeps (.pure _) executed fun s hfailed => ?_
  show (if (feed callback context executed.rows).2 then Rc.abort else executed.rc) ≠ .ok
  split
  · nofun
  · exact hfailed

theorem tried_executeNoResult (P : Platform W) (log : List Text) (sql : Text) :
    Ensures (Log · = log) (executeNoResult (logged P) sql) (Tried log sql (· = false)) := by
  refine ((keeps_lockDb _).ensures (· = log)).bind fun locked =>
    .ite (fun _ s hs => .inr ⟨rfl, hs⟩) fun _ => (keeps_isOpen.ensures (· = log)).bind fun opened =>
      .ite (fun _ s hs => .inr ⟨rfl, hs⟩) fun _ => (tried_sqlite3Exec _ _).bind fun result =>
        .ite (fun _ => ?_) fun hok => ?_
  · refine Tried.keeps ((keeps_logError _).bind fun _ => ?_) result fun _ _ => rfl
    exact keeps_unlockDb.bind fun _ => .pure _
  · refine Tried.keeps (keeps_unlockDb.bind fun _ => .pure _) result fun _ hfailed => ?_
    exact absurd hfailed hok

theorem tried_querySingleInt (P : Platform W) (log : List Text) (sql : Text) :
    Ensures (Log · = log) (querySingleInt (logged P) sql) (Tried log sql (· = none)) := by
  refine ((keeps_lockDb _).ensures (· = log)).bind fun locked =>
    .ite (fun _ s hs => .inr ⟨rfl, hs⟩) fun _ => (keeps_isOpen.ensures (· = log)).bind fun opened =>
      .ite (fun _ s hs => .inr ⟨rfl, hs⟩) fun _ => (tried_sqlite3Exec _ _).bind fun result =>
        .ite (fun _ => ?_) fun hok => ?_
  · exact Tried.keeps (keeps_unlockDb.bind fun _ => .pure _) result fun _ _ => rfl
  · split
    · exact Tried.keeps (keeps_unlockDb.bind fun _ => .pure _) result fun _ _ => rfl
    · refine Tried.keeps (keeps_unlockDb.bind fun _ => .pure _) result fun _ hfailed => ?_
      exact absurd hfailed hok

/-- The texts handed to `sqlite3_exec` read as the intended statements, in their order; when the
operation succeeds, all of them were handed over. -/
def Issued (log : List Text) (intended : List (List Token)) (ok : Bool)
    (s : Store (W × List Text)) : Prop :=
  ∃ texts, Log s = log ++ texts ∧
    texts.map (fun text => tokens (cStr text)) <+: intended.map some ∧
      (ok = true → texts.length = intended.length)

theorem tokens_cStr {ts : List Token} (h : tokens sql = some ts) (hts : ∀ t ∈ ts, NulFree t) :
    tokens (cStr sql) = some ts := by
  rw [cStr_of_notMem fun hnul => ?_, h]
  obtain ⟨literal, hliteral, hmem⟩ :=
    mem_literal_of_tokens h ⟨by decide, by decide, by decide⟩ hnul
  exact hts _ hliteral hmem

theorem issued_none {intended : List (List Token)} {s : Store (W × List Text)} (hs : Log s = log) :
    Issued log intended false s :=
  ⟨[], by rw [hs, List.append_nil], List.nil_prefix, nofun⟩

theorem issued_execute {ts : List Token} {s : Store (W × List Text)} (h : tokens sql = some ts)
    (hts : ∀ t ∈ ts, NulFree t) (hlog : Log s = log) :
    Issued log [ts] (executeNoResult (logged P) sql s).1 (executeNoResult (logged P) sql s).2 := by
  rcases tried_executeNoResult P log sql s hlog with hlog | ⟨hfailed, hlog⟩
  · refine ⟨[sql], hlog, ?_, fun _ => rfl⟩
    simp [tokens_cStr h hts]
  · rw [hfailed]
    exact issued_none hlog

/-- A text that reads as the first statement, then the others. -/
theorem Issued.cons {ts : List Token} {intended : List (List Token)} {ok : Bool}
    {s : Store (W × List Text)} (hs : Issued (log ++ [sql]) intended ok s)
    (h : tokens sql = some ts)
    (hts : ∀ t ∈ ts, NulFree t) : Issued log (ts :: intended) ok s := by
  obtain ⟨texts, hlog, hprefix, hlength⟩ := hs
  refine ⟨sql :: texts, by rw [hlog, List.append_assoc, List.singleton_append], ?_, fun hok => ?_⟩
  · rw [List.map_cons, List.map_cons, tokens_cStr h hts]
    exact List.cons_prefix_cons.mpr ⟨rfl, hprefix⟩
  · rw [List.length_cons, List.length_cons, hlength hok]

theorem upsertPeer_issued (P : Platform W) (mac : Mac) {name description : Option Text}
    (hname : '\x00' ∉ name.getD []) (hdescription : '\x00' ∉ description.getD [])
    (s : Store (W × List Text)) :
    ∃ now, Issued (Log s)
      [updateTokens now (macToText mac) (name.getD []) (description.getD []) ++
        insertTokens now (macToText mac) (name.getD []) (description.getD [])]
      (upsertPeer (logged P) (some mac) name description s).1
      (upsertPeer (logged P) (some mac) name description s).2 := by
  rcases s with ⟨db, hasIo, ready, mutex, world⟩
  have hmac := notMem_macToText mac
  cases ready with
  | false => exact ⟨0, issued_none rfl⟩
  | true =>
    refine ⟨(currentEpochSeconds (logged P) ⟨db, hasIo, true, mutex, world⟩).1, ?_⟩
    exact issued_execute (tokens_upsertSql ..) (List.forall_mem_append.mpr
      ⟨nulFree_updateTokens _ hmac hname hdescription, nulFree_insertTokens _ hmac hname hdescription⟩)
      (keeps_currentEpochSeconds _)

theorem removePeer_issued (P : Platform W) (mac : Mac) (s : Store (W × List Text)) :
    Issued (Log s) [deleteTokens (macToText mac)] (removePeer (logged P) (some mac) s).1
      (removePeer (logged P) (some mac) s).2 := by
  rcases s with ⟨db, hasIo, ready, mutex, world⟩
  cases ready with
  | false => exact issued_none rfl
  | true =>
    exact issued_execute (tokens_removePeerSql _) (nulFree_deleteTokens (notMem_macToText mac)) rfl

theorem updatePeerMetadata_issued (P : Platform W) (mac : Mac) {name description : Option Text}
    (hname : '\x00' ∉ name.getD []) (hdescription : '\x00' ∉ description.getD [])
    (s : Store (W × List Text)) :
    ∃ now, Issued (Log s)
      [selectTokens (macToText mac),
        updateTokens now (macToText mac) (name.getD []) (description.getD [])]
      (updatePeerMetadata (logged P) (some mac) name description s).1
      (updatePeerMetadata (logged P) (some mac) name description s).2 := by
  rcases s with ⟨db, hasIo, ready, mutex, world⟩
  have hmac := notMem_macToText mac
  cases ready with
  | false => exact ⟨0, issued_none rfl⟩
  | true =>
    generalize hs : (⟨db, hasIo, true, mutex, world⟩ : Store (W × List Text)) = s
    let found := peerIdByMac (logged P) (some mac) s
    refine ⟨(currentEpochSeconds (logged P) found.2).1, ?_⟩
    have hselect : Tried (Log s) (selectSql (macToText mac)) (· = none) found.1 found.2 := by
      subst hs
      exact tried_querySingleInt P _ (selectSql (macToText mac)) _ rfl
    have hresult : updatePeerMetadata (logged P) (some mac) name description s =
        if found.1.isNone then (false, found.2)
        else (do
          let now ← currentEpochSeconds (logged P)
          executeNoResult (logged P)
            (updatePeerSql now (macToText mac) (name.getD []) (description.getD [])) :
            DbM (W × List Text) Bool) found.2 := by
      subst hs
      exact run_ite _ _ _ _
    rw [hresult]
    split
    · rcases hselect with hlog | ⟨-, hlog⟩
      · exact Issued.cons (issued_none hlog) (tokens_selectSql _) (nulFree_selectTokens hmac)
      · exact issued_none hlog
    · rename_i hfound
      rcases hselect with hlog | ⟨hnone, -⟩
      · exact Issued.cons (issued_execute (tokens_updatePeerSql ..)
          (nulFree_updateTokens _ hmac hname hdescription)
          ((keeps_currentEpochSeconds _).trans hlog)) (tokens_selectSql _)
          (nulFree_selectTokens hmac)
      · exact absurd (Option.isNone_iff_eq_none.mpr hnone) hfound

/-- Whatever a peer is called, the operations on it make these statements and no others, with
the name and the description in their literals. -/
theorem peer_statements_tokenize (P : Platform W) (mac : Mac) {name description : Option Text}
    (hname : '\x00' ∉ name.getD []) (hdescription : '\x00' ∉ description.getD [])
    (s : Store (W × List Text)) :
    let macText := macToText mac
    let nameText := name.getD []
    let descriptionText := description.getD []
    (∃ now, Issued (Log s)
      [updateTokens now macText nameText descriptionText ++
        insertTokens now macText nameText descriptionText]
      (upsertPeer (logged P) (some mac) name description s).1
      (upsertPeer (logged P) (some mac) name description s).2) ∧
    (∃ now, Issued (Log s)
      [selectTokens macText, updateTokens now macText nameText descriptionText]
      (updatePeerMetadata (logged P) (some mac) name description s).1
      (updatePeerMetadata (logged P) (some mac) name description s).2) ∧
    Issued (Log s) [deleteTokens macText] (removePeer (logged P) (some mac) s).1
      (removePeer (logged P) (some mac) s).2 :=
  ⟨upsertPeer_issued P mac hname hdescription s,
    updatePeerMetadata_issued P mac hname hdescription s, removePeer_issued P mac s⟩

end

theorem peer_statements_tokenize_quoted :
    let P : Platform Unit := { noCard Unit with exec := fun _ w => ({ rc := .ok }, w) }
    let s : Store (Unit × List Text) := { db := true, ready := true, world := ((), []) }
    let mac : Mac := Vector.replicate 6 0xAB
    let name := "'; DROP TABLE peers; --".toList
    let macText := macToText mac
    (∃ now, Issued (Log s) [updateTokens now macText name [] ++ insertTokens now macText name []]
      (upsertPeer (logged P) (some mac) (some name) none s).1
      (upsertPeer (logged P) (some mac) (some name) none s).2) ∧
    (∃ now, Issued (Log s) [selectTokens macText, updateTokens now macText name []]
      (updatePeerMetadata (logged P) (some mac) (some name) none s).1
      (updatePeerMetadata (logged P) (some mac) (some name) none s).2) ∧
    Issued (Log s) [deleteTokens macText] (removePeer (logged P) (some mac) s).1
      (removePeer (logged P) (some mac) s).2 :=
  @peer_statements_tokenize _ _ _ (some "'; DROP TABLE peers; --".toList) none (by decide +kernel)
    (by decide) _

end BallyDongle.DatabaseStore
