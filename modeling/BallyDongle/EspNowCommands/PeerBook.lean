import BallyDongle.DatabaseStore.PeerTable
import BallyDongle.Lib.Run
import BallyDongle.ShellCommandSupport

/-!
# The peer book

The commands of `EspNowCommands.cpp` that change the peers. Each works on the device registry
and, when that succeeds, on the table of peers, from which the registry is filled after a
restart. As long as no command warns, the two hold the same peers in the same order.
-/

namespace BallyDongle.EspNowCommands.PeerBook

open BtpTransport EspNowManager DatabaseStore ShellCommandSupport StringCompat StateShift

/-! ## The commands -/

inductive Code
  | INVALID_MAC_FORMAT | INVALID_DEVICE_INDEX | PEER_ADD_FAILED | PEER_REMOVE_FAILED
  | PEER_NOT_FOUND | PEER_UPDATE_FAILED | DATABASE_PEER_NOT_PERSISTED
  | DATABASE_PEER_REMOVE_NOT_PERSISTED | DATABASE_PEER_UPDATE_NOT_PERSISTED
  deriving DecidableEq

/-- What a command fails with, or what it warns of, if anything, and the text it gives to
`printLine`. -/
abbrev Result := Except (Code × Text) (Option (Code × Text) × Text)

def parseMacAddress (text : Text) : Option Mac := scanMac (cStr (stripOuterQuotes text))

section

variable {W : Type} (P : Platform W) (outcome : Nat → Bool)

/-- A call of the device manager. -/
def onManager (f : Manager → Manager × Bool) : DbM (W × Manager) Bool :=
  call fun w => ((f w.2).2, w.1, (f w.2).1)

/-- A store that is not ready is left alone. -/
def persist (write : DbM (W × Manager) Bool) (warning : Code × Text) :
    DbM (W × Manager) (Option (Code × Text)) := do
  if ← isReady then
    if ← write then return none
    return some warning
  return none

def invalidMac : Result :=
  .error (.INVALID_MAC_FORMAT, "MAC invalido. Use formato AA:BB:CC:DD:EE:FF".toList)

def invalidIndex : Result :=
  .error (.INVALID_DEVICE_INDEX, "indice invalido. Use valores >= 1".toList)

def wrapper_espnow_add (macText name description : Text) : DbM (W × Manager) Result := do
  match parseMacAddress macText with
  | none => return invalidMac
  | some mac =>
    let name := cStr (stripOuterQuotes name)
    let description := cStr (stripOuterQuotes description)
    if ← onManager fun m =>
        addDevice outcome m (some mac) (some (octetsOf name)) (some (octetsOf description)) then
      let warning ← persist
        (upsertPeer (managed P outcome) (some mac) (some name) (some description))
        (.DATABASE_PEER_NOT_PERSISTED, "peer adicionado, mas nao persistido".toList)
      return .ok (warning, "[espnow] dispositivo adicionado".toList)
    return .error (.PEER_ADD_FAILED, "falha ao adicionar dispositivo".toList)

/-- What the table is told of a removal. -/
def persistRemoval (removed : Mac) : DbM (W × Manager) (Option (Code × Text)) :=
  persist (removePeer (managed P outcome) (some removed))
    (.DATABASE_PEER_REMOVE_NOT_PERSISTED, "peer removido, mas persistencia nao atualizada".toList)

def wrapper_espnow_remove (deviceNumber : Int) : DbM (W × Manager) Result := do
  if deviceNumber ≤ 0 then return invalidIndex
  let index := (deviceNumber - 1).toNat
  let removed ← ask fun w => w.2.devices[index]?
  if ← onManager fun m => removeDeviceByIndex outcome m index then
    match removed with
    | none => return .ok (none, "[espnow] dispositivo removido".toList)
    | some removed =>
      return .ok (← persistRemoval P outcome removed.mac, "[espnow] dispositivo removido".toList)
  return .error (.PEER_REMOVE_FAILED, "indice invalido".toList)

def wrapper_espnow_remove_mac (macText : Text) : DbM (W × Manager) Result := do
  match parseMacAddress macText with
  | none => return invalidMac
  | some mac =>
    if ← onManager fun m => removeDeviceByMac outcome m (some mac) then
      return .ok (← persistRemoval P outcome mac, "[espnow] dispositivo removido por MAC".toList)
    return .error (.PEER_NOT_FOUND, "MAC nao encontrado".toList)

def wrapper_espnow_update (deviceNumber : Int) (name description : Text) :
    DbM (W × Manager) Result := do
  if deviceNumber ≤ 0 then return invalidIndex
  let index := (deviceNumber - 1).toNat
  let safeName := cStr (stripOuterQuotes name)
  let safeDescription := cStr (stripOuterQuotes description)
  if ← onManager fun m =>
      updateDeviceByIndex m index (some (octetsOf safeName)) (some (octetsOf safeDescription)) then
    match ← ask fun w => w.2.devices[index]? with
    | none => return .ok (none, "[espnow] peer atualizado".toList)
    | some updated =>
      let warning ← persist
        (updatePeerMetadata (managed P outcome) (some updated.mac) (some safeName)
          (some safeDescription))
        (.DATABASE_PEER_UPDATE_NOT_PERSISTED,
          "peer atualizado em memoria, mas nao persistido".toList)
      return .ok (warning, "[espnow] peer atualizado".toList)
  return .error (.PEER_UPDATE_FAILED, "indice invalido para update".toList)

end

/-! ## The peers both tables show -/

/-- A peer by the text of its address, with what of its texts a device has room for. -/
@[ext]
structure Peer where
  mac : Text
  name : Btp.Bytes
  description : Btp.Bytes
  deriving DecidableEq

def Peer.ofDevice (device : DeviceInfo) : Peer :=
  ⟨macToText device.mac, device.name, device.description⟩

def Peer.ofRow (row : PeerRow) : Peer :=
  ⟨row.mac, copyText DEVICE_NAME_SIZE (some (octetsOf row.name)),
    copyText DEVICE_DESCRIPTION_SIZE (some (octetsOf row.description))⟩

def broadcast : Mac := Vector.replicate 6 0xFF

/-- Without the broadcast peer, which stays virtual. -/
def real (peers : List Peer) : List Peer := peers.filter fun peer => peer.mac ≠ macToText broadcast

def registered (m : Manager) : List Peer := m.devices.map Peer.ofDevice

def stored (rows : List PeerRow) : List Peer := rows.map Peer.ofRow

def remove (mac : Text) (peers : List Peer) : List Peer := peers.filter fun peer => peer.mac ≠ mac

def rename (peer : Peer) (peers : List Peer) : List Peer :=
  peers.map fun other => if other.mac = peer.mac then peer else other

/-- The tables agree, and the store is there to be written. -/
structure InStep (b : Book) : Prop where
  ready : b.ready = true
  opened : b.opened = true
  initialized : b.manager.initialized = true
  sound : Sound b.manager
  same : real (stored b.rows) = real (registered b.manager)

section

variable {peer : Peer}

theorem real_append_broadcast (h : peer.mac = macToText broadcast) (peers : List Peer) :
    real (peers ++ [peer]) = real peers := by
  rw [real, List.filter_append, List.filter_cons_of_neg (by simpa using h), List.filter_nil,
    List.append_nil]
  rfl

theorem real_append (h : peer.mac ≠ macToText broadcast) (peers : List Peer) :
    real (peers ++ [peer]) = real peers ++ [peer] := by
  rw [real, List.filter_append, List.filter_cons_of_pos (by simpa using h), List.filter_nil]
  rfl

theorem real_remove (mac : Text) (peers : List Peer) :
    real (remove mac peers) = remove mac (real peers) := by
  rw [real, remove, real, remove, List.filter_filter, List.filter_filter]
  exact List.filter_congr fun peer _ => Bool.and_comm ..

theorem real_rename (peer : Peer) (peers : List Peer) :
    real (rename peer peers) = rename peer (real peers) := by
  rw [real, rename, List.filter_map]
  refine congrArg _ (List.filter_congr fun other _ => ?_)
  by_cases h : other.mac = peer.mac
  · simp [h]
  · simp [h]

/-- The broadcast peer may be called what it likes. -/
theorem real_rename_broadcast (h : peer.mac = macToText broadcast)
    (peers : List Peer) : real (rename peer peers) = real peers := by
  rw [real_rename, rename]
  refine (List.map_congr_left fun other hother => ?_).trans (List.map_id _)
  rw [if_neg]
  · rfl
  · rw [h]
    simpa using (List.mem_filter.1 hother).2

theorem mem_real {peers : List Peer} :
    peer ∈ real peers ↔ peer ∈ peers ∧ peer.mac ≠ macToText broadcast := by
  rw [real, List.mem_filter, decide_eq_true_eq]

end

/-! ## Rows -/

section rows

variable {row : PeerRow} {rows : List PeerRow}

theorem stored_deleteRow (mac : Text) (rows : List PeerRow) :
    stored (deleteRow mac rows) = remove mac (stored rows) := by
  rw [stored, deleteRow, stored, remove, List.filter_map]
  rfl

theorem stored_updateRow (row : PeerRow) (rows : List PeerRow) :
    stored (updateRow row rows) = rename (.ofRow row) (stored rows) := by
  rw [stored, updateRow, stored, rename, List.map_map, List.map_map]
  refine List.map_congr_left fun other _ => ?_
  exact apply_ite Peer.ofRow ..

theorem updateRow_of_notMem (h : row.mac ∉ rows.map PeerRow.mac) : updateRow row rows = rows := by
  refine (List.map_congr_left fun other hother => ?_).trans (List.map_id _)
  exact if_neg fun hmac => h (List.mem_map.2 ⟨other, hother, hmac⟩)

theorem insertRow_of_notMem (h : row.mac ∉ rows.map PeerRow.mac) :
    insertRow? row rows = rows ++ [row] := by
  refine if_neg fun hany => h ?_
  obtain ⟨other, hother, hmac⟩ := List.any_eq_true.1 hany
  exact List.mem_map.2 ⟨other, hother, of_decide_eq_true hmac⟩

/-- A row of the broadcast peer leaves the other peers as they are. -/
theorem real_upsert_broadcast (h : row.mac = macToText broadcast) :
    real (stored (insertRow? row (updateRow row rows))) = real (stored rows) := by
  have hupdate : real (stored (updateRow row rows)) = real (stored rows) := by
    rw [stored_updateRow]
    exact real_rename_broadcast h _
  unfold insertRow?
  split
  · exact hupdate
  · rw [stored, List.map_append, List.map_singleton, real_append_broadcast h]
    exact hupdate

theorem real_upsert_new (h : row.mac ∉ rows.map PeerRow.mac)
    (hmac : row.mac ≠ macToText broadcast) :
    real (stored (insertRow? row (updateRow row rows))) = real (stored rows) ++ [.ofRow row] := by
  rw [updateRow_of_notMem h, insertRow_of_notMem h, stored, List.map_append, List.map_singleton,
    real_append hmac]
  rfl

end rows

/-! ## Devices -/

section devices

variable {outcome : Nat → Bool} {m : Manager} {mac : Mac} {index : Nat} {device : DeviceInfo}
  {name description : Option Btp.Bytes}

theorem addDevice_eq (hinit : m.initialized = true)
    (h : (addDevice outcome m (some mac) name description).2 = true) :
    mac ∉ macs m ∧ addDevice outcome m (some mac) name description =
      ({ m with
          driver := (addPeerToEspNow outcome m.driver mac).1
          devices := m.devices ++
            [{ mac, name := copyText DEVICE_NAME_SIZE name
               description := copyText DEVICE_DESCRIPTION_SIZE description }] }, true) := by
  unfold addDevice at h ⊢
  dsimp only at h ⊢
  rw [hinit] at h ⊢
  split at h
  · cases h
  · rename_i hroom
    split at h
    · cases h
    · rename_i hnew
      rw [if_neg hroom, if_neg hnew]
      rw [Option.isSome_iff_ne_none, not_not] at hnew
      refine ⟨findDeviceIndexByMac_eq_none hnew, ?_⟩
      cases hadded : (addPeerToEspNow outcome m.driver mac).2 with
      | false => simp [hadded] at h
      | true => simp [hadded]

theorem removeDeviceByIndex_eq (hinit : m.initialized = true)
    (h : m.devices[index]? = some device) :
    removeDeviceByIndex outcome m index =
      ({ m with
          driver := (removePeerFromEspNow outcome m.driver device.mac).1
          devices := m.devices.eraseIdx index }, true) := by
  obtain ⟨hnone, -⟩ | ⟨found, hfound, e⟩ := @removeDeviceByIndex_cases outcome _ hinit index
  · rw [hnone] at h
    cases h
  · rw [hfound] at h
    cases h
    exact e

/-- A removed device is gone from the list by its address. -/
theorem registered_eraseIdx (hm : Sound m) (h : m.devices[index]? = some device) :
    (m.devices.eraseIdx index).map Peer.ofDevice =
      remove (macToText device.mac) (registered m) := by
  rw [eraseIdx_eq_filter hm h, registered, remove, List.filter_map]
  refine congrArg _ (List.filter_congr fun other _ => ?_)
  refine decide_eq_decide.2 (not_congr ⟨fun hmac => ?_, fun hmac => ?_⟩)
  · exact congrArg macToText (Option.some.inj hmac)
  · exact congrArg some (macToText_inj hmac)

theorem registered_modify (hm : Sound m) (h : m.devices[index]? = some device) :
    (m.devices.modify index fun other => other.rename name description).map Peer.ofDevice =
      rename (.ofDevice (device.rename name description)) (registered m) := by
  have hsplit := devices_split h
  have hnodup := hm.distinct
  rw [macs] at hnodup
  obtain ⟨hlt, hget⟩ := List.getElem?_eq_some_iff.1 h
  rw [registered, rename, List.modify_eq_take_cons_drop hlt, hget]
  generalize m.devices.take index = before at hsplit ⊢
  generalize m.devices.drop (index + 1) = after at hsplit ⊢
  rw [hsplit] at hnodup ⊢
  rw [List.map_append, List.map_cons, List.nodup_middle, List.nodup_cons, ← List.map_append]
    at hnodup
  have hother : ∀ other ∈ before ++ after, (Peer.ofDevice other).mac ≠ macToText device.mac := by
    intro other hother hmac
    exact hnodup.1 (macToText_inj hmac ▸ List.mem_map_of_mem hother)
  have hkept : ∀ part : List DeviceInfo, (∀ other ∈ part, other ∈ before ++ after) →
      (part.map Peer.ofDevice).map (fun other => if other.mac = macToText device.mac then
        Peer.ofDevice (device.rename name description) else other) = part.map Peer.ofDevice := by
    intro part hpart
    rw [List.map_map]
    exact List.map_congr_left fun other h => if_neg (hother other (hpart other h))
  have hbefore := hkept before fun other h => List.mem_append_left _ h
  have hafter := hkept after fun other h => List.mem_append_right _ h
  rw [List.map_append, List.map_cons, List.map_append, List.map_cons, List.map_append,
    List.map_cons]
  exact congr_arg₂ (· ++ ·) hbefore.symm (congr_arg₂ List.cons (if_pos rfl).symm hafter.symm)

/-- No index is out of range, or the device there is called otherwise. -/
theorem updateDeviceByIndex_cases (m : Manager) (index : Nat)
    (name description : Option Btp.Bytes) :
    (m.devices[index]? = none ∧ updateDeviceByIndex m index name description = (m, false)) ∨
    ∃ device, m.devices[index]? = some device ∧
      (updateDeviceByIndex m index name description).2 = true ∧
      (updateDeviceByIndex m index name description).1.devices[index]? =
        some (device.rename name description) := by
  unfold updateDeviceByIndex
  by_cases hlt : index < m.devices.length
  · rw [if_neg (Nat.not_le.2 hlt)]
    refine .inr ⟨m.devices[index], List.getElem?_eq_getElem hlt, rfl, ?_⟩
    simp [hlt]
  · rw [if_pos (Nat.not_lt.1 hlt)]
    exact .inl ⟨List.getElem?_eq_none (Nat.not_lt.1 hlt), rfl⟩

end devices

/-! ## What a command does to both tables -/

section effects

variable {outcome : Nat → Bool} {b : Book} {mac : Mac} {index : Nat} {device : DeviceInfo}
  {name description : Text}

/-- The book with another registry. -/
def withManager (b : Book) (manager : Manager) : Book := { b with manager }

theorem InStep.refused (h : InStep b)
    (hrefused : (addDevice outcome b.manager (some mac) (some (octetsOf name))
      (some (octetsOf description))).2 = false) :
    InStep (withManager b (addDevice outcome b.manager (some mac) (some (octetsOf name))
      (some (octetsOf description))).1) := by
  obtain ⟨-, hdevices, -, hinit⟩ | ⟨item, -, -, -, e⟩ := @addDevice_cases outcome _ h.initialized
    (some mac) (some (octetsOf name)) (some (octetsOf description))
  · refine ⟨h.ready, h.opened, hinit, ?_, ?_⟩
    · exact step_sound h.initialized h.sound (.addDevice ..)
    · refine h.same.trans ?_
      exact congrArg (fun devices => real (devices.map Peer.ofDevice)) hdevices.symm
  · rw [e] at hrefused
    cases hrefused

theorem InStep.add (h : InStep b)
    (hadded : (addDevice outcome b.manager (some mac) (some (octetsOf name))
      (some (octetsOf description))).2 = true) :
    InStep ((withManager b (addDevice outcome b.manager (some mac) (some (octetsOf name))
      (some (octetsOf description))).1).onRows fun rows =>
        insertRow? ⟨macToText mac, name, description⟩
          (updateRow ⟨macToText mac, name, description⟩ rows)) := by
  have hsound : Sound (step outcome b.manager (.addDevice (some mac) (some (octetsOf name))
      (some (octetsOf description)))) := step_sound h.initialized h.sound _
  obtain ⟨hnew, e⟩ := addDevice_eq h.initialized hadded
  rw [step, EspNowManager.call, e] at hsound
  rw [e]
  refine ⟨h.ready, h.opened, h.initialized, hsound, ?_⟩
  change real (stored (insertRow? _ (updateRow _ b.rows))) = real (List.map _ (_ ++ [_]))
  rw [List.map_append, List.map_singleton]
  by_cases hmac : mac = broadcast
  · subst hmac
    rw [real_upsert_broadcast rfl, real_append_broadcast rfl, h.same]
    rfl
  · have htext : macToText mac ≠ macToText broadcast := fun heq => hmac (macToText_inj heq)
    have hrow : macToText mac ∉ b.rows.map PeerRow.mac := by
      intro hmem
      obtain ⟨row, hrow, hrowmac⟩ := List.mem_map.1 hmem
      have hreal : Peer.ofRow row ∈ real (registered b.manager) :=
        h.same ▸ mem_real.2 ⟨List.mem_map_of_mem hrow, by rwa [Peer.ofRow, hrowmac]⟩
      obtain ⟨device, hdevice, hpeer⟩ := List.mem_map.1 (mem_real.1 hreal).1
      have hsame : macToText device.mac = macToText mac := (congrArg Peer.mac hpeer).trans hrowmac
      exact hnew (macToText_inj hsame ▸ List.mem_map_of_mem hdevice)
    rw [real_upsert_new hrow htext, real_append htext, h.same]
    rfl

theorem InStep.remove (h : InStep b) (hdevice : b.manager.devices[index]? = some device) :
    InStep ((withManager b (removeDeviceByIndex outcome b.manager index).1).onRows
      (deleteRow (macToText device.mac))) := by
  have hsound : Sound (removeDeviceByIndex outcome b.manager index).1 :=
    h.sound.removeDeviceByIndex h.initialized index
  rw [removeDeviceByIndex_eq h.initialized hdevice] at hsound ⊢
  refine ⟨h.ready, h.opened, h.initialized, hsound, ?_⟩
  change real (stored (deleteRow _ b.rows)) = real (List.map _ (List.eraseIdx _ _))
  rw [stored_deleteRow, registered_eraseIdx h.sound hdevice, real_remove, real_remove, h.same]

theorem InStep.update (h : InStep b) (hdevice : b.manager.devices[index]? = some device) :
    InStep ((withManager b (updateDeviceByIndex b.manager index (some (octetsOf name))
      (some (octetsOf description))).1).onRows
        (updateRow ⟨macToText device.mac, name, description⟩)) := by
  have hsound := h.sound.updateDeviceByIndex index (some (octetsOf name))
    (some (octetsOf description))
  obtain ⟨hlt, -⟩ := List.getElem?_eq_some_iff.1 hdevice
  rw [updateDeviceByIndex, if_neg (Nat.not_le.2 hlt)] at hsound ⊢
  refine ⟨h.ready, h.opened, h.initialized, hsound, ?_⟩
  change real (stored (updateRow _ b.rows)) = real (List.map _ (List.modify _ _ _))
  rw [stored_updateRow, registered_modify h.sound hdevice, real_rename, real_rename, h.same]
  rfl

end effects

/-! ## One command -/

inductive Command
  | add (macText name description : Text)
  | remove (deviceNumber : Int)
  | removeMac (macText : Text)
  | update (deviceNumber : Int) (name description : Text)
  deriving DecidableEq

def Command.run {W : Type} (P : Platform W) (outcome : Nat → Bool) :
    Command → DbM (W × Manager) Result
  | .add macText name description => wrapper_espnow_add P outcome macText name description
  | .remove deviceNumber => wrapper_espnow_remove P outcome deviceNumber
  | .removeMac macText => wrapper_espnow_remove_mac P outcome macText
  | .update deviceNumber name description =>
    wrapper_espnow_update P outcome deviceNumber name description

/-- Nothing was warned of. -/
def quiet : Result → Bool
  | .ok (some _, _) => false
  | _ => true

section commands

variable {W : Type} {P : Platform W} (T : PeersTable P) {outcome : Nat → Bool} {b : Book}

theorem ensures_onManager (f : Manager → Manager × Bool) :
    Ensures (book T · = b) (onManager f) fun ok s =>
      ok = (f b.manager).2 ∧ book T s = withManager b (f b.manager).1 := by
  rintro s rfl
  exact ⟨rfl, rfl⟩

theorem ensures_device (index : Nat) :
    Ensures (book T · = b) (ask fun w => w.2.devices[index]?) fun found s =>
      found = b.manager.devices[index]? ∧ book T s = b := by
  rintro s rfl
  exact ⟨rfl, rfl⟩

theorem ensures_persist {write : DbM (W × Manager) Bool} {warning : Code × Text}
    {effect : List PeerRow → List PeerRow} (hready : b.ready = true)
    (hwrite : Ensures (book T · = b) write fun ok s => ok = true → book T s = b.onRows effect) :
    Ensures (book T · = b) (persist write warning) fun warned s =>
      warned = none → book T s = b.onRows effect := by
  have hread : Ensures (book T · = b) isReady fun ready s => ready = true ∧ book T s = b := by
    rintro s rfl
    exact ⟨hready, rfl⟩
  refine hread.bind fun ready => .of_fact fun hready => .ite (fun _ => ?_) (absurd hready)
  refine hwrite.bind fun ok => .ite (fun hok s hs _ => hs hok) fun _ => ?_
  exact .of_post fun s hnone => by cases hnone

theorem ensures_report {pre I : Store (W × Manager) → Prop} {line : Text}
    {m : DbM (W × Manager) (Option (Code × Text))}
    (h : Ensures pre m fun warned s => warned = none → I s) :
    Ensures pre (m >>= fun warned => pure (.ok (warned, line))) fun (result : Result) s =>
      quiet result = true → I s :=
  h.bind fun warned s hs hquiet => hs (by
    cases warned with
    | none => rfl
    | some warning => cases hquiet)

theorem keeps_refusal {result : Result} (h : InStep b) :
    Ensures (book T · = b) (pure result : DbM (W × Manager) Result)
      fun result s => quiet result = true → InStep (book T s) := by
  rintro s rfl _
  exact h

theorem keeps_add (macText name description : Text) (h : InStep b) :
    Ensures (book T · = b) (wrapper_espnow_add P outcome macText name description)
      fun result s => quiet result = true → InStep (book T s) := by
  unfold wrapper_espnow_add
  cases parseMacAddress macText with
  | none => exact keeps_refusal T h
  | some mac =>
    refine (ensures_onManager T _).bind fun ok => .of_fact fun hadded =>
      .ite (fun hok => ?_) fun hok => ?_
    · refine ensures_report fun s hs hnone => ?_
      rw [ensures_persist T (by exact h.ready) (ensures_upsertPeer T mac
        (notMem_cStr (stripOuterQuotes name)) (notMem_cStr (stripOuterQuotes description)))
        s hs hnone]
      exact h.add (hadded.symm.trans hok)
    · exact keeps_refusal T (h.refused (hadded.symm.trans (Bool.eq_false_iff.2 hok)))

/-- The device at an index is gone from the registry, and its row goes. -/
theorem ensures_removal {index : Nat} {device : DeviceInfo} (h : InStep b)
    (hdevice : b.manager.devices[index]? = some device) :
    Ensures (book T · = withManager b (removeDeviceByIndex outcome b.manager index).1)
      (persistRemoval P outcome device.mac) fun warned s => warned = none → InStep (book T s) := by
  intro s hs hnone
  rw [persistRemoval, ensures_persist T (by exact h.ready) (ensures_removePeer T device.mac)
    s hs hnone]
  exact h.remove hdevice

theorem keeps_remove (deviceNumber : Int) (h : InStep b) :
    Ensures (book T · = b) (wrapper_espnow_remove P outcome deviceNumber)
      fun result s => quiet result = true → InStep (book T s) := by
  refine .ite (fun _ => keeps_refusal T h) fun _ => (ensures_device T _).bind fun removed =>
    .of_fact fun hremoved => (ensures_onManager T _).bind fun ok => .of_fact fun hdone => ?_
  obtain ⟨-, e⟩ | ⟨device, hdevice, e⟩ :=
    @removeDeviceByIndex_cases outcome _ h.initialized (deviceNumber - 1).toNat
  · rw [e] at hdone ⊢
    subst hdone
    exact keeps_refusal T h
  · rw [e] at hdone
    subst hdone
    rw [hdevice] at hremoved
    subst hremoved
    exact ensures_report (ensures_removal T h hdevice)

theorem keeps_remove_mac (macText : Text) (h : InStep b) :
    Ensures (book T · = b) (wrapper_espnow_remove_mac P outcome macText)
      fun result s => quiet result = true → InStep (book T s) := by
  unfold wrapper_espnow_remove_mac
  cases parseMacAddress macText with
  | none => exact keeps_refusal T h
  | some mac =>
    refine (ensures_onManager T _).bind fun ok => .of_fact fun hdone => ?_
    unfold removeDeviceByMac at hdone ⊢
    cases hfind : findDeviceIndexByMac b.manager (some mac) with
    | none =>
      rw [hfind] at hdone
      subst hdone
      exact keeps_refusal T h
    | some index =>
      rw [hfind] at hdone
      obtain ⟨device, hdevice, hmac⟩ := findDeviceIndexByMac_eq_some hfind
      cases hmac
      have hok : ok = true :=
        hdone.trans (congrArg Prod.snd (removeDeviceByIndex_eq h.initialized hdevice))
      subst hok
      exact ensures_report (ensures_removal T h hdevice)

theorem keeps_update (deviceNumber : Int) (name description : Text) (h : InStep b) :
    Ensures (book T · = b) (wrapper_espnow_update P outcome deviceNumber name description)
      fun result s => quiet result = true → InStep (book T s) := by
  refine .ite (fun _ => keeps_refusal T h) fun _ =>
    (ensures_onManager T _).bind fun ok => .of_fact fun hdone => ?_
  obtain ⟨-, e⟩ | ⟨device, hdevice, hok, hrenamed⟩ := updateDeviceByIndex_cases b.manager
    (deviceNumber - 1).toNat (some (octetsOf (cStr (stripOuterQuotes name))))
    (some (octetsOf (cStr (stripOuterQuotes description))))
  · rw [e] at hdone ⊢
    subst hdone
    exact keeps_refusal T h
  · rw [hok] at hdone
    subst hdone
    refine (ensures_device T _).bind fun found => .of_fact fun hfound => ?_
    have hupdated := hfound.trans hrenamed
    subst hupdated
    refine ensures_report fun s hs hnone => ?_
    change InStep (book T (persist (updatePeerMetadata _ (some device.mac) _ _) _ s).2)
    rw [ensures_persist T (by exact h.ready) (ensures_updatePeerMetadata T device.mac
      (notMem_cStr (stripOuterQuotes name)) (notMem_cStr (stripOuterQuotes description)))
      s hs hnone]
    exact h.update hdevice

theorem keeps_command (command : Command) (h : InStep b) :
    Ensures (book T · = b) (command.run P outcome)
      fun result s => quiet result = true → InStep (book T s) := by
  cases command with
  | add macText name description => exact keeps_add T macText name description h
  | remove deviceNumber => exact keeps_remove T deviceNumber h
  | removeMac macText => exact keeps_remove_mac T macText h
  | update deviceNumber name description => exact keeps_update T deviceNumber name description h

end commands

/-! ## A restart -/

section restart

variable {outcome : Nat → Bool} {m : Manager} {rows : List PeerRow} {row : PeerRow}

theorem reload_broadcast (h : row.mac = macToText broadcast) : reload outcome m row = m := by
  rw [reload, h, scanMac_macToText]
  exact if_pos rfl

theorem findDeviceIndexByMac_of_notMem {mac : Mac} (h : mac ∉ macs m) :
    findDeviceIndexByMac m (some mac) = none := by
  refine List.findIdx?_eq_none_iff.2 fun device hdevice => ?_
  refine beq_eq_false_iff_ne.2 fun heq => h ?_
  exact heq ▸ List.mem_map_of_mem hdevice

/-- The driver is called at most once, and accepts. -/
theorem addPeer_accepted {d : Driver} {mac : Mac} (h : outcome d.calls = true) :
    (addPeerToEspNow outcome d mac).2 = true ∧
      (addPeerToEspNow outcome d mac).1.calls ≤ d.calls + 1 := by
  unfold addPeerToEspNow espNowAddPeer
  rw [if_pos h]
  split
  · exact ⟨rfl, Nat.le_succ _⟩
  · exact ⟨rfl, Nat.le_refl _⟩

/-- A driver that accepts the peer, and a registry with room for it. -/
theorem reload_new {mac : Mac} (hinit : m.initialized = true) (hrow : row.mac = macToText mac)
    (hmac : mac ≠ broadcast) (hnew : mac ∉ macs m) (hroom : m.devices.length < MAX_DEVICES)
    (hdriver : outcome m.driver.calls = true) :
    registered (reload outcome m row) = registered m ++ [.ofRow row] ∧
      macs (reload outcome m row) = macs m ++ [mac] ∧
      (reload outcome m row).initialized = true ∧
      (reload outcome m row).driver.calls ≤ m.driver.calls + 1 := by
  have hfind := findDeviceIndexByMac_of_notMem hnew
  obtain ⟨hadded, hcalls⟩ := @addPeer_accepted outcome _ mac hdriver
  have hreload : reload outcome m row = (addDevice outcome m (some mac)
      (some (octetsOf row.name)) (some (octetsOf row.description))).1 := by
    rw [reload, hrow, scanMac_macToText]
    refine (if_neg hmac).trans ?_
    rw [hfind, if_neg (by decide)]
  have hok : (addDevice outcome m (some mac) (some (octetsOf row.name))
      (some (octetsOf row.description))).2 = true := by
    simp [addDevice, hfind, hinit, hadded, Nat.not_le.2 hroom]
  rw [hreload, (addDevice_eq hinit hok).2, registered, List.map_append, List.map_singleton, macs,
    List.map_append, List.map_singleton]
  exact ⟨by rw [Peer.ofRow, hrow]; rfl, rfl, hinit, hcalls⟩

/-- What the rows in front left is as they were; the rows still to come add theirs. -/
theorem foldl_reload (hdriver : ∀ n < MAX_DEVICES, outcome n = true)
    (hinit : m.initialized = true) (hcalls : m.driver.calls ≤ m.devices.length)
    (hnodup : (rows.map PeerRow.mac).Nodup)
    (hrows : ∀ row ∈ rows, row.mac ≠ macToText broadcast →
      ∃ mac, row.mac = macToText mac ∧ mac ∉ macs m)
    (hroom : m.devices.length + (real (stored rows)).length ≤ MAX_DEVICES) :
    registered (rows.foldl (reload outcome) m) = registered m ++ real (stored rows) := by
  induction rows generalizing m with
  | nil => exact (List.append_nil _).symm
  | cons row rows ih =>
    rw [List.map_cons, List.nodup_cons] at hnodup
    have hrest := fun other hother => hrows other (List.mem_cons_of_mem _ hother)
    rw [List.foldl_cons]
    by_cases hbroadcast : row.mac = macToText broadcast
    · have hreal : real (stored (row :: rows)) = real (stored rows) :=
        List.filter_cons_of_neg fun hreal => of_decide_eq_true hreal hbroadcast
      rw [hreal] at hroom ⊢
      rw [reload_broadcast hbroadcast]
      exact ih hinit hcalls hnodup.2 hrest hroom
    · have hreal : real (stored (row :: rows)) = .ofRow row :: real (stored rows) :=
        List.filter_cons_of_pos (decide_eq_true hbroadcast)
      rw [hreal, List.length_cons] at hroom
      rw [hreal]
      obtain ⟨mac, hmac, hnew⟩ := hrows row (.head _) hbroadcast
      obtain ⟨hregistered, hmacs, hinit', hcalls'⟩ := reload_new hinit hmac
        (fun heq => hbroadcast (heq ▸ hmac)) hnew (by omega) (hdriver _ (by omega))
      have hlength : (reload outcome m row).devices.length = m.devices.length + 1 := by
        simpa [macs] using congrArg List.length hmacs
      have hlater : ∀ other ∈ rows, other.mac ≠ macToText broadcast →
          ∃ mac', other.mac = macToText mac' ∧ mac' ∉ macs (reload outcome m row) := by
        intro other hother hreal
        obtain ⟨mac', hmac', hnew'⟩ := hrest other hother hreal
        refine ⟨mac', hmac', ?_⟩
        rw [hmacs, List.mem_append, List.mem_singleton]
        rintro (hold | rfl)
        · exact hnew' hold
        · exact hnodup.1 (List.mem_map.2 ⟨other, hother, hmac'.trans hmac.symm⟩)
      rw [ih hinit' (by omega) hnodup.2 hlater (by omega), hregistered, List.append_assoc,
        List.singleton_append]

theorem reload_sound (h : m.initialized = true ∧ Sound m) (row : PeerRow) :
    (reload outcome m row).initialized = true ∧ Sound (reload outcome m row) := by
  unfold reload
  split
  · exact h
  · split
    · exact h
    · split
      · exact h
      · exact ⟨step_initialized h.1 (.addDevice ..), step_sound h.1 h.2 (.addDevice ..)⟩

theorem real_stored (rows : List PeerRow) :
    real (stored rows) = stored (rows.filter fun row => row.mac ≠ macToText broadcast) := by
  rw [real, stored, List.filter_map]
  rfl

theorem real_real (peers : List Peer) : real (real peers) = real peers :=
  List.filter_eq_self.2 fun _ hpeer => (List.mem_filter.1 hpeer).2

/-- One row at most is the broadcast peer's. -/
theorem length_rows_le (hnodup : (rows.map PeerRow.mac).Nodup) :
    rows.length ≤ (real (stored rows)).length + 1 := by
  have hothers : (rows.filter fun row => !decide (row.mac ≠ macToText broadcast)).length ≤ 1 := by
    have hmacs : ((rows.filter fun row => !decide (row.mac ≠ macToText broadcast)).map
        PeerRow.mac).Nodup := hnodup.sublist (List.Sublist.map _ List.filter_sublist)
    have hsame : ∀ mac ∈ (rows.filter fun row => !decide (row.mac ≠ macToText broadcast)).map
        PeerRow.mac, mac = macToText broadcast := by
      intro mac hmac
      obtain ⟨row, hrow, rfl⟩ := List.mem_map.1 hmac
      simpa using (List.mem_filter.1 hrow).2
    rwa [List.eq_replicate_of_mem hsame, List.nodup_replicate, List.length_map] at hmacs
  rw [real_stored, stored, List.length_map,
    List.length_eq_length_filter_add fun row : PeerRow => decide (row.mac ≠ macToText broadcast)]
  exact Nat.add_le_add_left hothers _

end restart

/-! ## Runs -/

section runs

variable {W : Type}

inductive Event (W : Type)
  | command (command : Command)
  | restart (booted : Store (W × Manager))

variable {P : Platform W} (T : PeersTable P) {outcome : Nat → Bool}

def apply (P : Platform W) (outcome : Nat → Bool) (s : Store (W × Manager)) :
    Event W → Store (W × Manager)
  | .command command => (command.run P outcome s).2
  | .restart booted => (loadPeers (managed P outcome) booted).2

/-- A first start: nothing is registered, and the table is empty but for the broadcast peer. -/
structure Fresh (s : Store (W × Manager)) : Prop where
  ready : s.ready = true
  opened : s.db = true
  manager : s.world.2 = { initialized := true }
  rows : ∀ row ∈ T.rows s.world.1, row.mac = macToText broadcast

/-- The store is open again and nothing is registered; the card has the rows it had, whatever
became of the broadcast peer's. -/
structure Rebooted (s booted : Store (W × Manager)) : Prop where
  ready : booted.ready = true
  opened : booted.db = true
  manager : booted.world.2 = { initialized := true }
  rows : ((T.rows booted.world.1).filter fun row => row.mac ≠ macToText broadcast) =
    (T.rows s.world.1).filter fun row => row.mac ≠ macToText broadcast

/-- A command that does not warn, or a restart whose load succeeds. -/
def Clean (outcome : Nat → Bool) (s : Store (W × Manager)) : Event W → Prop
  | .command command => quiet (command.run P outcome s).1 = true
  | .restart booted => Rebooted T s booted ∧ (loadPeers (managed P outcome) booted).1 = true

theorem Fresh.inStep {s : Store (W × Manager)} (h : Fresh T s) : InStep (book T s) := by
  refine ⟨h.ready, h.opened, congrArg Manager.initialized h.manager, ?_, ?_⟩
  · change Sound s.world.2
    rw [h.manager]
    exact ⟨List.nodup_nil, Nat.zero_le _⟩
  · change real (stored (T.rows s.world.1)) = real (registered s.world.2)
    rw [h.manager, real_stored, List.filter_eq_nil_iff.2 fun row hrow hreal =>
      absurd (h.rows row hrow) (of_decide_eq_true hreal)]
    rfl

/-- The registry is what it was, without the broadcast peer. -/
theorem restores (hdriver : ∀ n < MAX_DEVICES, outcome n = true) {s booted : Store (W × Manager)}
    (h : InStep (book T s)) (hboot : Rebooted T s booted)
    (hload : (loadPeers (managed P outcome) booted).1 = true) :
    InStep (book T (loadPeers (managed P outcome) booted).2) ∧
      registered (loadPeers (managed P outcome) booted).2.world.2 =
        real (registered s.world.2) := by
  have hrows : real (stored (T.rows booted.world.1)) = real (registered s.world.2) := by
    refine Eq.trans ?_ h.same
    change _ = real (stored (T.rows s.world.1))
    rw [real_stored, real_stored, hboot.rows]
  have hfew : (real (registered s.world.2)).length ≤ MAX_DEVICES :=
    (List.length_filter_le _ _).trans (by
      rw [registered, List.length_map]
      exact h.sound.length_le)
  have hlength := length_rows_le (T.unique booted.world.1)
  rw [hrows] at hlength
  have hall : (T.rows booted.world.1).take 64 = T.rows booted.world.1 :=
    List.take_of_length_le (by unfold MAX_DEVICES at hfew; omega)
  have hbook := ensures_loadPeers T booted rfl hload
  change _ = (book T booted).reloaded outcome ((T.rows booted.world.1).take 64) at hbook
  rw [hall] at hbook
  have hstart : booted.world.2.initialized = true ∧ Sound booted.world.2 := by
    rw [hboot.manager]
    exact ⟨rfl, List.nodup_nil, Nat.zero_le _⟩
  have hregistered : registered ((T.rows booted.world.1).foldl (reload outcome) booted.world.2) =
      real (registered s.world.2) := by
    rw [hboot.manager]
    refine (foldl_reload hdriver rfl (Nat.zero_le _) (T.unique _) (fun row hrow hreal => ?_)
      ?_).trans hrows
    · have hpeer : Peer.ofRow row ∈ real (registered s.world.2) :=
        hrows ▸ mem_real.2 ⟨List.mem_map_of_mem hrow, hreal⟩
      obtain ⟨device, -, hdevice⟩ := List.mem_map.1 (mem_real.1 hpeer).1
      exact ⟨device.mac, (congrArg Peer.mac hdevice).symm, List.not_mem_nil⟩
    · rw [hrows]
      exact (Nat.zero_add _).trans_le hfew
  refine ⟨?_, (congrArg (fun b => registered b.manager) hbook).trans hregistered⟩
  have hsound := Run.foldl_keeps (reload outcome) (fun m => m.initialized = true ∧ Sound m)
    (fun _ row hm => reload_sound hm row) hstart (T.rows booted.world.1)
  rw [hbook]
  refine ⟨hboot.ready, hboot.opened, hsound.1, hsound.2, hrows.trans ?_⟩
  exact (real_real _).symm.trans (congrArg real hregistered.symm)

theorem apply_inStep (hdriver : ∀ n < MAX_DEVICES, outcome n = true) (s : Store (W × Manager))
    (event : Event W) (h : InStep (book T s)) (hclean : Clean T outcome s event) :
    InStep (book T (apply P outcome s event)) := by
  cases event with
  | command command => exact keeps_command T command h s rfl hclean
  | restart booted => exact (restores T hdriver h hclean.1 hclean.2).1

/-- As long as no command warns, the table and the registry hold the same peers in the same order,
and a restart brings every peer back but the broadcast one. -/
theorem peers_survive (hdriver : ∀ n < MAX_DEVICES, outcome n = true) {s : Store (W × Manager)}
    (hfresh : Fresh T s) {events : List (Event W)}
    (hclean : Run.AllSteps (apply P outcome) (Clean T outcome) s events) :
    Run.Throughout (apply P outcome) (fun s =>
      real (stored (T.rows s.world.1)) = real (registered s.world.2) ∧
        ∀ booted, Rebooted T s booted → (loadPeers (managed P outcome) booted).1 = true →
          registered (loadPeers (managed P outcome) booted).2.world.2 =
            real (registered s.world.2)) s events := by
  have hall : Run.Throughout (apply P outcome) (fun s => InStep (book T s)) s events :=
    .of_allSteps (apply_inStep T hdriver) (hfresh.inStep T) hclean
  exact hall.imp fun s h => ⟨h.same, fun booted hboot hload => (restores T hdriver h hboot hload).2⟩

end runs

/-! A card whose table goes by the first word of a statement and by its literals. -/

def literals (ts : List SqlTokens.Token) : List Text :=
  ts.filterMap fun
    | .literal text => some text
    | _ => none

def effectOf (ts : List SqlTokens.Token) (rows : List PeerRow) : List PeerRow :=
  if ts.head? = some (word "DELETE") then
    match literals ts with
    | mac :: _ => deleteRow mac rows
    | [] => rows
  else if ts.head? = some (word "UPDATE") then
    match literals ts with
    | [name, description, mac] => updateRow ⟨mac, name, description⟩ rows
    | name :: description :: mac :: _ =>
      insertRow? ⟨mac, name, description⟩ (updateRow ⟨mac, name, description⟩ rows)
    | _ => rows
  else rows

theorem nodup_effectOf (ts : List SqlTokens.Token) {rows : List PeerRow}
    (h : (rows.map PeerRow.mac).Nodup) : ((effectOf ts rows).map PeerRow.mac).Nodup := by
  have hdelete : ∀ mac, ((deleteRow mac rows).map PeerRow.mac).Nodup := fun mac =>
    h.sublist (List.Sublist.map _ List.filter_sublist)
  have hmacs : ∀ row, (updateRow row rows).map PeerRow.mac = rows.map PeerRow.mac := by
    intro row
    rw [updateRow, List.map_map]
    refine List.map_congr_left fun other _ => ?_
    by_cases hmac : other.mac = row.mac
    · exact (congrArg PeerRow.mac (if_pos hmac)).trans hmac.symm
    · exact congrArg PeerRow.mac (if_neg hmac)
  have hupdate : ∀ row, ((updateRow row rows).map PeerRow.mac).Nodup := fun row =>
    (hmacs row).symm ▸ h
  have hinsert : ∀ row, ((insertRow? row (updateRow row rows)).map PeerRow.mac).Nodup := by
    intro row
    unfold insertRow?
    split
    · exact hupdate row
    · rename_i hany
      rw [List.map_append, List.map_singleton]
      refine List.nodup_append.2 ⟨hupdate row, List.nodup_singleton _, ?_⟩
      rintro mac hmac _ hrow rfl
      obtain ⟨other, hother, rfl⟩ := List.mem_map.1 hmac
      exact hany (List.any_eq_true.2 ⟨other, hother, decide_eq_true (List.mem_singleton.1 hrow)⟩)
  unfold effectOf
  split
  · split
    · exact hdelete _
    · exact h
  · split
    · split
      · exact hupdate _
      · exact hinsert _
      · exact h
    · exact h

/-- The rows of the card. -/
abbrev CardRows := { rows : List PeerRow // (rows.map PeerRow.mac).Nodup }

def card : Platform CardRows :=
  { noCard CardRows with
    exec := fun sql w =>
      ({ rc := .ok
         rows :=
          if sql = listSql then (w.1.take 64).map PeerRow.cells
          else [[(some "id".toList, some "1".toList)]] },
        ⟨effectOf ((SqlTokens.tokens (cStr sql)).getD []) w.1, nodup_effectOf _ w.2⟩) }

theorem literals_append (ts ts' : List SqlTokens.Token) :
    literals (ts ++ ts') = literals ts ++ literals ts' := List.filterMap_append

theorem literals_numberTokens (n : Int) : literals (numberTokens n) = [] := by
  unfold numberTokens
  split <;> rfl

theorem literals_updateTokens (now : Int) (mac name description : Text) :
    literals (updateTokens now mac name description) = [name, description, mac] := by
  rw [updateTokens, literals_append, literals_append, literals_numberTokens]
  rfl

theorem literals_insertTokens (now : Int) (mac name description : Text) :
    literals (insertTokens now mac name description) = [mac, name, description] := by
  rw [insertTokens]
  simp only [literals_append, literals_numberTokens]
  rfl

theorem effectOf_update {ts : List SqlTokens.Token} (h : ts.head? = some (word "UPDATE"))
    (rows : List PeerRow) : effectOf ts rows =
      match literals ts with
      | [name, description, mac] => updateRow ⟨mac, name, description⟩ rows
      | name :: description :: mac :: _ =>
        insertRow? ⟨mac, name, description⟩ (updateRow ⟨mac, name, description⟩ rows)
      | _ => rows := by
  rw [effectOf, h, if_neg (by decide), if_pos rfl]

theorem effectOf_delete {ts : List SqlTokens.Token} (h : ts.head? = some (word "DELETE"))
    (rows : List PeerRow) : effectOf ts rows =
      match literals ts with
      | mac :: _ => deleteRow mac rows
      | [] => rows := if_pos h

theorem effectOf_select {ts : List SqlTokens.Token} (h : ts.head? = some (word "SELECT"))
    (rows : List PeerRow) : effectOf ts rows = rows := by
  rw [effectOf, h, if_neg (by decide), if_neg (by decide)]

def cardTable : PeersTable card where
  rows := Subtype.val
  unique w := w.2
  upsert {sql now mac name description} w h _ := by
    change effectOf ((SqlTokens.tokens (cStr sql)).getD []) w.1 = _
    rw [h, Option.getD_some, effectOf_update rfl, literals_append, literals_updateTokens,
      literals_insertTokens]
    rfl
  update {sql now mac name description} w h _ := by
    change effectOf ((SqlTokens.tokens (cStr sql)).getD []) w.1 = _
    rw [h, Option.getD_some, effectOf_update rfl, literals_updateTokens]
  delete {sql mac} w h _ := by
    change effectOf ((SqlTokens.tokens (cStr sql)).getD []) w.1 = _
    rw [h, Option.getD_some, effectOf_delete rfl]
    rfl
  selectId {sql mac} w h := by
    change effectOf ((SqlTokens.tokens (cStr sql)).getD []) w.1 = _
    rw [h, Option.getD_some, effectOf_select rfl]
  list w := by
    have hselect : ((SqlTokens.tokens (cStr listSql)).getD []).head? = some (word "SELECT") := by
      decide +kernel
    exact ⟨effectOf_select hselect w.1, fun _ => by simp [card]⟩
  takeMutex _ _ := rfl
  time _ := rfl
  millis _ := rfl
  print _ _ := rfl

/-- A peer is added and called otherwise, the broadcast peer is added, and the dongle restarts. -/
theorem peers_survive_added :
    let s : Store (CardRows × Manager) :=
      { db := true, ready := true, world := (⟨[], List.nodup_nil⟩, { initialized := true }) }
    let rows : CardRows := ⟨[⟨"02:02:02:02:02:02".toList, "robo 2".toList, []⟩], by decide⟩
    let events : List (Event CardRows) :=
      [.command (.add "02:02:02:02:02:02".toList "'robo'".toList "D'or".toList),
        .command (.update 1 "robo 2".toList []),
        .command (.add "ff:ff:ff:ff:ff:ff".toList [] []),
        .restart { db := true, ready := true, world := (rows, { initialized := true }) }]
    Run.Throughout (apply card fun _ => true) (fun s =>
      real (stored (cardTable.rows s.world.1)) = real (registered s.world.2) ∧
        ∀ booted, Rebooted cardTable s booted →
          (loadPeers (managed card fun _ => true) booted).1 = true →
            registered (loadPeers (managed card fun _ => true) booted).2.world.2 =
              real (registered s.world.2)) s events := by
  refine peers_survive cardTable (fun _ _ => rfl)
    ⟨rfl, rfl, rfl, fun _ hrow => absurd hrow List.not_mem_nil⟩ ⟨?_, ?_, ?_, ?_, trivial⟩
  · change quiet _ = true
    decide +kernel
  · change quiet _ = true
    decide +kernel
  · change quiet _ = true
    decide +kernel
  · exact ⟨⟨rfl, rfl, rfl, by decide +kernel⟩, by decide +kernel⟩

end BallyDongle.EspNowCommands.PeerBook
