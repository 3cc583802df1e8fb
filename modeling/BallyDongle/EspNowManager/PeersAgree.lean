import BallyDongle.Lib.Run
import BallyDongle.EspNowManager.Devices

/-!
# The registry and the driver's peer table

An addition looks at what the driver answers, a removal does not. The registry by
itself is sound whatever the driver does; the two tables stay equal just as long as
every deletion succeeds.
-/

namespace BallyDongle.EspNowManager

open Btp BtpTransport

def macs (m : Manager) : List Mac := m.devices.map DeviceInfo.mac

structure Sound (m : Manager) : Prop where
  distinct : (macs m).Nodup
  length_le : m.devices.length ≤ MAX_DEVICES

/-- The driver knows the registered devices and no others. -/
def Agrees (m : Manager) : Prop := ∀ mac, mac ∈ macs m ↔ mac ∈ m.driver.peers

/-- A call that fails changes nothing, and one that removes a device leaves the
others as they were, in their order. -/
def Orderly (outcome : Nat → Bool) (m : Manager) (op : Op) : Prop :=
  ((call outcome m op).2 = false →
    (step outcome m op).devices = m.devices ∧ (step outcome m op).driver.peers = m.driver.peers) ∧
  match op with
  | .removeDeviceByIndex index => (step outcome m op).devices = m.devices.eraseIdx index
  | .removeDeviceByMac mac =>
    (step outcome m op).devices = m.devices.filter fun device => some device.mac ≠ mac
  | _ => True

/-- The driver deletes every peer the call has it delete. -/
def Deletes (outcome : Nat → Bool) (m : Manager) : Op → Prop
  | .removeDeviceByIndex index => index < m.devices.length → outcome m.driver.calls = true
  | .removeDeviceByMac mac =>
    (findDeviceIndexByMac m mac).isSome = true → outcome m.driver.calls = true
  | .clearDevices => ∀ k < m.devices.length, outcome (m.driver.calls + k) = true
  | _ => True

/-! ## The driver's table -/

section calls

variable {outcome : Nat → Bool} {d : Driver} {mac peer : Mac}

theorem espNowIsPeerExist_iff : espNowIsPeerExist d mac = true ↔ mac ∈ d.peers := by
  simp [espNowIsPeerExist]

theorem addPeer_of_not_mem (h : mac ∉ d.peers) :
    addPeerToEspNow outcome d mac = espNowAddPeer outcome d mac := by
  rw [addPeerToEspNow, if_neg]
  rwa [espNowIsPeerExist_iff]

theorem addPeer_failed (h : (addPeerToEspNow outcome d mac).2 = false) :
    (addPeerToEspNow outcome d mac).1.peers = d.peers := by
  unfold addPeerToEspNow espNowAddPeer at h ⊢
  split_ifs at h ⊢ with hexists hok
  rfl

theorem addPeer_peers (hnew : mac ∉ d.peers) (h : (addPeerToEspNow outcome d mac).2 = true) :
    (addPeerToEspNow outcome d mac).1.peers = d.peers ++ [mac] := by
  rw [addPeer_of_not_mem hnew] at h ⊢
  unfold espNowAddPeer at h ⊢
  split_ifs at h ⊢ with hok
  rfl

/-- A peer the driver knows is gone when the call succeeds. -/
theorem mem_removePeer (h : mac ∈ d.peers) :
    peer ∈ (removePeerFromEspNow outcome d mac).1.peers ↔
      peer ∈ d.peers ∧ (peer = mac → outcome d.calls = false) := by
  rw [removePeerFromEspNow, espNowIsPeerExist_iff.2 h, if_neg (by decide), espNowDelPeer]
  cases outcome d.calls with
  | true => simp
  | false => simp

theorem calls_removePeer (h : mac ∈ d.peers) :
    (removePeerFromEspNow outcome d mac).1.calls = d.calls + 1 := by
  rw [removePeerFromEspNow, espNowIsPeerExist_iff.2 h, if_neg (by decide), espNowDelPeer]
  split <;> rfl

/-- The peers a sweep over devices leaves: those it was not to delete, and those whose
call failed. -/
theorem mem_foldl_removePeer (devices : List DeviceInfo)
    (hnodup : (devices.map DeviceInfo.mac).Nodup)
    (hknown : ∀ mac ∈ devices.map DeviceInfo.mac, mac ∈ d.peers) :
    peer ∈ (devices.foldl (fun d device => (removePeerFromEspNow outcome d device.mac).1) d).peers ↔
      peer ∈ d.peers ∧
        ∀ k device, devices[k]? = some device → peer = device.mac →
          outcome (d.calls + k) = false := by
  induction devices generalizing d with
  | nil => simp
  | cons first rest ih =>
    rw [List.map_cons, List.nodup_cons] at hnodup
    have hfirst : first.mac ∈ d.peers := hknown _ List.mem_cons_self
    have hrest : ∀ mac ∈ rest.map DeviceInfo.mac,
        mac ∈ (removePeerFromEspNow outcome d first.mac).1.peers := by
      intro mac hmac
      refine (mem_removePeer hfirst).2 ⟨hknown mac (List.mem_cons_of_mem _ hmac), ?_⟩
      rintro rfl
      exact absurd hmac hnodup.1
    rw [List.foldl_cons, ih hnodup.2 hrest, mem_removePeer hfirst, calls_removePeer hfirst, and_assoc]
    refine and_congr_right fun _ => ⟨?_, fun h => ⟨h 0 first rfl, fun k device hk => ?_⟩⟩
    · rintro ⟨hzero, hsucc⟩ k device hk
      cases k with
      | zero =>
        cases hk
        exact hzero
      | succ k =>
        have := hsucc k device hk
        rwa [Nat.add_assoc, Nat.add_comm 1 k] at this
    · have := h (k + 1) device hk
      rwa [Nat.add_comm k 1, ← Nat.add_assoc] at this

end calls

/-! ## The registry -/

section registry

variable {outcome : Nat → Bool} {m : Manager} {mac x : Mac} {index : Nat} {device : DeviceInfo}

theorem findDeviceIndexByMac_eq_none (h : findDeviceIndexByMac m (some mac) = none) :
    mac ∉ macs m := by
  intro hmem
  obtain ⟨device, hdevice, rfl⟩ := List.mem_map.1 hmem
  have := List.findIdx?_eq_none_iff.1 h device hdevice
  simp at this

theorem findDeviceIndexByMac_eq_some {mac : Option Mac} (h : findDeviceIndexByMac m mac = some index) :
    ∃ device, m.devices[index]? = some device ∧ some device.mac = mac := by
  obtain ⟨mac, rfl, hfind⟩ := Option.bind_eq_some_iff.1 h
  obtain ⟨hlt, hmac, -⟩ := List.findIdx?_eq_some_iff_getElem.1 hfind
  exact ⟨m.devices[index], List.getElem?_eq_getElem hlt, congrArg some (beq_iff_eq.1 hmac)⟩

theorem devices_split (h : m.devices[index]? = some device) :
    m.devices = m.devices.take index ++ device :: m.devices.drop (index + 1) := by
  obtain ⟨hlt, rfl⟩ := List.getElem?_eq_some_iff.1 h
  rw [← List.drop_eq_getElem_cons hlt, List.take_append_drop]

/-- The registered MACs without that of one device. -/
theorem mem_macs_eraseIdx (hm : Sound m) (h : m.devices[index]? = some device) :
    x ∈ (m.devices.eraseIdx index).map DeviceInfo.mac ↔ x ∈ macs m ∧ x ≠ device.mac := by
  have hsplit := devices_split h
  have hnodup := hm.distinct
  rw [macs] at hnodup ⊢
  rw [List.eraseIdx_eq_take_drop_succ]
  generalize m.devices.take index = before at hsplit ⊢
  generalize m.devices.drop (index + 1) = after at hsplit ⊢
  rw [hsplit] at hnodup ⊢
  rw [List.map_append, List.map_cons, List.nodup_middle, List.nodup_cons] at hnodup
  rw [List.map_append, List.map_append, List.map_cons, List.mem_append, List.mem_append,
    List.mem_cons]
  constructor
  · intro hx
    refine ⟨hx.imp_right .inr, ?_⟩
    rintro rfl
    exact hnodup.1 (List.mem_append.2 hx)
  · rintro ⟨hx | hx | hx, hne⟩
    · exact .inl hx
    · exact absurd hx hne
    · exact .inr hx

theorem eraseIdx_eq_filter (hm : Sound m) (h : m.devices[index]? = some device) :
    m.devices.eraseIdx index = m.devices.filter fun other => some other.mac ≠ some device.mac := by
  have hsplit := devices_split h
  have hnodup := hm.distinct
  rw [macs] at hnodup
  rw [List.eraseIdx_eq_take_drop_succ]
  generalize m.devices.take index = before at hsplit ⊢
  generalize m.devices.drop (index + 1) = after at hsplit ⊢
  rw [hsplit] at hnodup ⊢
  rw [List.map_append, List.map_cons, List.nodup_middle, List.nodup_cons, ← List.map_append]
    at hnodup
  have hother : ∀ other ∈ before ++ after, decide (some other.mac ≠ some device.mac) = true := by
    intro other hother
    refine decide_eq_true fun heq => hnodup.1 ?_
    rw [← Option.some.inj heq]
    exact List.mem_map_of_mem hother
  rw [List.filter_append, List.filter_cons_of_neg (by simp), ← List.filter_append,
    List.filter_eq_self.2 hother]

theorem macs_modify (devices : List DeviceInfo) (index : Nat) (name description : Option Bytes) :
    (devices.modify index fun device => device.rename name description).map DeviceInfo.mac =
      devices.map DeviceInfo.mac := by
  induction devices generalizing index with
  | nil => rw [List.modify_nil]
  | cons device devices ih =>
    cases index with
    | zero => rfl
    | succ index => rw [List.modify_succ_cons, List.map_cons, List.map_cons, ih]

theorem updateDeviceByIndex_macs (m : Manager) (index : Nat) (name description : Option Bytes) :
    macs (updateDeviceByIndex m index name description).1 = macs m := by
  unfold updateDeviceByIndex
  split
  · rfl
  · exact macs_modify ..

/-! ## One call -/

/-- A device is refused, or added to both tables. -/
theorem addDevice_cases (hinit : m.initialized = true) (mac : Option Mac)
    (name description : Option Bytes) :
    ((addDevice outcome m mac name description).2 = false ∧
      (addDevice outcome m mac name description).1.devices = m.devices ∧
      (addDevice outcome m mac name description).1.driver.peers = m.driver.peers ∧
      (addDevice outcome m mac name description).1.initialized = true) ∨
    ∃ item : DeviceInfo, item.mac ∉ macs m ∧ m.devices.length < MAX_DEVICES ∧
      (addPeerToEspNow outcome m.driver item.mac).2 = true ∧
      addDevice outcome m mac name description =
        ({ m with
            driver := (addPeerToEspNow outcome m.driver item.mac).1
            devices := m.devices ++ [item] }, true) := by
  unfold addDevice
  cases mac with
  | none => exact .inl ⟨rfl, rfl, rfl, hinit⟩
  | some mac =>
    dsimp only
    rw [hinit]
    split
    · exact .inl ⟨rfl, rfl, rfl, hinit⟩
    · rename_i hroom
      split
      · exact .inl ⟨rfl, rfl, rfl, hinit⟩
      · rename_i hnew
        rw [Option.isSome_iff_ne_none, not_not] at hnew
        cases hadded : (addPeerToEspNow outcome m.driver mac).2 with
        | false =>
          refine .inl ⟨?_, ?_, ?_, ?_⟩
          all_goals simp [hadded]
          exact addPeer_failed hadded
        | true =>
          refine .inr ⟨{ mac, name := copyText DEVICE_NAME_SIZE name
                         description := copyText DEVICE_DESCRIPTION_SIZE description },
            findDeviceIndexByMac_eq_none hnew, Nat.not_le.1 hroom, hadded, ?_⟩
          simp [hadded]

/-- No index is out of range, or the device there leaves the registry and the driver is
asked to delete it. -/
theorem removeDeviceByIndex_cases (hinit : m.initialized = true) (index : Nat) :
    (m.devices[index]? = none ∧ removeDeviceByIndex outcome m index = (m, false)) ∨
    ∃ device, m.devices[index]? = some device ∧
      removeDeviceByIndex outcome m index =
        ({ m with
            driver := (removePeerFromEspNow outcome m.driver device.mac).1
            devices := m.devices.eraseIdx index }, true) := by
  unfold removeDeviceByIndex
  cases hget : m.devices[index]? with
  | none => exact .inl ⟨rfl, rfl⟩
  | some device =>
    refine .inr ⟨device, rfl, ?_⟩
    dsimp only
    rw [hinit, if_pos rfl]

theorem Sound.removeDeviceByIndex (hm : Sound m) (hinit : m.initialized = true) (index : Nat) :
    Sound (removeDeviceByIndex outcome m index).1 := by
  obtain ⟨-, e⟩ | ⟨device, hget, e⟩ := @removeDeviceByIndex_cases outcome _ hinit index
  · rw [e]
    exact hm
  · rw [e]
    refine ⟨?_, (List.length_eraseIdx_le _ _).trans hm.length_le⟩
    exact List.Nodup.sublist (List.Sublist.map _ (List.eraseIdx_sublist _ _)) hm.distinct

theorem Agrees.removeDeviceByIndex (ha : Agrees m) (hm : Sound m) (hinit : m.initialized = true)
    (index : Nat) :
    Agrees (removeDeviceByIndex outcome m index).1 ↔
      (index < m.devices.length → outcome m.driver.calls = true) := by
  obtain ⟨hget, e⟩ | ⟨device, hget, e⟩ := @removeDeviceByIndex_cases outcome _ hinit index
  · rw [e]
    refine iff_of_true ha fun hlt => absurd hget ?_
    rw [List.getElem?_eq_getElem hlt]
    exact nofun
  · rw [e]
    have hmem : device.mac ∈ macs m := List.mem_map_of_mem (List.mem_of_getElem? hget)
    have hlt : index < m.devices.length := (List.getElem?_eq_some_iff.1 hget).1
    refine ⟨fun h _ => ?_, fun hok mac => ?_⟩
    · have hdevice := h device.mac
      rw [macs, mem_macs_eraseIdx hm hget, mem_removePeer ((ha _).1 hmem)] at hdevice
      have hgone := mt hdevice.2 fun hx => hx.2 rfl
      cases hok : outcome m.driver.calls with
      | true => rfl
      | false => exact absurd ⟨(ha _).1 hmem, fun _ => hok⟩ hgone
    · rw [macs, mem_macs_eraseIdx hm hget, mem_removePeer ((ha _).1 hmem), ha mac, hok hlt]
      exact and_congr_right fun _ => ⟨fun hne heq => absurd heq hne, fun himp heq => nomatch himp heq⟩

theorem updateDeviceByIndex_driver (m : Manager) (index : Nat) (name description : Option Bytes) :
    (updateDeviceByIndex m index name description).1.driver = m.driver ∧
      (updateDeviceByIndex m index name description).1.initialized = m.initialized ∧
      (updateDeviceByIndex m index name description).1.devices.length = m.devices.length := by
  unfold updateDeviceByIndex
  split
  · exact ⟨rfl, rfl, rfl⟩
  · exact ⟨rfl, rfl, List.length_modify ..⟩

theorem Sound.updateDeviceByIndex (hm : Sound m) (index : Nat) (name description : Option Bytes) :
    Sound (updateDeviceByIndex m index name description).1 where
  distinct := by
    rw [updateDeviceByIndex_macs]
    exact hm.distinct
  length_le := by
    rw [(updateDeviceByIndex_driver ..).2.2]
    exact hm.length_le

theorem agrees_updateDeviceByIndex (index : Nat) (name description : Option Bytes) :
    Agrees (updateDeviceByIndex m index name description).1 ↔ Agrees m := by
  rw [Agrees, updateDeviceByIndex_macs, (updateDeviceByIndex_driver ..).1]
  rfl

/-- A sweep over every device leaves both tables empty when no call fails. -/
theorem Agrees.clearDevices (ha : Agrees m) (hm : Sound m) (hinit : m.initialized = true) :
    Agrees (clearDevices outcome m) ↔
      ∀ k < m.devices.length, outcome (m.driver.calls + k) = true := by
  have hmem : ∀ x, x ∈ (EspNowManager.clearDevices outcome m).driver.peers ↔ x ∈ m.driver.peers ∧
      ∀ k device, m.devices[k]? = some device → x = device.mac →
        outcome (m.driver.calls + k) = false := by
    intro x
    rw [EspNowManager.clearDevices, hinit]
    exact mem_foldl_removePeer m.devices hm.distinct fun mac hmac => (ha mac).1 hmac
  constructor
  · intro h k hk
    have hmac : m.devices[k].mac ∈ macs m := List.mem_map_of_mem (List.getElem_mem hk)
    have hgone : m.devices[k].mac ∉ (EspNowManager.clearDevices outcome m).driver.peers :=
      fun hx => nomatch (h _).2 hx
    rw [hmem] at hgone
    cases hok : outcome (m.driver.calls + k) with
    | true => rfl
    | false =>
      refine absurd ⟨(ha _).1 hmac, fun j device hj heq => ?_⟩ hgone
      -- the MACs are distinct, so `j` is `k`
      obtain ⟨hlt, rfl⟩ := List.getElem?_eq_some_iff.1 hj
      have hjk : k = j := by
        refine (@List.Nodup.getElem_inj_iff _ _ hm.distinct _ ?_ _ ?_).1 ?_
        · rwa [macs, List.length_map]
        · rwa [macs, List.length_map]
        · simpa [macs] using heq
      rw [← hjk, hok]
  · intro h x
    refine iff_of_false List.not_mem_nil fun hx => ?_
    obtain ⟨hknown, hfailed⟩ := (hmem x).1 hx
    obtain ⟨device, hdevice, rfl⟩ := List.mem_map.1 ((ha x).2 hknown)
    obtain ⟨k, hk, hget⟩ := List.getElem_of_mem hdevice
    have := hfailed k device (by rw [List.getElem?_eq_getElem hk, hget]) rfl
    rw [h k hk] at this
    cases this

/-! ## One step -/

theorem step_initialized (hinit : m.initialized = true) (op : Op) :
    (step outcome m op).initialized = true := by
  have hremove : ∀ index, (removeDeviceByIndex outcome m index).1.initialized = true := by
    intro index
    obtain ⟨-, e⟩ | ⟨device, -, e⟩ :=
      @removeDeviceByIndex_cases outcome _ hinit index <;> rw [e] <;> exact hinit
  have hupdate : ∀ index name description,
      (updateDeviceByIndex m index name description).1.initialized = true :=
    fun _ _ _ => (updateDeviceByIndex_driver ..).2.1.trans hinit
  cases op with
  | addDevice mac name description =>
    obtain ⟨-, -, -, h⟩ | ⟨item, -, -, -, e⟩ := addDevice_cases hinit mac name description
    · exact h
    · rw [step, call, e]
      exact hinit
  | removeDeviceByIndex index => exact hremove index
  | removeDeviceByMac mac =>
    rw [step, call, removeDeviceByMac]
    split
    · exact hinit
    · exact hremove _
  | updateDeviceByIndex index name description => exact hupdate index name description
  | updateDeviceByMac mac name description =>
    rw [step, call, updateDeviceByMac]
    split
    · exact hinit
    · exact hupdate _ name description
  | clearDevices => exact hinit

theorem step_sound (hinit : m.initialized = true) (hm : Sound m) (op : Op) :
    Sound (step outcome m op) := by
  cases op with
  | addDevice mac name description =>
    obtain ⟨-, h, -⟩ | ⟨item, hnew, hroom, -, e⟩ :=
      @addDevice_cases outcome _ hinit mac name description
    · exact ⟨by rw [macs, step, call, h]; exact hm.distinct, by rw [step, call, h]; exact hm.length_le⟩
    · rw [step, call, e]
      refine ⟨?_, by rw [List.length_append]; exact hroom⟩
      rw [macs, List.map_append]
      exact List.nodup_append.2 ⟨hm.distinct, List.nodup_singleton _, by
        rintro x hx y hy rfl
        exact hnew (List.mem_singleton.1 hy ▸ hx)⟩
  | removeDeviceByIndex index => exact hm.removeDeviceByIndex hinit index
  | removeDeviceByMac mac =>
    rw [step, call, removeDeviceByMac]
    split
    · exact hm
    · exact hm.removeDeviceByIndex hinit _
  | updateDeviceByIndex index name description => exact hm.updateDeviceByIndex index name description
  | updateDeviceByMac mac name description =>
    rw [step, call, updateDeviceByMac]
    split
    · exact hm
    · exact hm.updateDeviceByIndex _ name description
  | clearDevices => exact ⟨List.nodup_nil, Nat.zero_le _⟩

theorem updateDeviceByIndex_false {index : Nat} {name description : Option Bytes}
    (hfalse : (updateDeviceByIndex m index name description).2 = false) :
    updateDeviceByIndex m index name description = (m, false) := by
  rw [updateDeviceByIndex] at hfalse ⊢
  by_cases hindex : m.devices.length ≤ index
  · rw [if_pos hindex]
  · rw [if_neg hindex] at hfalse
    cases hfalse

theorem step_orderly (hinit : m.initialized = true) (hm : Sound m) (op : Op) :
    Orderly outcome m op := by
  unfold Orderly
  cases op with
  | addDevice mac name description =>
    refine ⟨fun hfalse => ?_, trivial⟩
    obtain ⟨-, h, hpeers, -⟩ | ⟨item, -, -, -, e⟩ :=
      @addDevice_cases outcome _ hinit mac name description
    · exact ⟨h, hpeers⟩
    · rw [call, e] at hfalse
      cases hfalse
  | removeDeviceByIndex index =>
    dsimp only
    rw [step, call]
    obtain ⟨hget, e⟩ | ⟨device, -, e⟩ :=
      @removeDeviceByIndex_cases outcome _ hinit index
    · rw [e]
      exact ⟨fun _ => ⟨rfl, rfl⟩,
        (List.eraseIdx_of_length_le (List.getElem?_eq_none_iff.1 hget)).symm⟩
    · rw [e]
      exact ⟨nofun, rfl⟩
  | removeDeviceByMac mac =>
    dsimp only
    rw [step, call, removeDeviceByMac]
    cases hfind : findDeviceIndexByMac m mac with
    | none =>
      refine ⟨fun _ => ⟨rfl, rfl⟩, (List.filter_eq_self.2 fun device hdevice => ?_).symm⟩
      cases mac with
      | none => simp
      | some mac =>
        have hne := findDeviceIndexByMac_eq_none hfind
        refine decide_eq_true fun heq => hne ?_
        rw [← Option.some.inj heq]
        exact List.mem_map_of_mem hdevice
    | some index =>
      obtain ⟨device, hget, rfl⟩ := findDeviceIndexByMac_eq_some hfind
      obtain ⟨hnone, -⟩ | ⟨device', -, e⟩ :=
        @removeDeviceByIndex_cases outcome _ hinit index
      · rw [hget] at hnone
        cases hnone
      · dsimp only
        rw [e]
        exact ⟨nofun, eraseIdx_eq_filter hm hget⟩
  | updateDeviceByIndex index name description =>
    refine ⟨fun hfalse => ?_, trivial⟩
    rw [step, call, updateDeviceByIndex_false hfalse]
    exact ⟨rfl, rfl⟩
  | updateDeviceByMac mac name description =>
    refine ⟨fun hfalse => ?_, trivial⟩
    rw [call, updateDeviceByMac] at hfalse
    rw [step, call, updateDeviceByMac]
    cases hfind : findDeviceIndexByMac m mac with
    | none => exact ⟨rfl, rfl⟩
    | some index =>
      rw [hfind] at hfalse
      dsimp only
      rw [updateDeviceByIndex_false hfalse]
      exact ⟨rfl, rfl⟩
  | clearDevices => exact ⟨nofun, trivial⟩

theorem step_agrees (hinit : m.initialized = true) (hm : Sound m) (ha : Agrees m) (op : Op) :
    Agrees (step outcome m op) ↔ Deletes outcome m op := by
  cases op with
  | addDevice mac name description =>
    refine iff_of_true ?_ trivial
    obtain ⟨-, h, hpeers, -⟩ | ⟨item, hnew, -, hadded, e⟩ :=
      @addDevice_cases outcome _ hinit mac name description
    · intro x
      rw [macs, step, call, h, hpeers]
      exact ha x
    · intro x
      rw [step, call, e]
      dsimp only
      rw [addPeer_peers (mt (ha _).2 hnew) hadded, macs, List.map_append, List.mem_append,
        List.mem_append]
      exact or_congr (ha x) Iff.rfl
  | removeDeviceByIndex index => exact ha.removeDeviceByIndex hm hinit index
  | removeDeviceByMac mac =>
    rw [step, call, removeDeviceByMac, Deletes]
    cases hfind : findDeviceIndexByMac m mac with
    | none => exact iff_of_true ha nofun
    | some index =>
      obtain ⟨device, hget, -⟩ := findDeviceIndexByMac_eq_some hfind
      have hlt : index < m.devices.length := (List.getElem?_eq_some_iff.1 hget).1
      refine (ha.removeDeviceByIndex hm hinit index).trans ?_
      exact ⟨fun h _ => h hlt, fun h _ => h rfl⟩
  | updateDeviceByIndex index name description =>
    exact iff_of_true ((agrees_updateDeviceByIndex index name description).2 ha) trivial
  | updateDeviceByMac mac name description =>
    refine iff_of_true ?_ trivial
    rw [step, call, updateDeviceByMac]
    split
    · exact ha
    · exact (agrees_updateDeviceByIndex _ name description).2 ha
  | clearDevices => exact ha.clearDevices hm hinit

end registry

/-! ## Runs -/

/-- Whatever the driver answers the registry stays sound and every call orderly; the
two tables stay equal just when every deletion succeeds. -/
theorem run_agrees (outcome : Nat → Bool) (m : Manager) (hinit : m.initialized = true)
    (hm : Sound m) (ha : Agrees m) (ops : List Op) :
    Run.Throughout (step outcome) Sound m ops ∧ Run.AllSteps (step outcome) (Orderly outcome) m ops ∧
      (Run.Throughout (step outcome) Agrees m ops ↔
        Run.AllSteps (step outcome) (Deletes outcome) m ops) := by
  have hstep : ∀ m op, (m.initialized = true ∧ Sound m) →
      (step outcome m op).initialized = true ∧ Sound (step outcome m op) :=
    fun m op h => ⟨step_initialized h.1 op, step_sound h.1 h.2 op⟩
  have hall : Run.AllSteps (step outcome) (fun _ _ => True) m ops := Run.AllSteps.trivial m ops
  refine ⟨?_, ?_, ?_⟩
  · exact (Run.Throughout.of_allSteps (fun m op h _ => hstep m op h) ⟨hinit, hm⟩ hall).imp
      fun _ h => h.2
  · exact Run.AllSteps.of_invariant (fun m op h _ => hstep m op h)
      (fun m op h _ => step_orderly h.1 h.2 op) ⟨hinit, hm⟩ hall
  · have hiff := @Run.throughout_iff_allSteps _ _ (step outcome)
      (fun m => (m.initialized = true ∧ Sound m) ∧ Agrees m) (Deletes outcome) _ ops
      (fun m op h => ⟨fun h' => (step_agrees h.1.1 h.1.2 h.2 op).1 h'.2,
        fun h' => ⟨hstep m op h.1, (step_agrees h.1.1 h.1.2 h.2 op).2 h'⟩⟩) ⟨⟨hinit, hm⟩, ha⟩
    refine Iff.trans ⟨fun h => ?_, fun h => h.imp fun _ hs => hs.2⟩ hiff
    exact h.with_invariant hstep ⟨hinit, hm⟩

section bench

/-- A device of MAC 02:…:02. -/
def benchMac : Mac := Vector.replicate 6 2

instance (outcome : Nat → Bool) (m : Manager) : ∀ op, Decidable (Deletes outcome m op)
  | .addDevice _ _ _ | .updateDeviceByIndex _ _ _ | .updateDeviceByMac _ _ _ => .isTrue trivial
  | .removeDeviceByIndex index =>
    inferInstanceAs (Decidable (index < m.devices.length → outcome m.driver.calls = true))
  | .removeDeviceByMac mac =>
    inferInstanceAs (Decidable ((findDeviceIndexByMac m mac).isSome = true →
      outcome m.driver.calls = true))
  | .clearDevices =>
    inferInstanceAs (Decidable (∀ k < m.devices.length, outcome (m.driver.calls + k) = true))

theorem run_agrees_removed :
    Run.Throughout (step fun _ => true) Agrees { initialized := true }
      [.addDevice (some benchMac) none none, .removeDeviceByMac (some benchMac), .clearDevices] :=
  (run_agrees (fun _ => true) { initialized := true } rfl ⟨List.nodup_nil, Nat.zero_le _⟩
    (fun _ => Iff.rfl) _).2.2.2 (by decide)

/-- The driver refuses to delete: the device is gone from the registry alone. -/
theorem peer_left_behind :
    ¬∀ outcome ops, Run.Throughout (step outcome) Agrees { initialized := true } ops := by
  intro h
  have hlast := (h (fun n => n == 0)
    [.addDevice (some benchMac) none none, .removeDeviceByIndex 0]).final
  exact absurd ((hlast benchMac).2 (by decide)) (by decide)

end bench

end BallyDongle.EspNowManager
