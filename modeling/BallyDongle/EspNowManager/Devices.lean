import BallyDongle.Btp
import BallyDongle.BtpTransport.PeerTable

/-!
# The device registry

`EspNowManager.cpp` keeps its own list of devices and has the ESP-NOW driver keep
a peer table; every operation that adds or removes a device does both, one after
the other. A call into the driver may fail: `outcome n` says whether the `n`-th
one since boot succeeds.
-/

namespace BallyDongle.EspNowManager

open Btp BtpTransport

def MAX_DEVICES : Nat := 16
def DEVICE_NAME_SIZE : Nat := 32
def DEVICE_DESCRIPTION_SIZE : Nat := 96

/-! ## The driver -/

/-- The driver's peer table. -/
structure Driver where
  peers : List Mac := []
  calls : Nat := 0
  deriving DecidableEq

def espNowIsPeerExist (d : Driver) (mac : Mac) : Bool := d.peers.contains mac

section driver

variable (outcome : Nat → Bool)

def espNowAddPeer (d : Driver) (mac : Mac) : Driver × Bool :=
  if outcome d.calls then ({ peers := d.peers ++ [mac], calls := d.calls + 1 }, true)
  else ({ d with calls := d.calls + 1 }, false)

def espNowDelPeer (d : Driver) (mac : Mac) : Driver × Bool :=
  if outcome d.calls then
    ({ peers := d.peers.filter fun peer => peer != mac, calls := d.calls + 1 }, true)
  else ({ d with calls := d.calls + 1 }, false)

def addPeerToEspNow (d : Driver) (mac : Mac) : Driver × Bool :=
  if espNowIsPeerExist d mac then (d, true) else espNowAddPeer outcome d mac

def removePeerFromEspNow (d : Driver) (mac : Mac) : Driver × Bool :=
  if !espNowIsPeerExist d mac then (d, true) else espNowDelPeer outcome d mac

end driver

/-! ## The manager -/

/-- The texts are what their buffers hold in front of the terminator. -/
structure DeviceInfo where
  mac : Mac
  name : Bytes
  description : Bytes
  lastRssi : Int8 := -128
  deriving DecidableEq

structure Manager where
  initialized : Bool
  devices : List DeviceInfo := []
  driver : Driver := {}
  deriving DecidableEq

/-- `none` stands for a null pointer. -/
def copyText (dstSize : Nat) (src : Option Bytes) : Bytes :=
  ((src.getD []).takeWhile (· != 0)).take (dstSize - 1)

def findDeviceIndexByMac (m : Manager) (mac : Option Mac) : Option Nat :=
  mac.bind fun mac => m.devices.findIdx? fun device => device.mac == mac

section manager

variable (outcome : Nat → Bool)

def addDevice (m : Manager) (mac : Option Mac) (name description : Option Bytes) :
    Manager × Bool :=
  match mac with
  | none => (m, false)
  | some mac =>
    if MAX_DEVICES ≤ m.devices.length then (m, false)
    else if (findDeviceIndexByMac m (some mac)).isSome then (m, false)
    else
      let (driver, added) :=
        if m.initialized then addPeerToEspNow outcome m.driver mac else (m.driver, true)
      if !added then ({ m with driver }, false)
      else
        let item : DeviceInfo :=
          { mac, name := copyText DEVICE_NAME_SIZE name
            description := copyText DEVICE_DESCRIPTION_SIZE description }
        ({ m with driver, devices := m.devices ++ [item] }, true)

/-- What the driver answers is not looked at. -/
def removeDeviceByIndex (m : Manager) (index : Nat) : Manager × Bool :=
  match m.devices[index]? with
  | none => (m, false)
  | some device =>
    let driver :=
      if m.initialized then (removePeerFromEspNow outcome m.driver device.mac).1 else m.driver
    ({ m with driver, devices := m.devices.eraseIdx index }, true)

def removeDeviceByMac (m : Manager) (mac : Option Mac) : Manager × Bool :=
  match findDeviceIndexByMac m mac with
  | none => (m, false)
  | some index => removeDeviceByIndex outcome m index

def DeviceInfo.rename (device : DeviceInfo) (name description : Option Bytes) : DeviceInfo :=
  { device with
    name := copyText DEVICE_NAME_SIZE name
    description := copyText DEVICE_DESCRIPTION_SIZE description }

def updateDeviceByIndex (m : Manager) (index : Nat) (name description : Option Bytes) :
    Manager × Bool :=
  if m.devices.length ≤ index then (m, false)
  else
    ({ m with devices := m.devices.modify index fun device => device.rename name description }, true)

def updateDeviceByMac (m : Manager) (mac : Option Mac) (name description : Option Bytes) :
    Manager × Bool :=
  match findDeviceIndexByMac m mac with
  | none => (m, false)
  | some index => updateDeviceByIndex m index name description

def clearDevices (m : Manager) : Manager :=
  let driver :=
    if m.initialized then
      m.devices.foldl (fun d device => (removePeerFromEspNow outcome d device.mac).1) m.driver
    else m.driver
  { m with driver, devices := [] }

end manager

inductive Op
  | addDevice (mac : Option Mac) (name description : Option Bytes)
  | removeDeviceByIndex (index : Nat)
  | removeDeviceByMac (mac : Option Mac)
  | updateDeviceByIndex (index : Nat) (name description : Option Bytes)
  | updateDeviceByMac (mac : Option Mac) (name description : Option Bytes)
  | clearDevices
  deriving DecidableEq

/-- `clearDevices` returns nothing; it cannot fail. -/
def call (outcome : Nat → Bool) (m : Manager) : Op → Manager × Bool
  | .addDevice mac name description => EspNowManager.addDevice outcome m mac name description
  | .removeDeviceByIndex index => EspNowManager.removeDeviceByIndex outcome m index
  | .removeDeviceByMac mac => EspNowManager.removeDeviceByMac outcome m mac
  | .updateDeviceByIndex index name description =>
    EspNowManager.updateDeviceByIndex m index name description
  | .updateDeviceByMac mac name description =>
    EspNowManager.updateDeviceByMac m mac name description
  | .clearDevices => (EspNowManager.clearDevices outcome m, true)

def step (outcome : Nat → Bool) (m : Manager) (op : Op) : Manager := (call outcome m op).1

end BallyDongle.EspNowManager
