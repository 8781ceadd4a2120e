import FirmwareUpgrade.Device
import FirmwareUpgrade.Script

/-!
# The bus

What is attached to a bus, as far as a host can find out: the devices with their configurations,
interfaces and strings, and the calls that they refuse.  All devices answer control transfers
from one script.
-/

namespace FirmwareUpgrade

structure AlternateSetting where
  interface : UInt8
  alternate : UInt8
  classCode : UInt8
  subclass : UInt8
  protocol : UInt8
  /-- The index of the name of the setting, zero if it has none. -/
  nameIndex : UInt8
  /-- The descriptors that follow the one of the interface. -/
  extra : List UInt8
deriving DecidableEq, Repr, Inhabited

def applicationClass : UInt8 := 0xFE

def upgradeSubclass : UInt8 := 0x01

def dfuModeProtocol : UInt8 := 0x02

def isUpgradeClass (classCode subclass : UInt8) : Bool :=
  classCode == applicationClass && subclass == upgradeSubclass

/-- The descriptors in a stream.  Each starts with its own size; the walk ends at one that does
not fit. -/
def splitDescriptors (stream : List UInt8) : List (List UInt8) :=
  match stream with
  | size :: type :: rest =>
    if _ : 2 ≤ size.toNat ∧ size.toNat ≤ rest.length + 2 then
      (size :: type :: rest).take size.toNat
        :: splitDescriptors ((size :: type :: rest).drop size.toNat)
    else []
  | _ => []
termination_by stream.length
decreasing_by
  simp only [List.length_drop, List.length_cons]
  omega

namespace AlternateSetting

def isUpgrade (setting : AlternateSetting) : Bool :=
  isUpgradeClass setting.classCode setting.subclass

/-- The first functional descriptor that follows the setting. -/
def functional? (setting : AlternateSetting) : Option Descriptor :=
  (splitDescriptors setting.extra).findSome? Descriptor.decode

end AlternateSetting

structure Configuration where
  value : UInt8
  settings : List AlternateSetting
deriving DecidableEq, Repr, Inhabited

/-- The class and subclass of each interface, as they are known before a device is opened: those
of the first configuration. -/
def summarize (configurations : List Configuration) : List (UInt8 × UInt8) :=
  match configurations with
  | first :: _ => first.settings.map fun setting => (setting.classCode, setting.subclass)
  | [] => []

structure Attachment where
  vendor : UInt16
  product : UInt16
  release : UInt16
  location : Location
  serial : Option String
  packetSize : UInt8
  configurations : List Configuration
  /-- The class and subclass of each interface, known before the device is opened. -/
  summary : List (UInt8 × UInt8)
  /-- The languages of the strings, if they can be read. -/
  languages : Option (List UInt16)
  strings : List (UInt8 × String)
  /-- What comes of opening the device, the next time first; further times succeed. -/
  openings : List (Option UsbError)
  claimError : Option UsbError
  alternateError : Option UsbError
deriving Inhabited

namespace Attachment

def seemsUpgradable (attachment : Attachment) : Bool :=
  attachment.summary.any fun (classCode, subclass) => isUpgradeClass classCode subclass

/-- The first functional descriptor of the device, after whatever setting it is found. -/
def functional? (attachment : Attachment) : Option Descriptor :=
  attachment.configurations.findSome? fun configuration =>
    configuration.settings.findSome? AlternateSetting.functional?

/-- The settings for firmware upgrades, each with the value of its configuration. -/
def upgradeSettings (attachment : Attachment) : List (UInt8 × AlternateSetting) :=
  attachment.configurations.flatMap fun configuration =>
    (configuration.settings.filter AlternateSetting.isUpgrade).map fun setting =>
      (configuration.value, setting)

end Attachment

structure Bus where
  attachments : List Attachment
  listError : Option UsbError
  script : Script
deriving Inhabited

namespace Bus

/-- Milliseconds after which a call of the bus is given up, unless another limit is chosen. -/
def standardTimeout : Nat := 5000

def raise {ω : Type} (error : Option UsbError) : Action ω Unit :=
  match error with
  | some error => Action.fail (.usb error)
  | none => pure ()

def call {ω : Type} (busCall : BusCall) : Action ω Unit :=
  Action.record (.bus busCall)

def attachment? (device : Nat) : Action Bus (Option Attachment) := ⟨fun host =>
  (.ok host.world.attachments[device]?, host)⟩

/-- The bus after a device has been opened, and what came of it. -/
def nextOpening (bus : Bus) (device : Nat) : Option UsbError × Bus :=
  match bus.attachments[device]? with
  | none => (none, bus)
  | some attachment =>
    (attachment.openings.head?.join,
      { bus with
        attachments :=
          bus.attachments.set device { attachment with openings := attachment.openings.tail } })

def openDevice (device : Nat) : Action Bus Unit := do
  call (.openDevice device)
  let error ← ⟨fun host =>
    match host.world.nextOpening device with
    | (error, world) => (.ok error, { host with world })⟩
  raise error

def claim (device : Nat) (interface : UInt8) : Action Bus Unit := do
  call (.claim device interface)
  raise ((← attachment? device).bind Attachment.claimError)

def selectAlternate (device : Nat) (interface alternate : UInt8) : Action Bus Unit := do
  call (.selectAlternate device interface alternate)
  raise ((← attachment? device).bind Attachment.alternateError)

end Bus

end FirmwareUpgrade
