import FirmwareUpgrade.Bus.Basic
import FirmwareUpgrade.Criteria

/-!
# Discovery

The DFU interfaces on a bus are found by opening every device that seems to have one and walking
through its configurations.  A device that cannot be opened is passed over.
-/

namespace FirmwareUpgrade

namespace Bus

/-- The language used when a device names none. -/
def fallbackLanguage : UInt16 := 0x0409

/-- The name of an alternate setting, in the first language of the device.  A name that cannot be
read is taken for none. -/
def readName (device : Nat) (attachment : Attachment) (index : UInt8) :
    Action Bus (Option String) := do
  if index = 0 then
    return none
  else
    call (.languages device standardTimeout)
    match attachment.languages with
    | none => return none
    | some languages =>
      call (.string device index (languages.headD fallbackLanguage) standardTimeout)
      return attachment.strings.lookup index

/-- The entry of one alternate setting of an opened device. -/
def describe (device : Nat) (attachment : Attachment) (configuration : UInt8)
    (setting : AlternateSetting) : Action Bus (Device Nat) := do
  let name ← readName device attachment setting.nameIndex
  return {
    handle := device
    vendor := attachment.vendor
    product := attachment.product
    release := attachment.release
    location := some attachment.location
    serial := attachment.serial
    configuration
    interface := setting.interface
    alternate := setting.alternate
    name
    dfuMode := setting.protocol == dfuModeProtocol
    descriptor := (setting.functional?.or attachment.functional?).getD .blank
    packetSize := attachment.packetSize }

/-- The entries of one device, which is opened for it and closed afterwards. -/
def examine (device : Nat) (attachment : Attachment) : Action Bus (List (Device Nat)) := do
  openDevice device
  (attachment.upgradeSettings.mapM fun (configuration, setting) =>
    describe device attachment configuration setting).followedBy [.bus (.closeDevice device)]

/-- The entries of one device that meet the criteria, none if it cannot be opened. -/
def examineOrSkip (criteria : Criteria) (device : Nat) (attachment : Attachment) :
    Action Bus (List (Device Nat)) := do
  match ← (examine device attachment).attempt with
  | .ok entries => return entries.filter criteria.matchesDevice
  | .error fault =>
    Action.note (.deviceNotOpened attachment.vendor attachment.product fault)
    return []

def listDevices : Action Bus (List (Attachment × Nat)) := do
  call .list
  let bus ← ⟨fun host => (.ok host.world, host)⟩
  raise bus.listError
  return bus.attachments.zipIdx

/-- The DFU interfaces on the bus that meet the criteria, in the order of the bus. -/
def find (criteria : Criteria) : Action Bus (List (Device Nat)) := do
  let devices ← listDevices
  let entries ←
    (devices.filter fun (attachment, _) => attachment.seemsUpgradable).mapM
      fun (attachment, device) => examineOrSkip criteria device attachment
  Action.note (.interfacesFound entries.flatten.length)
  return entries.flatten

end Bus

end FirmwareUpgrade
