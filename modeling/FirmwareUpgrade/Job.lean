import FirmwareUpgrade.Bus.Access
import FirmwareUpgrade.Programmer

/-!
# Jobs for embedding programs

An embedding program sets up a filter, lists the devices that pass it and has the firmware file
at a path written to the only one.  It receives plain values: empty texts for what is unknown
and an error number instead of a fault.
-/

namespace FirmwareUpgrade

structure Listing where
  vendor : UInt16
  product : UInt16
  interface : UInt8
  alternate : UInt8
  name : String
  /-- The serial number, empty if unknown. -/
  serial : String
  path : String
  dfuMode : Bool
deriving DecidableEq, Repr, Inhabited

def Device.listing {H : Type} (device : Device H) : Listing where
  vendor := device.vendor
  product := device.product
  interface := device.interface
  alternate := device.alternate
  name := device.name.getD ""
  serial := device.serial.getD ""
  path := device.path
  dfuMode := device.dfuMode

namespace Criteria

def withVendor (criteria : Criteria) (vendor : UInt16) : Criteria :=
  { criteria with vendor := some vendor }

def withProduct (criteria : Criteria) (product : UInt16) : Criteria :=
  { criteria with product := some product }

def withAlternate (criteria : Criteria) (alternate : UInt8) : Criteria :=
  { criteria with alternate := some alternate }

def withSerial (criteria : Criteria) (serial : String) : Criteria :=
  { criteria with serial := some serial }

def withDfuSerial (criteria : Criteria) (serial : String) : Criteria :=
  { criteria with dfuSerial := some serial }

end Criteria

namespace Job

def listings (filter : Criteria) : Action Bus (List Listing) := do
  let devices ← Bus.find filter
  return devices.map Device.listing

def programmer (filter : Criteria) : Programmer Bus Nat where
  access := Bus.access Bus.standardTimeout
  options := { TransferOptions.standard with criteria := filter }

/-- Writes the firmware file at a path to the device that passes a filter.  The result is zero,
or the error number of the fault. -/
def flash (filter : Criteria) (path : String) : Action Bus Nat := do
  match ← ((programmer filter).flashFrom path).attempt with
  | .ok () => return 0
  | .error fault => return fault.code

end Job

end FirmwareUpgrade
