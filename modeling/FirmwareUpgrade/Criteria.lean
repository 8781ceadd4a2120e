import FirmwareUpgrade.Device

/-!
# Criteria

Which devices an operation is meant for.  Whatever is left open matches every device.  A device
changes its vendor and product numbers and its serial number when it enters DFU mode, so these
three can be asked for in each mode; in DFU mode the general one is used if no special one is
given.
-/

namespace FirmwareUpgrade

structure Criteria where
  vendor : Option UInt16
  product : Option UInt16
  dfuVendor : Option UInt16
  dfuProduct : Option UInt16
  serial : Option String
  dfuSerial : Option String
  path : Option String
  configuration : Option UInt8
  interface : Option UInt8
  alternate : Option UInt8
  name : Option String
  address : Option UInt8
deriving DecidableEq, Repr, Inhabited

namespace Criteria

def any : Criteria where
  vendor := none
  product := none
  dfuVendor := none
  dfuProduct := none
  serial := none
  dfuSerial := none
  path := none
  configuration := none
  interface := none
  alternate := none
  name := none
  address := none

/-- What is asked in a mode: the special wish in DFU mode, else the general one. -/
def effective {α : Type} (dfuMode : Bool) (general special : Option α) : Option α :=
  if dfuMode then special.or general else general

/-- Whether a value is as wished, if anything is wished. -/
def admits {α : Type} [BEq α] (wish : Option α) (value : α) : Bool :=
  match wish with
  | some wished => value == wished
  | none => true

/-- Whether a value that may be unknown is as wished; an unknown value meets no wish. -/
def admitsKnown {α : Type} [BEq α] (wish value : Option α) : Bool :=
  match wish with
  | some wished => value == some wished
  | none => true

def matchesDevice {H : Type} (criteria : Criteria) (device : Device H) : Bool :=
  admits (effective device.dfuMode criteria.vendor criteria.dfuVendor) device.vendor
    && admits (effective device.dfuMode criteria.product criteria.dfuProduct) device.product
    && admitsKnown (effective device.dfuMode criteria.serial criteria.dfuSerial) device.serial
    && admits criteria.path device.path
    && admits criteria.configuration device.configuration
    && admits criteria.interface device.interface
    && admits criteria.alternate device.alternate
    && admitsKnown criteria.name device.name
    && admits criteria.address device.address

/-- A wish, or the identifier of an image where nothing is wished and the image names one. -/
def adoptId (wish : Option UInt16) (id : UInt16) : Option UInt16 :=
  match wish with
  | some wished => some wished
  | none => if id = wildcard then none else some id

/-- The criteria with the identifiers of an image where none are asked for. -/
def adopt (criteria : Criteria) (vendor product : UInt16) : Criteria :=
  { criteria with
    vendor := adoptId criteria.vendor vendor
    product := adoptId criteria.product product }

end Criteria

end FirmwareUpgrade
