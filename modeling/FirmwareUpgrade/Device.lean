import FirmwareUpgrade.Session

/-!
# Devices

One entry of a device list is one alternate setting of one DFU interface.  An entry carries a
handle by which the device is opened; what a handle is depends on how devices are reached.
-/

namespace FirmwareUpgrade

structure Location where
  bus : String
  address : UInt8
  /-- The socket numbers from the bus to the device, one for each hub on the way. -/
  sockets : List UInt8
deriving DecidableEq, Repr, Inhabited

/-- A location as text: the bus, a hyphen, and the socket numbers between dots. -/
def Location.path (location : Location) : String :=
  location.bus ++ "-"
    ++ ".".intercalate (location.sockets.map fun socket => toString socket.toNat)

/-- An alternate setting of a DFU interface of an attached device. -/
structure Device (H : Type) where
  handle : H
  vendor : UInt16
  product : UInt16
  release : UInt16
  location : Option Location
  serial : Option String
  configuration : UInt8
  interface : UInt8
  alternate : UInt8
  name : Option String
  /-- The interface accepts transfers; otherwise the device still runs its application. -/
  dfuMode : Bool
  descriptor : Descriptor
  packetSize : UInt8
deriving Inhabited

namespace Device

variable {H ω : Type}

def bus (device : Device H) : String :=
  device.location.elim "" Location.bus

/-- The address of the device on its bus, zero if unknown. -/
def address (device : Device H) : UInt8 :=
  device.location.elim 0 Location.address

def path (device : Device H) : String :=
  device.location.elim "" Location.path

def deviations (device : Device H) : Deviations :=
  .lookup device.vendor device.product device.release

def session (device : Device H) (pipe : ControlPipe ω) : Session ω where
  pipe
  alternate := device.alternate
  descriptor := device.descriptor
  packetSize := device.packetSize
  vendor := device.vendor
  product := device.product
  deviations := device.deviations

end Device

end FirmwareUpgrade
