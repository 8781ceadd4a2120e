import FirmwareUpgrade.Notice

/-!
# Events

Everything that happens on a host while the program works, in one type: what is asked of a
device and what it answers, what is asked of the bus, waiting, notices, progress, and files
written.  The list of the events of a run is its transcript, and whatever is shown of a run is
a view of that list.
-/

namespace FirmwareUpgrade

inductive Route where
  /-- Handed to the device itself. -/
  | direct (interface : UInt8)
  /-- Over the bus, to a claimed interface, with a limit in milliseconds. -/
  | bus (device : Nat) (interface : UInt8) (timeout : Nat)
deriving DecidableEq, Repr, Inhabited

def Route.interface : Route → UInt8
  | direct interface => interface
  | bus _ interface _ => interface

/-- A control transfer with its result. -/
inductive Exchange where
  /-- Data for the device; the result is the number of bytes it took. -/
  | out (request : Request) (value : UInt16) (data : ByteArray)
      (result : Except TransferError Nat)
  /-- Data from the device, at most `length` bytes. -/
  | receive (request : Request) (value length : UInt16)
      (result : Except TransferError ByteArray)

/-- The request type byte of a transfer: a class request for an interface, in its direction. -/
def Exchange.requestType : Exchange → UInt8
  | out _ _ _ _ => 0x21
  | receive _ _ _ _ => 0xA1

/-- A call of the bus other than a control transfer; devices are named by their position. -/
inductive BusCall where
  | list
  | openDevice (device : Nat)
  | closeDevice (device : Nat)
  | languages (device timeout : Nat)
  | string (device : Nat) (index : UInt8) (language : UInt16) (timeout : Nat)
  | claim (device : Nat) (interface : UInt8)
  | selectAlternate (device : Nat) (interface alternate : UInt8)
  | release (device : Nat) (interface : UInt8)
deriving DecidableEq, Repr, Inhabited

inductive Event where
  | sleep (milliseconds : Nat)
  | notice (notice : Notice)
  | started
  | finished (success : Bool)
  /-- So many bytes of a payload have been sent. -/
  | downloaded (done total : Nat)
  /-- So many bytes have been read, of at most `limit` if that is not zero. -/
  | uploaded (done limit : Nat)
  /-- A control transfer, and the milliseconds it took. -/
  | exchange (route : Route) (exchange : Exchange) (delay : Nat)
  /-- A device reached directly was opened, by its position. -/
  | opened (device : Nat)
  | dropped
  | bus (call : BusCall)
  | saved (path : String) (contents : ByteArray)

/-- The milliseconds that pass in an event. -/
def Event.duration : Event → Nat
  | sleep milliseconds => milliseconds
  | exchange _ _ delay => delay
  | _ => 0

end FirmwareUpgrade
