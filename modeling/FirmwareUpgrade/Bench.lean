import FirmwareUpgrade.Access
import FirmwareUpgrade.Script

/-!
# Test benches

A bench has a fixed list of devices that are reached directly, without a bus.  All of them answer
from one script.  Listing and opening can be made to fail.
-/

namespace FirmwareUpgrade

/-- Devices that are reached directly; a handle is a position in the list. -/
structure Bench where
  devices : List (Device Nat)
  listFault : Option Fault
  openFault : Option Fault

namespace Bench

def raise (fault : Option Fault) : Action Script Unit :=
  match fault with
  | some fault => Action.fail fault
  | none => pure ()

def access (bench : Bench) : Access Script Nat where
  list criteria := do
    raise bench.listFault
    return bench.devices.filter criteria.matchesDevice
  connect device := do
    Action.record (.opened device.handle)
    raise bench.openFault
    return Script.pacedPipe (.direct device.interface)
  parting _ := [.dropped]

end Bench

end FirmwareUpgrade
