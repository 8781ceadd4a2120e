import FirmwareUpgrade.Access
import FirmwareUpgrade.Bus.Discovery

/-!
# Access over the bus

A device is opened, its interface is claimed and the alternate setting is selected; only then
are control transfers possible.  Whatever was obtained is given back in the opposite order, also
when one of these steps fails.
-/

namespace FirmwareUpgrade

namespace Bus

/-- The control pipe to a claimed interface.  A transfer that succeeds has taken all its data. -/
def pipe (device : Nat) (interface : UInt8) (timeout : Nat) : ControlPipe Bus where
  route := .bus device interface timeout
  onOut request _ data bus :=
    match bus.script.take request data with
    | (reaction, script) =>
      (⟨reaction.result.map fun _ => data.size, reaction.delay⟩, { bus with script })
  onIn _ _ length bus :=
    match bus.script.answer length with
    | (reaction, script) => (reaction, { bus with script })

/-- The devices on a bus give no more answers than their script holds. -/
def pace (device : Nat) (interface : UInt8) (timeout : Nat) :
    Pace (pipe device interface timeout) where
  instants bus := bus.script.unused
  instants_lt := by
    intro world after bytes answered
    rcases reacted : world.script.answer (UInt16.ofNat StatusReply.size) with ⟨reaction, script⟩
    simp only [pipe, reacted, Prod.mk.injEq] at answered
    obtain ⟨rfl, rfl⟩ := answered
    exact (Script.pace (.direct interface)).instants_lt reacted

/-- Opens a device, claims its interface and selects its alternate setting. -/
def connect (timeout : Nat) (device : Device Nat) : Action Bus (PacedPipe Bus) := do
  openDevice device.handle
  match ← (claim device.handle device.interface).attempt with
  | .error fault =>
    call (.closeDevice device.handle)
    Action.fail fault
  | .ok () =>
    match
      ← (selectAlternate device.handle device.interface device.alternate).attempt with
    | .error fault =>
      call (.release device.handle device.interface)
      call (.closeDevice device.handle)
      Action.fail fault
    | .ok () =>
      return {
        pipe := pipe device.handle device.interface timeout
        pace := pace device.handle device.interface timeout }

def access (timeout : Nat) : Access Bus Nat where
  list := find
  connect := connect timeout
  parting device :=
    [.bus (.release device.handle device.interface), .bus (.closeDevice device.handle)]

end Bus

end FirmwareUpgrade
