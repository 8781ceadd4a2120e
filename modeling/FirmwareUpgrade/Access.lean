import FirmwareUpgrade.Criteria

/-!
# Access to devices

An access is a way to reach devices: it lists those that meet some criteria and opens one of
them.  `withSession` opens a device for one piece of work and gives it up afterwards, whether or
not the work ends with a fault.
-/

namespace FirmwareUpgrade

structure Access (ω H : Type) where
  list : Criteria → Action ω (List (Device H))
  /-- Opens a device, claims its interface and selects its alternate setting. -/
  connect : Device H → Action ω (PacedPipe ω)
  /-- What happens when an opened device is given up. -/
  parting : Device H → List Event

namespace Access

variable {ω H α : Type}

/-- The one device that meets the criteria.  A device changes its address when it enters DFU
mode, so several candidates could not be told apart later. -/
def choose (access : Access ω H) (criteria : Criteria) : Action ω (Device H) := do
  match ← access.list criteria with
  | [] => Action.fail .noDevice
  | [device] => return device
  | devices => Action.fail (.manyDevices devices.length)

def connectFirst (access : Access ω H) (criteria : Criteria) :
    Action ω (Device H × PacedPipe ω) := do
  match ← access.list criteria with
  | [] => Action.fail .noDevice
  | device :: _ =>
    let opened ← access.connect device
    return (device, opened)

/-- Opens a device for a piece of work and gives it up afterwards. -/
def withSession (access : Access ω H) (device : Device H)
    (work : (session : Session ω) → Pace session.pipe → Action ω α) : Action ω α := do
  let opened ← access.connect device
  (do
    Action.note
      (.deviceOpened device.vendor device.product device.interface device.alternate)
    work (device.session opened.pipe) opened.pace).followedBy (access.parting device)

end Access

end FirmwareUpgrade
