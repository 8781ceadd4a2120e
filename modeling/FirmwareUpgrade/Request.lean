/-!
# Class requests

The seven requests that a host can send to a DFU interface, with their numbers.  `DFU_UPLOAD`,
`DFU_GETSTATUS` and `DFU_GETSTATE` are answered with data; the others carry data to the device.
-/

namespace FirmwareUpgrade

inductive Request where
  | detach
  | download
  | upload
  | getStatus
  | clearStatus
  | getState
  | abort
deriving DecidableEq, Repr, Inhabited

/-- The number of a request (`bRequest`). -/
def Request.code : Request → UInt8
  | detach => 0
  | download => 1
  | upload => 2
  | getStatus => 3
  | clearStatus => 4
  | getState => 5
  | abort => 6

end FirmwareUpgrade
