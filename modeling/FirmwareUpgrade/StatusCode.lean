/-!
# Device status codes

The status byte of a status reply says whether the last request succeeded and, if not, why.  A
byte that the standard does not define is kept as it is: `code_ofCode`.
-/

namespace FirmwareUpgrade

/-- The status a device reports (`bStatus`). -/
inductive StatusCode where
  | ok
  | errTarget
  | errFile
  | errWrite
  | errErase
  | errCheckErased
  | errProg
  | errVerify
  | errAddress
  | errNotDone
  | errFirmware
  | errVendor
  | errUsbReset
  | errPowerOnReset
  | errUnknown
  | errStalledPacket
  | invalid (code : UInt8)
deriving DecidableEq, Repr, Inhabited

namespace StatusCode

def code : StatusCode → UInt8
  | ok => 0
  | errTarget => 1
  | errFile => 2
  | errWrite => 3
  | errErase => 4
  | errCheckErased => 5
  | errProg => 6
  | errVerify => 7
  | errAddress => 8
  | errNotDone => 9
  | errFirmware => 10
  | errVendor => 11
  | errUsbReset => 12
  | errPowerOnReset => 13
  | errUnknown => 14
  | errStalledPacket => 15
  | invalid code => code

def ofCode (code : UInt8) : StatusCode :=
  match code with
  | 0 => ok
  | 1 => errTarget
  | 2 => errFile
  | 3 => errWrite
  | 4 => errErase
  | 5 => errCheckErased
  | 6 => errProg
  | 7 => errVerify
  | 8 => errAddress
  | 9 => errNotDone
  | 10 => errFirmware
  | 11 => errVendor
  | 12 => errUsbReset
  | 13 => errPowerOnReset
  | 14 => errUnknown
  | 15 => errStalledPacket
  | other => invalid other

@[simp]
theorem code_ofCode (byte : UInt8) : (ofCode byte).code = byte := by
  unfold ofCode
  split <;> rfl

/-- The description the standard gives to a status. -/
def message : StatusCode → String
  | ok => "No error condition is present"
  | errTarget => "File is not targeted for use by this device"
  | errFile => "File is for this device but fails some vendor-specific test"
  | errWrite => "Device is unable to write memory"
  | errErase => "Memory erase function failed"
  | errCheckErased => "Memory erase check failed"
  | errProg => "Program memory function failed"
  | errVerify => "Programmed memory failed verification"
  | errAddress => "Cannot program memory due to received address that is out of range"
  | errNotDone =>
    "Received DFU_DNLOAD with wLength = 0, but device does not think that it has all data yet"
  | errFirmware =>
    "Device's firmware is corrupt. It cannot return to run-time (non-DFU) operations"
  | errVendor => "iString indicates a vendor specific error"
  | errUsbReset => "Device detected unexpected USB reset signalling"
  | errPowerOnReset => "Device detected unexpected power on reset"
  | errUnknown => "Something went wrong, but the device does not know what it was"
  | errStalledPacket => "Device stalled an unexpected request"
  | invalid _ => "INVALID"

/-- Whether no error is reported. -/
def isOk : StatusCode → Bool
  | ok => true
  | _ => false

end StatusCode

end FirmwareUpgrade
