import FirmwareUpgrade.FileError
import FirmwareUpgrade.Hexadecimal
import FirmwareUpgrade.Image
import FirmwareUpgrade.State
import FirmwareUpgrade.StatusCode

/-!
# Faults

Everything that can end an operation early.  A fault is kept as its cause; `message` words it,
`code` gives the error number that embedding programs receive, and `isFatal` tells whether the
device can still be talked to.
-/

namespace FirmwareUpgrade

inductive TransferError where
  | cancelled
  | stall
  | disconnected
  | fault
  | invalidArgument
  | unknown (number : Nat)
deriving DecidableEq, Repr, Inhabited

def TransferError.message : TransferError → String
  | cancelled => "transfer was cancelled"
  | stall => "endpoint stalled"
  | disconnected => "device disconnected"
  | fault => "hardware fault or protocol violation"
  | invalidArgument => "invalid or unsupported argument"
  | unknown number => s!"unknown (errno {number})"

/-- Why the bus refused to list, open or configure a device. -/
structure UsbError where
  reason : String
  number : Option Nat
deriving DecidableEq, Repr, Inhabited

def UsbError.message (error : UsbError) : String :=
  match error.number with
  | some number => s!"{error.reason} (errno {number})"
  | none => error.reason

/-- Everything that can end an operation early. -/
inductive Fault where
  | usb (error : UsbError)
  | transfer (error : TransferError)
  | file (error : FileError)
  | image (fault : ImageFault)
  /-- A status or state reply of unexpected length. -/
  | shortReply (expected received : Nat)
  | status (reported : StatusCode) (state : State)
  | runtimeMode (state : State)
  /-- The device did not settle in its idle state. -/
  | notIdle (state : State)
  /-- The device did not honour a request to abort. -/
  | abortFailed (reason : String)
  | noDevice
  | manyDevices (count : Nat)
  | idMismatch (imageVendor imageProduct vendor product : UInt16)
  | transferSizeUnknown
  /-- A failure while blocks were downloaded. -/
  | download (cause : Fault)
  /-- An upload did not end within its bound. -/
  | uploadTooLarge (bound : Nat)
  | timeout
deriving DecidableEq, Repr, Inhabited

namespace Fault

def idText (vendor product : UInt16) : String :=
  Hexadecimal.padded 4 vendor.toNat ++ ":" ++ Hexadecimal.padded 4 product.toNat

def message : Fault → String
  | usb error => "USB error: " ++ error.message
  | transfer error => "Transfer error: " ++ error.message
  | file error => "IO error: " ++ error.message
  | image fault => fault.message
  | shortReply expected received =>
    s!"Short reply: expected {expected} bytes, got {received}"
  | status reported state =>
    s!"DFU status error: {reported.message} ({reported.code.toNat}), state {state.text}"
  | runtimeMode state => s!"Device still in runtime mode ({state.text})"
  | notIdle state => s!"Device did not reach dfuIDLE (last state {state.text})"
  | abortFailed reason => "Abort failed: " ++ reason
  | noDevice => "No DFU capable USB device found"
  | manyDevices count =>
    s!"More than one DFU capable USB device found ({count} matches): "
      ++ "use `list' and specify the serial number, path or alt setting, "
      ++ "or disconnect all but one device"
  | idMismatch imageVendor imageProduct vendor product =>
    "File ID " ++ idText imageVendor imageProduct ++ " does not match device ("
      ++ idText vendor product ++ ")"
  | transferSizeUnknown => "Transfer size must be specified"
  | download cause => "Download failed: " ++ cause.message
  | uploadTooLarge bound =>
    s!"Device sent more than {bound} bytes, specify the upload length"
  | timeout => "Timeout"

/-- The error number that stands for a fault. -/
def code : Fault → Nat
  | noDevice | manyDevices _ => 19
  | file error => if error.isNotFound then 19 else 5
  | idMismatch _ _ _ _ | transferSizeUnknown | image _ | uploadTooLarge _ => 22
  | download _ => 14
  | usb _ | transfer _ | shortReply _ _ | status _ _ | runtimeMode _ | notIdle _
  | abortFailed _ | timeout => 5

/-- Whether no further request should be sent to the device. -/
def isFatal : Fault → Bool
  | abortFailed _ => true
  | download cause => cause.isFatal
  | _ => false

end Fault

end FirmwareUpgrade
