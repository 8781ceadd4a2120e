import FirmwareUpgrade.Request
import FirmwareUpgrade.StatusReply

/-!
# Notices

What the program tells about its work while it runs.  A notice is kept as the fact it reports;
`level` ranks it and `text` words it.
-/

namespace FirmwareUpgrade

inductive Level where
  | error
  | warn
  | info
  | debug
  | trace
deriving DecidableEq, Repr, Inhabited

namespace Level

def rank : Level → Nat
  | error => 0
  | warn => 1
  | info => 2
  | debug => 3
  | trace => 4

def text : Level → String
  | error => "ERROR"
  | warn => "WARN"
  | info => "INFO"
  | debug => "DEBUG"
  | trace => "TRACE"

end Level

inductive Notice where
  -- requests
  | transferOut (request : Request) (value : UInt16) (size : Nat)
  | transferIn (request : Request) (value length : UInt16)
  | detaching (timeout : UInt16)
  | downloadBlock (block : UInt16) (size : Nat)
  | uploadBlock (block : UInt16) (size : Nat)
  | statusUnreadable (fault : Fault)
  | statusRead (reply : StatusReply)
  | clearingStatus
  | stateRead (state : State)
  | aborting
  | abortNotSent (fault : Fault)
  | abortUnconfirmed (fault : Fault)
  | abortIgnored (state : State)
  -- recovery
  | clearingPending (status : StatusCode)
  | clearingFailed (fault : Fault)
  | leftoverNotAborted (fault : Fault)
  | waitingToLeave (state : State)
  -- block transfers
  | blockRefused (reply : StatusReply)
  | endingDownload
  | leftWhileManifesting (fault : Fault)
  | downloadDone (reply : StatusReply)
  | manifestationFailed (reply : StatusReply)
  | unexpectedAfterDownload (state : State)
  | uploadDone (size : Nat)
  -- operations on one device
  | suffixAbsent
  | imageLoaded (size : Nat) (suffix : Option Suffix)
  | deviceOpened (vendor product : UInt16) (interface alternate : UInt8)
  | downloading (size : Nat) (chunk : UInt16)
  | alreadyInDfuMode
  | needsReset
  | flashFailed (fault : Fault)
  | fileUnreadable (error : FileError)
  -- discovery
  | deviceNotOpened (vendor product : UInt16) (fault : Fault)
  | interfacesFound (count : Nat)
deriving DecidableEq, Repr, Inhabited

namespace Notice

def level : Notice → Level
  | abortNotSent _ | abortUnconfirmed _ | abortIgnored _ | blockRefused _
  | manifestationFailed _ | flashFailed _ | fileUnreadable _ => .error
  | statusUnreadable _ | clearingFailed _ | leftoverNotAborted _
  | unexpectedAfterDownload _ | suffixAbsent | deviceNotOpened _ _ _ => .warn
  | clearingPending _ | leftWhileManifesting _ | downloadDone _ | uploadDone _
  | deviceOpened _ _ _ _ | downloading _ _ | alreadyInDfuMode | needsReset => .info
  | detaching _ | downloadBlock _ _ | uploadBlock _ _ | statusRead _ | clearingStatus
  | stateRead _ | aborting | waitingToLeave _ | endingDownload | imageLoaded _ _
  | interfacesFound _ => .debug
  | transferOut _ _ _ | transferIn _ _ _ => .trace

def suffixText : Option Suffix → String
  | none => "None"
  | some suffix =>
    "Some(DfuSuffix \x7b device: " ++ toString suffix.device.toNat
      ++ ", product: " ++ toString suffix.product.toNat
      ++ ", vendor: " ++ toString suffix.vendor.toNat
      ++ ", dfu_version: " ++ toString suffix.version.toNat
      ++ ", length: " ++ toString suffix.length.toNat
      ++ ", crc: " ++ toString suffix.checksum.toNat ++ " \x7d)"

def text : Notice → String
  | transferOut request value size =>
    s!"OUT req={request.code.toNat} value={value.toNat} len={size}"
  | transferIn request value length =>
    s!"IN req={request.code.toNat} value={value.toNat} len={length.toNat}"
  | detaching timeout => s!"DFU_DETACH (timeout {timeout.toNat} ms)"
  | downloadBlock block size => s!"DFU_DNLOAD block {block.toNat} ({size} bytes)"
  | uploadBlock block size => s!"DFU_UPLOAD block {block.toNat} ({size} bytes)"
  | statusUnreadable fault => "DFU_GETSTATUS: " ++ fault.message
  | statusRead reply => "DFU_GETSTATUS: " ++ reply.text
  | clearingStatus => "DFU_CLRSTATUS"
  | stateRead state => "DFU_GETSTATE: " ++ state.text
  | aborting => "DFU_ABORT"
  | abortNotSent fault => "Error sending dfu abort request: " ++ fault.message
  | abortUnconfirmed fault => "Error during abort get_status: " ++ fault.message
  | abortIgnored state => s!"Failed to enter idle state on abort ({state.text})"
  | clearingPending status => "Clearing status: " ++ status.message
  | clearingFailed fault => "DFU_CLRSTATUS failed: " ++ fault.message
  | leftoverNotAborted fault => "Can't send DFU_ABORT: " ++ fault.message
  | waitingToLeave state => "Waiting for device to leave " ++ state.text
  | blockRefused reply => "Download failed! " ++ reply.text
  | endingDownload => "Sending zero-length download request"
  | leftWhileManifesting fault => s!"Device left during manifestation ({fault.message})"
  | downloadDone reply => s!"Download done ({reply.text})"
  | manifestationFailed reply => "Manifestation failed! " ++ reply.text
  | unexpectedAfterDownload state => "Unexpected state after download: " ++ state.text
  | uploadDone size => s!"Upload done ({size} bytes)"
  | suffixAbsent => "No valid DFU suffix signature"
  | imageLoaded size suffix => s!"Firmware payload: {size} bytes, suffix: {suffixText suffix}"
  | deviceOpened vendor product interface alternate =>
    s!"Opened DFU device {Fault.idText vendor product} "
      ++ s!"(intf={interface.toNat}, alt={alternate.toNat})"
  | downloading size chunk => s!"Downloading {size} bytes in blocks of {chunk.toNat} bytes"
  | alreadyInDfuMode => "Device is already in DFU mode"
  | needsReset => "Device does not detach by itself, it needs a USB reset"
  | flashFailed fault => "Flash failed: " ++ fault.message
  | fileUnreadable error => "Cannot read firmware file: " ++ error.message
  | deviceNotOpened vendor product fault =>
    s!"Cannot open DFU device {Fault.idText vendor product}: {fault.message}"
  | interfacesFound count => s!"{count} matching DFU interface(s)"

end Notice

end FirmwareUpgrade
