import FirmwareUpgrade.Access
import FirmwareUpgrade.Download
import FirmwareUpgrade.Readiness
import FirmwareUpgrade.Report
import FirmwareUpgrade.Upload

/-!
# Operations on one device

The complete operations: writing firmware to a device, reading it back, asking a device to enter
DFU mode and asking for its status.  Each of them first selects the one device that meets the
criteria, and gives it up before it ends.
-/

namespace FirmwareUpgrade

/-- Which device is meant and how firmware is transferred. -/
structure TransferOptions where
  criteria : Criteria
  /-- The block size to use instead of the one the device asks for. -/
  transferSize : Option UInt16
  suffixUse : SuffixUse
deriving Inhabited

/-- Any device, its own block size, and a suffix if there is one. -/
def TransferOptions.standard : TransferOptions where
  criteria := .any
  transferSize := none
  suffixUse := .optional

/-- The block size of a transfer: the requested one, else the one of the descriptor, raised to the
packet size of the control endpoint. -/
def blockSize (descriptorSize : UInt16) (requested : Option UInt16) (packetSize : UInt8) :
    Except Fault UInt16 :=
  let wished := requested.getD 0
  let size := if wished = 0 then descriptorSize else wished
  if size = 0 then .error .transferSizeUnknown
  else .ok (max size packetSize.toUInt16)

namespace Image

variable {H : Type}

/-- Accepts a device that the image is meant for. -/
def checkDevice (image : Image) (device : Device H) : Except Fault Unit :=
  if (image.vendor = wildcard ∨ image.vendor = device.vendor)
      ∧ (image.product = wildcard ∨ image.product = device.product) then .ok ()
  else .error (.idMismatch image.vendor image.product device.vendor device.product)

/-- Reads a firmware file under a policy and reports what was found. -/
def inspect {ω : Type} (policy : SuffixUse) (file : ByteArray) : Action ω Image := do
  let image ← Action.ofExcept ((Image.load policy file).mapError .image)
  if image.suffix.isNone && policy == .optional then
    Action.note .suffixAbsent
  Action.note (.imageLoaded image.payload.size image.suffix)
  return image

end Image

structure Programmer (ω H : Type) where
  access : Access ω H
  options : TransferOptions

namespace Programmer

variable {ω H : Type}

def chunkSize (programmer : Programmer ω H) (session : Session ω) : Action ω UInt16 :=
  Action.ofExcept
    (blockSize session.descriptor.transferSize programmer.options.transferSize session.packetSize)

def write (programmer : Programmer ω H) (image : Image) (session : Session ω)
    (pace : Pace session.pipe) : Action ω Unit := do
  let _ ← session.reachIdle
  let chunk ← programmer.chunkSize session
  Action.note (.downloading image.payload.size chunk)
  (session.downloadPayload pace chunk image.payload).mapFault .download

def read (programmer : Programmer ω H) (limit : Option Nat) (session : Session ω) :
    Action ω ByteArray := do
  let _ ← session.reachIdle
  let chunk ← programmer.chunkSize session
  session.uploadFirmware chunk limit

def transfer (programmer : Programmer ω H) (file : ByteArray) : Action ω Unit := do
  let image ← Image.inspect programmer.options.suffixUse file
  let device ←
    programmer.access.choose (programmer.options.criteria.adopt image.vendor image.product)
  Action.ofExcept (image.checkDevice device)
  programmer.access.withSession device (programmer.write image)

def flash (programmer : Programmer ω H) (file : ByteArray) : Action ω Unit := do
  Action.record .started
  match ← (programmer.transfer file).attempt with
  | .ok () => Action.record (.finished true)
  | .error fault =>
    Action.note (.flashFailed fault)
    Action.record (.finished false)
    Action.fail fault

def flashFrom (programmer : Programmer ω H) (path : String) : Action ω Unit := do
  Action.record .started
  match ← Action.readFile path with
  | .ok file => programmer.flash file
  | .error error =>
    Action.note (.fileUnreadable error)
    Action.record (.finished false)
    Action.fail (.file error)

def upload (programmer : Programmer ω H) (limit : Option Nat) : Action ω ByteArray := do
  let device ← programmer.access.choose programmer.options.criteria
  programmer.access.withSession device fun session _ => programmer.read limit session

def detach (programmer : Programmer ω H) (timeout : UInt16) : Action ω Unit := do
  let device ← programmer.access.choose programmer.options.criteria
  if device.dfuMode then
    Action.note .alreadyInDfuMode
  else
    programmer.access.withSession device fun session _ => do
      session.detach timeout
      if !device.descriptor.willDetach then
        Action.note .needsReset

def status (programmer : Programmer ω H) : Action ω StatusReply := do
  let device ← programmer.access.choose programmer.options.criteria
  programmer.access.withSession device fun session _ => session.getStatus

end Programmer

end FirmwareUpgrade
