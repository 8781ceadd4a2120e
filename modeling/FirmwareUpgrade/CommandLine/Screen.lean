import FirmwareUpgrade.Report
import FirmwareUpgrade.Device

/-!
# What the command line shows

The texts that the commands print.  Progress is shown on one line that is written again and
again; its texts are a view of the progress events of a transcript.
-/

namespace FirmwareUpgrade.CommandLine.Screen

/-- A number with blanks in front of it, up to a width. -/
def aligned (width number : Nat) : String :=
  let digits := toString number
  String.ofList (List.replicate (width - digits.length) ' ') ++ digits

def barWidth : Nat := 60

def bar (filled : Nat) : String :=
  String.ofList (List.replicate filled '#' ++ List.replicate (barWidth - filled) ' ')

/-- The share of `done` in `total` on a scale of the given length. -/
def portion (scale done total : Nat) : Nat :=
  scale * done / total

/-- Progress with a label, a percentage and a bar. -/
def progress (label : String) (percent filled : Nat) : String :=
  "\r  " ++ label ++ " " ++ aligned 3 percent ++ "% [" ++ bar filled ++ "]"

/-- The progress of a download; a payload without bytes is done at once. -/
def downloaded (done total : Nat) : String :=
  if total = 0 then progress "Flashing" 100 barWidth
  else progress "Flashing" (portion 100 done total) (portion barWidth done total)

/-- The progress of an upload; without a limit only the size is shown. -/
def uploaded (done limit : Nat) : String :=
  if limit = 0 then s!"\r  Reading {done} bytes"
  else progress "Reading" (portion 100 done limit) (portion barWidth done limit)

def ofEvent : Event → String
  | .downloaded done total => downloaded done total
  | .uploaded done limit => uploaded done limit
  | _ => ""

def ofEvents (events : List Event) : String :=
  String.join (events.map ofEvent)

def abilities (descriptor : Descriptor) : String :=
  (if descriptor.canDownload then "d" else "") ++ (if descriptor.canUpload then "u" else "")
    ++ (if descriptor.manifestationTolerant then "m" else "")
    ++ (if descriptor.willDetach then "w" else "")

def hexadecimal (number : Nat) : String :=
  Hexadecimal.padded 1 number

def device {H : Type} (device : Device H) : String :=
  let version := device.descriptor.version
  let mode := if device.dfuMode then "DFU" else "Runtime"
  let release := Hexadecimal.padded 4 device.release.toNat
  let major := hexadecimal (version >>> 8).toNat
  let minor := Hexadecimal.padded 2 (version &&& 0xFF).toNat
  let name := device.name.getD "UNKNOWN"
  let serial := device.serial.getD "UNKNOWN"
  s!"Found {mode}: [{Fault.idText device.vendor device.product}] ver={release}, "
    ++ s!"devnum={device.address.toNat}, cfg={device.configuration.toNat}, "
    ++ s!"intf={device.interface.toNat}, path=\"{device.path}\", "
    ++ s!"alt={device.alternate.toNat}, name=\"{name}\", serial=\"{serial}\"\n"
    ++ s!"    DFU {major}.{minor}, transfer size {device.descriptor.transferSize.toNat}, "
    ++ s!"attributes ({abilities device.descriptor})\n"

def devices {H : Type} (devices : List (Device H)) : String :=
  if devices.isEmpty then "No DFU device found\n"
  else String.join (devices.map device)

def status (reply : StatusReply) : String :=
  let index :=
    match reply.stringIndex? with
    | some index => s!"status string index = {index.toNat}\n"
    | none => ""
  s!"state = {reply.state.text}, status = {reply.status.message}\n" ++ index
    ++ s!"poll timeout = {reply.pollTime.toNat} ms\n"

def version : String := "dfu-flash 0.1.0\n"

end FirmwareUpgrade.CommandLine.Screen
