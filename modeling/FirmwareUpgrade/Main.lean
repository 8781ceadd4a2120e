import FirmwareUpgrade.CommandLine.Run

/-!
# The program

Reads the arguments, runs the command and carries over what it did: texts are printed and files
are written.  The bus of this program is empty until devices are connected to it by other means.
-/

namespace FirmwareUpgrade

def emptyBus : Bus where
  attachments := []
  listError := none
  script := { answers := [], outcomes := [], refusals := [] }

def loadFiles (invocation : CommandLine.Invocation) : IO Files := do
  match invocation with
  | .perform .download arguments =>
    let path := arguments.file.getD ""
    try
      let contents ← IO.FS.readBinFile path
      match Files.empty.write path contents with
      | .ok files => return files
      | .error _ => return .empty
    catch _ => return .empty
  | _ => return .empty

/-- Carries out the effects of an event outside the program. -/
def carryOut (event : Event) : IO Unit := do
  match event with
  | .notice notice =>
    if notice.level = .error then
      IO.eprintln (notice.level.text ++ " " ++ notice.text)
  | .saved path contents => IO.FS.writeBinFile path contents
  | _ => pure ()

def runProgram (texts : List String) : IO UInt32 := do
  match CommandLine.Invocation.read texts with
  | .error error =>
    IO.print error.output
    return UInt32.ofNat error.exitCode
  | .ok invocation =>
    let files ← loadFiles invocation
    let (outcome, host) := invocation.run Bus.access (Host.initial emptyBus files)
    for event in host.transcript do
      carryOut event
    IO.print outcome.output
    IO.eprint outcome.errors
    return UInt32.ofNat outcome.exitCode

end FirmwareUpgrade

def main (arguments : List String) : IO UInt32 :=
  FirmwareUpgrade.runProgram arguments
