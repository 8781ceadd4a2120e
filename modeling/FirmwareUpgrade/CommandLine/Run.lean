import FirmwareUpgrade.Bus.Access
import FirmwareUpgrade.CommandLine.Arguments
import FirmwareUpgrade.CommandLine.Screen
import FirmwareUpgrade.Programmer

/-!
# Running commands

Each command is one operation on the bus, together with the texts it prints.  A command ends with
an exit code: zero, one for a file that could not be written, or a number that depends on the
fault of the operation.
-/

namespace FirmwareUpgrade.CommandLine

inductive Failure where
  | file (error : FileError)
  | operation (fault : Fault)
deriving DecidableEq, Repr, Inhabited

namespace Failure

/-- The exit code after a fault that leaves a device in an unknown state. -/
def fatalCode : Nat := 74

def exitCode : Failure → Nat
  | file _ => 1
  | operation fault => if fault.isFatal then fatalCode else fault.code

def message : Failure → String
  | file error => "IO error: " ++ error.message
  | operation fault => "DFU error: " ++ fault.message

end Failure

/-- What a command leaves behind besides its effects. -/
structure Outcome where
  exitCode : Nat
  output : String
  errors : String
deriving DecidableEq, Repr, Inhabited

namespace Outcome

/-- The outcome of a command that printed a text and ended well or with a failure. -/
def ofResult (output : String) (result : Except Failure String) : Outcome :=
  match result with
  | .ok more => { exitCode := 0, output := output ++ more, errors := "" }
  | .error failure =>
    { exitCode := failure.exitCode
      output
      errors := "Error: " ++ failure.message ++ "\n" }

end Outcome

variable {ω H : Type}

/-- Runs an action and shows its progress. -/
def showing {α : Type} (action : Action ω α) (host : Host ω) :
    Except Failure α × String × Host ω :=
  match action.run host with
  | (result, after) =>
    (result.mapError .operation,
      Screen.ofEvents (after.transcript.extract host.transcript.size).toList, after)

def runList (access : Access ω H) (criteria : Criteria) (host : Host ω) : Outcome × Host ω :=
  match showing (access.list criteria) host with
  | (result, _, after) => (.ofResult "" (result.map Screen.devices), after)

def runDownload (programmer : Programmer ω H) (path : String) (host : Host ω) :
    Outcome × Host ω :=
  match showing (programmer.flashFrom path) host with
  | (result, shown, after) =>
    (.ofResult (s!"Downloading {path}...\n" ++ shown ++ "\n")
      (result.map fun _ => "Done!\n"), after)

/-- Reads the firmware of the device into a file, which is written only after all of it was
read. -/
def runUpload (programmer : Programmer ω H) (path : String) (limit : Option Nat)
    (host : Host ω) : Outcome × Host ω :=
  match showing (programmer.upload limit) host with
  | (.error failure, shown, after) => (.ofResult shown (.error failure), after)
  | (.ok data, shown, after) =>
    match (Action.writeFile path data).run after with
    | (.ok (.ok ()), after) =>
      (.ofResult (shown ++ "\n") (.ok s!"Wrote {data.size} bytes to {path}\n"), after)
    | (.ok (.error error), after) => (.ofResult (shown ++ "\n") (.error (.file error)), after)
    | (.error fault, after) => (.ofResult (shown ++ "\n") (.error (.operation fault)), after)

def runDetach (programmer : Programmer ω H) (timeout : UInt16) (host : Host ω) :
    Outcome × Host ω :=
  match showing (programmer.detach timeout) host with
  | (result, _, after) => (.ofResult "Detaching...\n" (result.map fun _ => ""), after)

def runStatus (programmer : Programmer ω H) (host : Host ω) : Outcome × Host ω :=
  match showing programmer.status host with
  | (result, _, after) => (.ofResult "" (result.map Screen.status), after)

/-- How the end of a firmware file is treated. -/
def Arguments.suffixUse (arguments : Arguments) : SuffixUse :=
  if arguments.requireSuffix then .required
  else if arguments.noSuffix then .ignored
  else .optional

/-- What transfers firmware as the arguments say. -/
def Arguments.programmer (arguments : Arguments) (access : Nat → Access ω H)
    (suffixUse : SuffixUse) : Programmer ω H where
  access := access arguments.usbTimeoutOrDefault
  options := {
    criteria := arguments.criteria
    transferSize := arguments.transferSize
    suffixUse }

def runCommand (access : Nat → Access ω H) (command : Command) (arguments : Arguments)
    (host : Host ω) : Outcome × Host ω :=
  match command with
  | .list => runList (access arguments.usbTimeoutOrDefault) arguments.criteria host
  | .download =>
    runDownload (arguments.programmer access arguments.suffixUse) (arguments.file.getD "") host
  | .upload =>
    runUpload (arguments.programmer access .ignored) (arguments.file.getD "") arguments.length host
  | .detach =>
    runDetach (arguments.programmer access .ignored) arguments.detachTimeoutOrDefault host
  | .status => runStatus (arguments.programmer access .ignored) host

def Invocation.run (access : Nat → Access ω H) (invocation : Invocation) (host : Host ω) :
    Outcome × Host ω :=
  match invocation with
  | .unspecified => runCommand access .list .empty host
  | .perform command arguments => runCommand access command arguments host

/-- The exit code when the arguments are not understood, or when the program only tells about
itself. -/
def UsageError.exitCode : UsageError → Nat
  | displayVersion | displayHelp => 0
  | _ => 2

def UsageError.output : UsageError → String
  | displayVersion => Screen.version
  | _ => ""

end FirmwareUpgrade.CommandLine
