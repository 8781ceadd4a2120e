import FirmwareUpgrade.ByteCount
import FirmwareUpgrade.Criteria

/-!
# Arguments

The arguments of the program are a command followed by its options and possibly a file.  An
option that takes a value finds it behind an equals sign, behind its letter, or in the next
argument, which must not look like an option itself.  After two hyphens everything counts as a
file.  A value is checked when the argument after it is looked at, so of two mistakes the one
that is noticed first decides.
-/

namespace FirmwareUpgrade.CommandLine

inductive Command where
  | list
  | download
  | upload
  | detach
  | status
deriving DecidableEq, Repr, Inhabited

namespace Command

def all : List Command := [list, download, upload, detach, status]

def word : Command → String
  | list => "list"
  | download => "download"
  | upload => "upload"
  | detach => "detach"
  | status => "status"

def ofWord? (word : String) : Option Command :=
  all.find? fun command => command.word == word

def takesFile : Command → Bool
  | download | upload => true
  | _ => false

end Command

/-- Something that is told about a command. -/
inductive Setting where
  | vendor
  | product
  | dfuVendor
  | dfuProduct
  | serial
  | dfuSerial
  | path
  | address
  | configuration
  | interface
  | alternate
  | transferSize
  | usbTimeout
  | requireSuffix
  | noSuffix
  | length
  | detachTimeout
  | help
deriving DecidableEq, Repr, Inhabited

namespace Setting

def shared : List Setting :=
  [vendor, product, dfuVendor, dfuProduct, serial, dfuSerial, path, address, configuration,
    interface, alternate, transferSize, usbTimeout, help]

def ofCommand : Command → List Setting
  | .list | .status => shared
  | .download => shared ++ [requireSuffix, noSuffix]
  | .upload => shared ++ [length]
  | .detach => shared ++ [detachTimeout]

/-- The word for a setting, which follows two hyphens. -/
def word : Setting → String
  | vendor => "vendor"
  | product => "product"
  | dfuVendor => "vendor-dfu"
  | dfuProduct => "product-dfu"
  | serial => "serial"
  | dfuSerial => "serial-dfu"
  | path => "path"
  | address => "devnum"
  | configuration => "config"
  | interface => "interface"
  | alternate => "alt"
  | transferSize => "transfer-size"
  | usbTimeout => "usb-timeout"
  | requireSuffix => "require-suffix"
  | noSuffix => "no-suffix"
  | length => "length"
  | detachTimeout => "detach-timeout"
  | help => "help"

/-- The letter for a setting, which follows one hyphen. -/
def letter? : Setting → Option Char
  | vendor => some 'v'
  | product => some 'p'
  | serial => some 'S'
  | configuration => some 'c'
  | interface => some 'i'
  | alternate => some 'a'
  | transferSize => some 't'
  | length => some 'l'
  | help => some 'h'
  | _ => none

def takesValue : Setting → Bool
  | requireSuffix | noSuffix | help => false
  | _ => true

end Setting

/-- Why the arguments are not understood, or why the program only tells about itself. -/
inductive UsageError where
  | unknownArgument
  | invalidSubcommand
  | missingRequiredArgument
  | invalidValue
  | valueValidation
  | argumentConflict
  | tooManyValues
  | displayVersion
  | displayHelp
deriving DecidableEq, Repr, Inhabited

structure Arguments where
  criteria : Criteria
  transferSize : Option UInt16
  /-- Milliseconds after which a control transfer is given up. -/
  usbTimeout : Option Nat
  file : Option String
  requireSuffix : Bool
  noSuffix : Bool
  /-- How many bytes are read at most. -/
  length : Option Nat
  /-- Milliseconds a device may take to detach. -/
  detachTimeout : Option UInt16
deriving DecidableEq, Repr, Inhabited

namespace Arguments

def empty : Arguments where
  criteria := .any
  transferSize := none
  usbTimeout := none
  file := none
  requireSuffix := false
  noSuffix := false
  length := none
  detachTimeout := none

/-- The limit on control transfers, or the usual one. -/
def usbTimeoutOrDefault (arguments : Arguments) : Nat :=
  arguments.usbTimeout.getD 5000

/-- The time to detach, or the usual one. -/
def detachTimeoutOrDefault (arguments : Arguments) : UInt16 :=
  arguments.detachTimeout.getD 1000

/-- Accepts a value that could be read. -/
def checked {α : Type} (value : Except NumeralFault α) : Except UsageError α :=
  value.mapError fun _ => .valueValidation

def readByte (text : String) : Except UsageError UInt8 :=
  checked ((Numeral.readSigned 0xFF text).map UInt8.ofNat)

/-- The criteria with the alternate setting given by its number, or else by its name. -/
def chooseAlternate (criteria : Criteria) (text : String) : Criteria :=
  match Numeral.read 10 0xFF text with
  | .ok number => { criteria with alternate := some (UInt8.ofNat number) }
  | .error _ => { criteria with name := some text }

/-- The arguments after a setting was given, with its value if it takes one. -/
def store (arguments : Arguments) (setting : Setting) (value : String) :
    Except UsageError Arguments :=
  let criteria := arguments.criteria
  match setting with
  | .vendor => do
    let vendor ← checked (Numeral.readHexWord value)
    return { arguments with criteria := { criteria with vendor := some vendor } }
  | .product => do
    let product ← checked (Numeral.readHexWord value)
    return { arguments with criteria := { criteria with product := some product } }
  | .dfuVendor => do
    let vendor ← checked (Numeral.readHexWord value)
    return { arguments with criteria := { criteria with dfuVendor := some vendor } }
  | .dfuProduct => do
    let product ← checked (Numeral.readHexWord value)
    return { arguments with criteria := { criteria with dfuProduct := some product } }
  | .serial => return { arguments with criteria := { criteria with serial := some value } }
  | .dfuSerial =>
    return { arguments with criteria := { criteria with dfuSerial := some value } }
  | .path => return { arguments with criteria := { criteria with path := some value } }
  | .address => do
    let address ← readByte value
    return { arguments with criteria := { criteria with address := some address } }
  | .configuration => do
    let configuration ← readByte value
    return { arguments with
      criteria := { criteria with configuration := some configuration } }
  | .interface => do
    let interface ← readByte value
    return { arguments with criteria := { criteria with interface := some interface } }
  | .alternate => return { arguments with criteria := chooseAlternate criteria value }
  | .transferSize => do
    let size ← checked (Numeral.readWord value)
    return { arguments with transferSize := some size }
  | .usbTimeout => do
    let timeout ← checked (Numeral.read 10 (ByteCount.wordLimit - 1) value)
    return { arguments with usbTimeout := some timeout }
  | .requireSuffix => return { arguments with requireSuffix := true }
  | .noSuffix => return { arguments with noSuffix := true }
  | .length => do
    let length ← checked (ByteCount.read value)
    return { arguments with length := some length }
  | .detachTimeout => do
    let timeout ← checked ((Numeral.readSigned 0xFFFF value).map UInt16.ofNat)
    return { arguments with detachTimeout := some timeout }
  | .help => .error .displayHelp

end Arguments

/-- An argument that has been read but not yet checked. -/
inductive Pending where
  | nothing
  /-- A setting that may still wait for its value. -/
  | setting (setting : Setting) (value : Option String)
  | file (path : String)
deriving DecidableEq, Repr, Inhabited

/-- What has been read of the arguments after a command. -/
structure Scan where
  arguments : Arguments
  settings : List Setting
  pending : Pending
  filesOnly : Bool
deriving DecidableEq, Repr, Inhabited

namespace Scan

def start : Scan where
  arguments := .empty
  settings := []
  pending := .nothing
  filesOnly := false

/-- Gives a setting, which must not have been given before. -/
def give (scan : Scan) (setting : Setting) (value : String) : Except UsageError Scan :=
  if setting ∈ scan.settings then .error .argumentConflict
  else do
    let arguments ← scan.arguments.store setting value
    return { scan with arguments, settings := setting :: scan.settings }

/-- Checks the argument that was read last. -/
def resolve (scan : Scan) : Except UsageError Scan :=
  match scan.pending with
  | .nothing => .ok scan
  | .setting _ none => .error .invalidValue
  | .setting setting (some value) => { scan with pending := .nothing }.give setting value
  | .file path =>
    if path.isEmpty then .error .invalidValue
    else .ok { scan with
      arguments := { scan.arguments with file := some path }
      pending := .nothing }

def readFile (command : Command) (scan : Scan) (path : String) : Except UsageError Scan :=
  let taken :=
    match scan.pending with
    | .file _ => true
    | _ => scan.arguments.file.isSome
  if !command.takesFile || taken then .error .unknownArgument
  else do
    let scan ← scan.resolve
    return { scan with pending := .file path }

/-- Reads a setting with the value that is attached to it, if any. -/
def readSetting (scan : Scan) (setting : Setting) (attached : Option String) :
    Except UsageError Scan :=
  if setting.takesValue then do
    let scan ← scan.resolve
    match attached with
    | some value => scan.give setting value
    | none => return { scan with pending := .setting setting none }
  else do
    let scan ← scan.resolve
    scan.give setting ""

def readWord (command : Command) (scan : Scan) (text : List Char) : Except UsageError Scan :=
  let name := String.ofList (text.takeWhile (· ≠ '='))
  let attached :=
    match text.dropWhile (· ≠ '=') with
    | _ :: value => some (String.ofList value)
    | [] => none
  match (Setting.ofCommand command).find? fun setting => setting.word == name with
  | none => .error .unknownArgument
  | some setting =>
    if attached.isSome && !setting.takesValue then .error .tooManyValues
    else scan.readSetting setting attached

def readLetters (command : Command) (scan : Scan) : List Char → Except UsageError Scan
  | [] => .ok scan
  | c :: rest =>
    match (Setting.ofCommand command).find? fun setting => setting.letter? == some c with
    | none => .error .unknownArgument
    | some setting =>
      if setting.takesValue then
        match rest with
        | [] => scan.readSetting setting none
        | '=' :: value => scan.readSetting setting (some (String.ofList value))
        | value => scan.readSetting setting (some (String.ofList value))
      else do
        let scan ← scan.readSetting setting none
        readLetters command scan rest

def readPlain (command : Command) (scan : Scan) (text : String) : Except UsageError Scan :=
  match scan.pending with
  | .setting setting none => .ok { scan with pending := .setting setting (some text) }
  | _ => scan.readFile command text

def readArgument (command : Command) (scan : Scan) (text : String) : Except UsageError Scan :=
  if scan.filesOnly then scan.readFile command text
  else
    match text.toList with
    | ['-', '-'] => .ok { scan with filesOnly := true }
    | '-' :: '-' :: word => scan.readWord command word
    | '-' :: c :: letters => scan.readLetters command (c :: letters)
    | _ => scan.readPlain command text

def readAll (command : Command) (texts : List String) : Except UsageError Arguments := do
  let scan ← texts.foldlM (readArgument command) start
  let scan ← scan.resolve
  if scan.arguments.requireSuffix && scan.arguments.noSuffix then .error .argumentConflict
  else if command.takesFile && scan.arguments.file.isNone then .error .missingRequiredArgument
  else return scan.arguments

end Scan

inductive Invocation where
  /-- Nothing in particular, so that devices are listed. -/
  | unspecified
  | perform (command : Command) (arguments : Arguments)
deriving DecidableEq, Repr, Inhabited

namespace Invocation

def helpWord : String := "help"

def readHelp (texts : List String) : UsageError :=
  match texts with
  | [] => .displayHelp
  | [topic] =>
    if (Command.ofWord? topic).isSome || topic == helpWord then .displayHelp
    else .invalidSubcommand
  | _ => .invalidSubcommand

def readAfterHyphens (texts : List String) : Except UsageError Invocation :=
  match texts with
  | [] => .ok .unspecified
  | text :: _ =>
    if (Command.ofWord? text).isSome || text == helpWord then .error .unknownArgument
    else .error .invalidSubcommand

def readWord (text : List Char) : UsageError :=
  let name := String.ofList (text.takeWhile (· ≠ '='))
  if name ≠ "version" ∧ name ≠ helpWord then .unknownArgument
  else if '=' ∈ text then .tooManyValues
  else if name = helpWord then .displayHelp
  else .displayVersion

def readLetter (c : Char) : UsageError :=
  match c with
  | 'V' => .displayVersion
  | 'h' => .displayHelp
  | _ => .unknownArgument

def read (texts : List String) : Except UsageError Invocation :=
  match texts with
  | [] => .ok .unspecified
  | text :: rest =>
    match Command.ofWord? text with
    | some command => (Scan.readAll command rest).map (.perform command)
    | none =>
      match text.toList with
      | ['-', '-'] => readAfterHyphens rest
      | '-' :: '-' :: word => .error (readWord word)
      | '-' :: c :: _ => .error (readLetter c)
      | _ => .error (if text = helpWord then readHelp rest else .invalidSubcommand)

end Invocation

end FirmwareUpgrade.CommandLine
