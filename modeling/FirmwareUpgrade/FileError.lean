import FirmwareUpgrade.SystemError

/-!
# File errors

Why a file could not be read or written.  Most file errors come from the operating system and are
kept as its number; a few are found before it is asked.
-/

namespace FirmwareUpgrade

inductive FileErrorKind where
  | notFound
  | permissionDenied
  | invalidInput
  | other
deriving DecidableEq, Repr, Inhabited

inductive FileError where
  /-- An error of the operating system, by its number. -/
  | system (number : Int)
  /-- An error detected before the operating system was asked. -/
  | described (kind : FileErrorKind) (reason : String)
deriving DecidableEq, Repr, Inhabited

namespace FileError

/-- The error of a name that does not exist. -/
def missing : FileError := .system 2

/-- The error of a file that does not fit into memory. -/
def outOfMemory : FileError := .system 12

/-- The error of a file used as a directory. -/
def notDirectory : FileError := .system 20

/-- The error of a directory used as a file. -/
def directory : FileError := .system 21

/-- The error of a device without room. -/
def noSpace : FileError := .system 28

/-- The error of a name or a path with too many bytes. -/
def nameTooLong : FileError := .system 36

def message : FileError → String
  | system number => s!"{SystemError.text number} (os error {number})"
  | described _ reason => reason

/-- Whether the file does not exist. -/
def isNotFound : FileError → Bool
  | system number => number == 2
  | described kind _ => kind == .notFound

end FileError

end FirmwareUpgrade
