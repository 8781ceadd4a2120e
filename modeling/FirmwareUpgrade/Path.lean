import FirmwareUpgrade.FileError

/-!
# Paths

A path is the way to a file, as steps from the root or from the working directory.  Slashes
separate the steps, and several of them count as one.  A slash behind the last step is
remembered, because such a path can only name a directory.
-/

namespace FirmwareUpgrade

structure Path where
  /-- The way starts at the root, otherwise at the working directory. -/
  absolute : Bool
  /-- The names on the way, among them single and double dots. -/
  steps : List String
  /-- A slash stands behind the last step. -/
  slashed : Bool
deriving DecidableEq, Repr, Inhabited

namespace Path

def sizeLimit : Nat := 4095

def stepLimit : Nat := 255

/-- The path that a text spells.  The empty text names nothing. -/
def ofText (text : String) : Except FileError Path :=
  if text.contains '\x00' then
    .error (.described .invalidInput "file name contained an unexpected NUL byte")
  else if text.isEmpty then .error .missing
  else if sizeLimit < text.utf8ByteSize then .error .nameTooLong
  else .ok {
    absolute := text.startsWith "/"
    steps := (text.splitOn "/").filter fun step => step ≠ ""
    slashed := text.endsWith "/" }

/-- The steps up to the last one, and the last one, unless the path names its own start. -/
def split? (path : Path) : Option (List String × String) :=
  path.steps.getLast?.map fun last => (path.steps.dropLast, last)

end Path

end FirmwareUpgrade
