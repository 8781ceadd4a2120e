import FirmwareUpgrade.Path

/-!
# Files of the host

What the program finds of the file system: the root with its standard directories, a few special
files among the devices, and the working directory, which lies in the directory for temporary
files.  Every file that the program can read or has written is known by its directory and name.

A path is followed one step after the other, and each step must start at a directory.  What is
wrong first decides.
-/

namespace FirmwareUpgrade

inductive Directory where
  | root
  /-- A directory that every host has in its root. -/
  | standard (name : String)
  | working
deriving DecidableEq, Repr, Inhabited

namespace Directory

def standardNames : List String :=
  ["bin", "boot", "dev", "etc", "home", "lib", "lib64", "media", "mnt", "opt", "proc", "root",
    "run", "sbin", "srv", "sys", "tmp", "usr", "var"]

def devices : Directory := standard "dev"

def temporary : Directory := standard "tmp"

/-- The directory that two dots lead to; the root is its own parent. -/
def parent : Directory → Directory
  | root | standard _ => root
  | working => temporary

end Directory

/-- A file whose contents are not stored. -/
inductive SpecialFile where
  /-- Is always empty and forgets what is written. -/
  | null
  /-- Has no end and no room for anything that is written. -/
  | full
deriving DecidableEq, Repr, Inhabited

namespace SpecialFile

def find? (directory : Directory) (name : String) : Option SpecialFile :=
  if directory ≠ .devices then none
  else if name = "null" then some null
  else if name = "full" then some full
  else none

/-- What is read from a special file. -/
def read : SpecialFile → Except FileError ByteArray
  | null => .ok .empty
  | full => .error .outOfMemory

/-- Whether something can be written to a special file. -/
def write (contents : ByteArray) : SpecialFile → Except FileError Unit
  | null => .ok ()
  | full => if contents.isEmpty then .ok () else .error .noSpace

end SpecialFile

/-- What a path can lead to. -/
inductive Place where
  | directory (directory : Directory)
  | file (contents : ByteArray)
  | special (file : SpecialFile)
deriving Inhabited

structure Files where
  /-- The contents of each file by its directory and name, in the order of creation. -/
  entries : List ((Directory × String) × ByteArray)
deriving Inhabited

namespace Files

def empty : Files where
  entries := []

def ofWorking (contents : List (String × ByteArray)) : Files where
  entries := contents.map fun (name, bytes) => ((.working, name), bytes)

def working (files : Files) : List (String × ByteArray) :=
  files.entries.filterMap fun ((directory, name), bytes) =>
    if directory = .working then some (name, bytes) else none

def get? (files : Files) (directory : Directory) (name : String) : Option ByteArray :=
  files.entries.lookup (directory, name)

/-- The files after one of them was given new contents. -/
def put (files : Files) (directory : Directory) (name : String) (contents : ByteArray) : Files where
  entries :=
    if (files.get? directory name).isSome then
      files.entries.map fun entry =>
        if entry.1 = (directory, name) then (entry.1, contents) else entry
    else files.entries ++ [((directory, name), contents)]

/-- What has a name in a directory, if anything has. -/
def find (files : Files) (directory : Directory) (name : String) :
    Except FileError (Option Place) :=
  if Path.stepLimit < name.utf8ByteSize then .error .nameTooLong
  else if directory = .root ∧ name ∈ Directory.standardNames then
    .ok (some (.directory (.standard name)))
  else
    match SpecialFile.find? directory name with
    | some file => .ok (some (.special file))
    | none => .ok ((files.get? directory name).map .file)

/-- Where one step of a path leads. -/
def step (files : Files) (place : Place) (name : String) : Except FileError Place :=
  match place with
  | .file _ | .special _ => .error .notDirectory
  | .directory directory =>
    if name = "." then .ok place
    else if name = ".." then .ok (.directory directory.parent)
    else
      match files.find directory name with
      | .ok (some found) => .ok found
      | .ok none => .error .missing
      | .error error => .error error

/-- Where some steps lead from the root or from the working directory. -/
def follow (files : Files) (absolute : Bool) (steps : List String) : Except FileError Place :=
  steps.foldlM files.step (.directory (if absolute then .root else .working))

/-- The contents of the file at a path. -/
def read (files : Files) (text : String) : Except FileError ByteArray := do
  let path ← Path.ofText text
  match ← files.follow path.absolute path.steps with
  | .directory _ => .error .directory
  | .file contents => if path.slashed then .error .notDirectory else .ok contents
  | .special file => if path.slashed then .error .notDirectory else file.read

/-- The files after the one with a name in a directory was given new contents.  If there is no
such file, it is created. -/
def writeIn (files : Files) (directory : Directory) (name : String) (contents : ByteArray) :
    Except FileError Files := do
  match ← files.find directory name with
  | some (.directory _) => .error .directory
  | some (.special file) => (file.write contents).map fun _ => files
  | some (.file _) | none => .ok (files.put directory name contents)

/-- The files after the one at a path was given new contents.  A path that can only name a
directory is refused before its last step is taken. -/
def write (files : Files) (text : String) (contents : ByteArray) : Except FileError Files := do
  let path ← Path.ofText text
  match path.split? with
  | none => .error .directory
  | some (way, name) =>
    match ← files.follow path.absolute way with
    | .file _ | .special _ => .error .notDirectory
    | .directory directory =>
      if path.slashed ∨ name = "." ∨ name = ".." then .error .directory
      else files.writeIn directory name contents

end Files

end FirmwareUpgrade
