import FirmwareUpgrade.Event
import FirmwareUpgrade.Files

/-!
# Actions on a host

A host has devices attached, which are described by a type `ω` of worlds, files,
a clock and the transcript of what happened so far.  An action changes the host and ends with a
result or a fault; the changes up to a fault remain.
-/

namespace FirmwareUpgrade

structure Host (ω : Type) where
  world : ω
  files : Files
  /-- Milliseconds since the start. -/
  clock : Nat
  transcript : Array Event

namespace Host

variable {ω : Type}

def initial (world : ω) (files : Files) : Host ω where
  world
  files
  clock := 0
  transcript := #[]

/-- The host after an event: the clock has advanced and the event is on record. -/
@[inline]
def record (host : Host ω) (event : Event) : Host ω :=
  { host with
    clock := host.clock + event.duration
    transcript := host.transcript.push event }

def recordAll (host : Host ω) (events : List Event) : Host ω :=
  events.foldl record host

end Host

/-- Work on a host that ends with a result or a fault. -/
structure Action (ω α : Type) where
  run : Host ω → Except Fault α × Host ω

namespace Action

variable {ω α β : Type}

@[always_inline]
instance : Monad (Action ω) where
  pure result := ⟨fun host => (.ok result, host)⟩
  bind action next := ⟨fun host =>
    match action.run host with
    | (.ok result, host) => (next result).run host
    | (.error fault, host) => (.error fault, host)⟩

@[inline]
def fail (fault : Fault) : Action ω α := ⟨fun host =>
  (.error fault, host)⟩

@[inline]
def ofExcept (result : Except Fault α) : Action ω α := ⟨fun host =>
  (result, host)⟩

@[inline]
def record (event : Event) : Action ω Unit := ⟨fun host =>
  (.ok (), host.record event)⟩

@[inline]
def note (notice : Notice) : Action ω Unit :=
  record (.notice notice)

@[inline]
def sleep (milliseconds : Nat) : Action ω Unit :=
  record (.sleep milliseconds)

/-- The contents of the file at a path, or why it cannot be read. -/
def readFile (path : String) : Action ω (Except FileError ByteArray) := ⟨fun host =>
  (.ok (host.files.read path), host)⟩

/-- Gives the file at a path new contents; the result says why it cannot be written. -/
def writeFile (path : String) (contents : ByteArray) : Action ω (Except FileError Unit) :=
  ⟨fun host =>
    match host.files.write path contents with
    | .ok files => (.ok (.ok ()), { host with files }.record (.saved path contents))
    | .error error => (.ok (.error error), host)⟩

@[inline]
def attempt (action : Action ω α) : Action ω (Except Fault α) := ⟨fun host =>
  match action.run host with
  | (result, host) => (.ok result, host)⟩

/-- Puts events on record after an action, whether or not it ended with a fault. -/
@[inline]
def followedBy (action : Action ω α) (events : List Event) : Action ω α := ⟨fun host =>
  match action.run host with
  | (result, host) => (result, host.recordAll events)⟩

@[inline]
def mapFault (change : Fault → Fault) (action : Action ω α) : Action ω α := ⟨fun host =>
  match action.run host with
  | (result, host) => (result.mapError change, host)⟩

@[simp]
theorem run_pure (result : α) (host : Host ω) :
    (pure result : Action ω α).run host = (.ok result, host) := rfl

theorem run_bind (action : Action ω α) (next : α → Action ω β) (host : Host ω) :
    (action >>= next).run host =
      match action.run host with
      | (.ok result, host) => (next result).run host
      | (.error fault, host) => (.error fault, host) := rfl

@[simp]
theorem run_fail (fault : Fault) (host : Host ω) :
    (fail fault : Action ω α).run host = (.error fault, host) := rfl

@[simp]
theorem run_record (event : Event) (host : Host ω) :
    (record event).run host = (.ok (), host.record event) := rfl

end Action

end FirmwareUpgrade
