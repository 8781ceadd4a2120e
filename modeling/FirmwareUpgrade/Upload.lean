import FirmwareUpgrade.Session

/-!
# Uploads

The firmware of a device is read in numbered blocks.  A block shorter than asked for is the last
one.  If a limit is given, the upload also ends when so many bytes have been read; otherwise it
fails when a device goes on beyond a bound.  In both of these cases the device still expects
requests and is told to give up the transfer.
-/

namespace FirmwareUpgrade

namespace Upload

/-- The bound on an upload without limit, in bytes. -/
def sizeBound : Nat := 64 * 1024 * 1024

def nextLength (chunk : Nat) (limit : Option Nat) (received : Nat) : Nat :=
  match limit with
  | some limit => min (limit - received) chunk
  | none => chunk

/-- How many bytes may be received before no further block is asked for. -/
def reach (limit : Option Nat) (bound : Nat) : Nat :=
  limit.getD bound

theorem nextLength_pos {chunk : Nat} {limit : Option Nat} {bound received : Nat}
    (positive : 0 < chunk) (unfinished : received < reach limit bound) :
    0 < nextLength chunk limit received := by
  cases limit with
  | none => exact positive
  | some limit =>
      have inside : received < limit := unfinished
      simp only [nextLength]
      omega

end Upload

namespace Session

variable {ω : Type}

open Upload

/-- Ends an upload that the device would go on with. -/
def endUpload (session : Session ω) (limit : Option Nat) (bound : Nat) : Action ω Unit := do
  let _ ← session.cancelTransfer
  match limit with
  | some _ => pure ()
  | none => Action.fail (.uploadTooLarge bound)

def readBlocks (session : Session ω) (chunk : Nat) (positive : 0 < chunk) (limit : Option Nat)
    (bound : Nat) (block : UInt16) (received : ByteArray) (host : Host ω) :
    Except Fault ByteArray × Host ω :=
  if _ : received.size < reach limit bound then
    match (session.upload block (UInt16.ofNat (nextLength chunk limit received.size))).run host with
    | (.error fault, after) => (.error fault, after)
    | (.ok data, after) =>
      let shown := received.size + data.size
      let after := after.record (.uploaded shown (limit.getD 0))
      if _ : data.size < nextLength chunk limit received.size then (.ok (received ++ data), after)
      else session.readBlocks chunk positive limit bound (block + 1) (received ++ data) after
  else
    match (session.endUpload limit bound).run host with
    | (.error fault, after) => (.error fault, after)
    | (.ok (), after) => (.ok received, after)
termination_by reach limit bound - received.size
decreasing_by
  have asked := nextLength_pos positive ‹received.size < reach limit bound›
  rw [ByteArray.size_append]
  omega

/-- Uploads the firmware of the device in blocks of `chunk` bytes, up to a limit if there is one
and else within the bound. -/
def uploadWithin (session : Session ω) (bound : Nat) (chunk : UInt16) (limit : Option Nat) :
    Action ω ByteArray := do
  if positive : 0 < chunk.toNat then
    let _ ← session.cancelTransfer
    let data ← ⟨session.readBlocks chunk.toNat positive limit bound 0 .empty⟩
    Action.note (.uploadDone data.size)
    return data
  else Action.fail .transferSizeUnknown

/-- Uploads the firmware of the device in blocks of `chunk` bytes, up to a limit if there is
one. -/
def uploadFirmware (session : Session ω) (chunk : UInt16) (limit : Option Nat) :
    Action ω ByteArray :=
  session.uploadWithin sizeBound chunk limit

end Session

end FirmwareUpgrade
