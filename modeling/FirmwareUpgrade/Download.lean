import FirmwareUpgrade.Session

/-!
# Downloads

Firmware goes to a device in numbered blocks of equal size, the last one possibly shorter.  After
each block the host asks for the status until the device has stored it.  An empty block ends the
transfer, after which the device puts the new firmware into effect.  In both phases the host
waits as long as the device asks for, but gives up after two minutes.

`plan` lists the blocks of a download without any reference to the device.
-/

namespace FirmwareUpgrade

namespace Download

/-- The milliseconds after which a busy device is given up. -/
def busyLimit : Nat := 120000

/-- The milliseconds that a device is left alone while it puts firmware into effect. -/
def settleTime : Nat := 1000

/-- The number of blocks of `chunk` bytes that hold `size` bytes. -/
def blockCount (size chunk : Nat) : Nat :=
  (size + chunk - 1) / chunk

/-- The block with the given position: its number and its bytes. -/
def planned (payload : ByteArray) (chunk position : Nat) : UInt16 × ByteArray :=
  (UInt16.ofNat position, payload.extract (position * chunk) ((position + 1) * chunk))

/-- The blocks of a download in their order, with the empty one at the end. -/
def plan (payload : ByteArray) (chunk : Nat) : List (UInt16 × ByteArray) :=
  (List.range (blockCount payload.size chunk)).map (planned payload chunk)
    ++ [(UInt16.ofNat (blockCount payload.size chunk), .empty)]

end Download

namespace Session

variable {ω : Type}

open Download

/-- Asks for the status until the device has dealt with a block or reports an error.  The limit
counts from `start`. -/
def pollBusy (session : Session ω) (pace : Pace session.pipe session.deviations) (start : Nat)
    (host : Host ω) : Except Fault StatusReply × Host ω :=
  match _ : session.getStatus.run host with
  | (.error fault, after) => (.error fault, after)
  | (.ok reply, after) =>
    if _ : reply.isSettled then (.ok reply, after)
    else if _ : start + busyLimit ≤ (after.waitFor reply).clock then
      (.error .timeout, after.waitFor reply)
    else session.pollBusy pace start (after.waitFor reply)
termination_by (start + busyLimit - host.clock, pace.instants host.world)
decreasing_by
  have advanced :=
    session.getStatus_advances pace ‹session.getStatus.run host = (.ok reply, after)› ‹_›
  rcases advanced with later | ⟨same, lowered⟩
  · exact Prod.Lex.left _ _ (by omega)
  · rw [same]
    exact Prod.Lex.right _ lowered

def awaitBlock (session : Session ω) (pace : Pace session.pipe session.deviations) :
    Action ω StatusReply :=
  ⟨fun host => session.pollBusy pace host.clock host⟩

/-- Sends one block and waits until the device has stored it. -/
def storeBlock (session : Session ω) (pace : Pace session.pipe session.deviations)
    (block : UInt16) (data : ByteArray) : Action ω Unit := do
  let _ ← session.download block data
  let reply ← session.awaitBlock pace
  if reply.status.isOk then
    return
  else
    Action.note (.blockRefused reply)
    Action.fail reply.fault

/-- Sends the blocks of a payload from an offset on; the result is the number of the block after
the last. -/
def sendBlocks (session : Session ω) (pace : Pace session.pipe session.deviations)
    (payload : ByteArray) (chunk : Nat) (positive : 0 < chunk) (block : UInt16) (offset : Nat)
    (host : Host ω) : Except Fault UInt16 × Host ω :=
  if offset < payload.size then
    let data := payload.extract offset (offset + chunk)
    match (session.storeBlock pace block data).run host with
    | (.error fault, after) => (.error fault, after)
    | (.ok (), after) =>
      session.sendBlocks pace payload chunk positive (block + 1) (offset + chunk)
        (after.record (.downloaded (offset + data.size) payload.size))
  else (.ok block, host)
termination_by payload.size - offset

/-- Whether a device that has received its firmware is still at work on it. -/
def isManifesting (state : State) : Bool :=
  state == .dfuManifestSync || state == .dfuManifest

/-- What the first answer of a device that is no longer at work means. -/
def concludeManifestation (reply : StatusReply) : Action ω Unit := do
  match reply.state with
  | .dfuIdle | .dfuManifestWaitReset =>
    Action.note (.downloadDone reply)
    Action.ofExcept (reply.require ())
  | .dfuError =>
    Action.note (.manifestationFailed reply)
    Action.fail reply.fault
  | state =>
    Action.note (.unexpectedAfterDownload state)
    Action.ofExcept (reply.require ())

/-- Asks for the status until the device has put its firmware into effect.  A device that does
not have to answer in this phase may leave the bus instead.  The limit counts from `start`. -/
def pollManifestation (session : Session ω) (start : Nat) (host : Host ω) :
    Except Fault Unit × Host ω :=
  match _ : session.getStatus.run host with
  | (.error fault, after) =>
    if session.descriptor.manifestationTolerant then (.error fault, after)
    else (.ok (), after.record (.notice (.leftWhileManifesting fault)))
  | (.ok reply, after) =>
    let waited := after.waitFor reply
    if isManifesting reply.state then
      let settled := waited.record (.sleep settleTime)
      if _ : start + busyLimit ≤ settled.clock then (.error .timeout, settled)
      else session.pollManifestation start settled
    else (concludeManifestation reply).run waited
termination_by start + busyLimit - host.clock
decreasing_by
  have later := session.getStatus_clock_le host
  rw [‹session.getStatus.run host = (.ok reply, after)›] at later
  have waiting := after.waitFor_clock reply
  have settling : settled.clock = waited.clock + settleTime := rfl
  simp only [settleTime] at settling
  change start + busyLimit - settled.clock < start + busyLimit - host.clock
  have same : waited.clock = (after.waitFor reply).clock := rfl
  dsimp only at later
  omega

/-- Waits until the device has put its firmware into effect. -/
def awaitManifestation (session : Session ω) : Action ω Unit :=
  ⟨fun host => session.pollManifestation host.clock host⟩

/-- Ends a download: sends the empty block and waits until the firmware is in effect. -/
def endDownload (session : Session ω) (block : UInt16) : Action ω Unit := do
  Action.note .endingDownload
  let _ ← session.download block .empty
  session.awaitManifestation

/-- Downloads a payload in blocks of `chunk` bytes. -/
def downloadPayload (session : Session ω) (pace : Pace session.pipe session.deviations)
    (chunk : UInt16) (payload : ByteArray) : Action ω Unit := do
  if positive : 0 < chunk.toNat then
    Action.record (.downloaded 0 payload.size)
    let block ← ⟨session.sendBlocks pace payload chunk.toNat positive 0 0⟩
    session.endDownload block
  else Action.fail .transferSizeUnknown

end Session

end FirmwareUpgrade
