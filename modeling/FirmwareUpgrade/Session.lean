import FirmwareUpgrade.ControlPipe
import FirmwareUpgrade.Descriptor

/-!
# Sessions

A session is an opened DFU interface: its control pipe together with what is known about the
device.  This file gives the seven class requests on it and `cancelTransfer`, which ends whatever
transfer the device still expects.
-/

namespace FirmwareUpgrade

structure Session (ω : Type) where
  pipe : ControlPipe ω
  alternate : UInt8
  descriptor : Descriptor
  packetSize : UInt8
  vendor : UInt16
  product : UInt16
  deviations : Deviations

/-- The host after it has waited for the poll time of an answer, if that is not zero. -/
def Host.waitFor {ω : Type} (host : Host ω) (reply : StatusReply) : Host ω :=
  if reply.pollTime = 0 then host else host.record (.sleep reply.pollTime.toNat)

theorem Host.waitFor_clock {ω : Type} (host : Host ω) (reply : StatusReply) :
    (host.waitFor reply).clock = host.clock + reply.pollTime.toNat := by
  unfold waitFor
  split
  · next zero => simp [zero]
  · rfl

theorem Host.waitFor_world {ω : Type} (host : Host ω) (reply : StatusReply) :
    (host.waitFor reply).world = host.world := by
  unfold waitFor
  split <;> rfl

def StatusReply.wait {ω : Type} (reply : StatusReply) : Action ω Unit := ⟨fun host =>
  (.ok (), host.waitFor reply)⟩

namespace Session

variable {ω : Type}

def detach (session : Session ω) (timeout : UInt16) : Action ω Unit := do
  Action.note (.detaching timeout)
  let _ ← session.pipe.send .detach timeout .empty

/-- Sends one block of firmware; an empty block ends the download. -/
def download (session : Session ω) (block : UInt16) (data : ByteArray) : Action ω Nat := do
  Action.note (.downloadBlock block data.size)
  session.pipe.send .download block data

/-- Reads one block of firmware; a block shorter than `length` is the last one. -/
def upload (session : Session ω) (block length : UInt16) : Action ω ByteArray := do
  let data ← session.pipe.receive .upload block length
  Action.note (.uploadBlock block data.size)
  return data

/-- The status that an answer of any length stands for, and the notices about it. -/
def readStatus (session : Session ω) (bytes : ByteArray) : Action ω StatusReply := do
  match StatusReply.decode session.deviations bytes.data.toList with
  | .ok reply =>
    Action.note (.statusRead reply)
    return reply
  | .error fault =>
    Action.note (.statusUnreadable fault)
    Action.note (.statusRead .unreadable)
    return .unreadable

/-- Asks for the status.  An answer of the wrong length counts as an error that the device does
not explain, so that the caller can still try to clear it. -/
def getStatus (session : Session ω) : Action ω StatusReply := do
  let bytes ← session.pipe.receive .getStatus 0 (UInt16.ofNat StatusReply.size)
  session.readStatus bytes

def clearStatus (session : Session ω) : Action ω Unit := do
  Action.note .clearingStatus
  let _ ← session.pipe.send .clearStatus 0 .empty

def getState (session : Session ω) : Action ω State := do
  let bytes ← session.pipe.receive .getState 0 1
  match bytes.data.toList with
  | code :: _ =>
    Action.note (.stateRead (.ofCode code))
    return .ofCode code
  | [] => Action.fail (.shortReply 1 0)

def abort (session : Session ω) : Action ω Unit := do
  Action.note .aborting
  let _ ← session.pipe.send .abort 0 .empty

/-- Gives up any transfer and insists on the idle state.  If that fails, the device cannot be
relied on any more. -/
def cancelTransfer (session : Session ω) : Action ω StatusReply := do
  match ← session.abort.attempt with
  | .error fault =>
    Action.note (.abortNotSent fault)
    Action.fail (.abortFailed ("error sending dfu abort request: " ++ fault.message))
  | .ok () =>
    match ← session.getStatus.attempt with
    | .error fault =>
      Action.note (.abortUnconfirmed fault)
      Action.fail (.abortFailed ("error during abort get_status: " ++ fault.message))
    | .ok reply =>
      if reply.state ≠ .dfuIdle then
        Action.note (.abortIgnored reply.state)
        Action.fail
          (.abortFailed s!"failed to enter idle state on abort ({reply.state.text})")
      else
        reply.wait
        return reply

theorem readStatus_ok (session : Session ω) (bytes : ByteArray) (host : Host ω) :
    ∃ after,
      (session.readStatus bytes).run host = (.ok (.ofAnswer session.deviations bytes), after) ∧
        after.clock = host.clock ∧ after.world = host.world := by
  unfold readStatus StatusReply.ofAnswer
  cases StatusReply.decode session.deviations bytes.data.toList with
  | ok reply => exact ⟨_, rfl, rfl, rfl⟩
  | error fault => exact ⟨_, rfl, rfl, rfl⟩

/-- Asking for the status never turns the clock back. -/
theorem getStatus_clock_le (session : Session ω) (host : Host ω) :
    host.clock ≤ (session.getStatus.run host).2.clock := by
  rw [getStatus, Action.run_bind]
  have later := session.pipe.receive_clock_le .getStatus 0 (UInt16.ofNat StatusReply.size) host
  split
  · next bytes middle received =>
      obtain ⟨_, read, sameClock, _⟩ := session.readStatus_ok bytes middle
      rw [received] at later
      rw [read]
      simpa only [sameClock] using later
  · next fault middle received =>
      rw [received] at later
      exact later

/-- A round in which the device is busy either takes time or uses up one of the instants. -/
theorem getStatus_advances (session : Session ω) (pace : Pace session.pipe session.deviations)
    {host after : Host ω} {reply : StatusReply}
    (answered : session.getStatus.run host = (.ok reply, after)) (busy : ¬ reply.isSettled) :
    host.clock < (after.waitFor reply).clock ∨
      (after.waitFor reply).clock = host.clock ∧
        pace.instants (after.waitFor reply).world < pace.instants host.world := by
  rw [Host.waitFor_clock, Host.waitFor_world]
  have later := session.getStatus_clock_le host
  rw [answered] at later
  rw [getStatus, Action.run_bind] at answered
  split at answered
  · next bytes middle received =>
      obtain ⟨last, read, sameClock, sameWorld⟩ := session.readStatus_ok bytes middle
      rw [read, Prod.mk.injEq, Except.ok.injEq] at answered
      obtain ⟨rfl, rfl⟩ := answered
      rcases Nat.eq_zero_or_pos (StatusReply.ofAnswer session.deviations bytes).pollTime.toNat
        with zero | positive
      · rw [zero, Nat.add_zero, sameClock, sameWorld]
        exact session.pipe.receive_advances pace received busy (UInt32.toNat.inj zero)
      · left
        dsimp only at later
        omega
  · simp at answered

end Session

end FirmwareUpgrade
