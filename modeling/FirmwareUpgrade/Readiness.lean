import FirmwareUpgrade.Session

/-!
# Readiness for a transfer

Before a transfer the device has to be idle and without error.  A device may be found in any
state: with an error that has to be cleared, with a transfer left open, or on its way from one
state to another.  `reachIdle` asks for the status up to sixteen times and does what the reported
state calls for after each answer.
-/

namespace FirmwareUpgrade

inductive Remedy where
  | ready
  | clearStatus
  | abort
  /-- The device is on its way to another state. -/
  | askAgain
  /-- The device has not entered DFU mode. -/
  | giveUp
deriving DecidableEq, Repr, Inhabited

/-- What a state calls for before a transfer. -/
def State.remedy : State → Remedy
  | .appIdle | .appDetach => .giveUp
  | .dfuError => .clearStatus
  | .dfuDownloadIdle | .dfuUploadIdle => .abort
  | .dfuIdle => .ready
  | .dfuDownloadSync | .dfuDownloadBusy | .dfuManifestSync | .dfuManifest
  | .dfuManifestWaitReset | .unknown _ => .askAgain

namespace Session

variable {ω : Type}

/-- How often the status of a device is asked for before it is given up. -/
def readinessPolls : Nat := 16

/-- Clears an error that an idle device still reports.  If it stays, the device is given up. -/
def clearLeftError (session : Session ω) (reply : StatusReply) : Action ω StatusReply := do
  if reply.status.isOk then
    return reply
  else
    Action.note (.clearingPending reply.status)
    session.clearStatus
    let cleared ← session.getStatus
    cleared.wait
    Action.ofExcept (cleared.require cleared)

def tolerate (action : Action ω Unit) (notice : Fault → Notice) : Action ω Unit := do
  match ← action.attempt with
  | .ok () => pure ()
  | .error fault => Action.note (notice fault)

/-- Asks for the status up to `polls` times; `last` is the state reported before. -/
def settle (session : Session ω) : (polls : Nat) → (last : State) → Action ω StatusReply
  | 0, last => Action.fail (.notIdle last)
  | polls + 1, _ => do
    let reply ← session.getStatus
    reply.wait
    match reply.state.remedy with
    | .ready => session.clearLeftError reply
    | .giveUp => Action.fail (.runtimeMode reply.state)
    | .clearStatus =>
      tolerate session.clearStatus .clearingFailed
      session.settle polls reply.state
    | .abort =>
      tolerate session.abort .leftoverNotAborted
      session.settle polls reply.state
    | .askAgain =>
      Action.note (.waitingToLeave reply.state)
      session.settle polls reply.state

/-- Brings the device to its idle state with no error reported. -/
def reachIdle (session : Session ω) : Action ω StatusReply :=
  session.settle readinessPolls (.unknown 0xFF)

end Session

end FirmwareUpgrade
