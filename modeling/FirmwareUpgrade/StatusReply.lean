import FirmwareUpgrade.Deviations
import FirmwareUpgrade.Fault
import FirmwareUpgrade.LittleEndian

/-!
# Status replies

The answer to `DFU_GETSTATUS` has six bytes: the status, the time to wait before the next such
request as a 24-bit number of milliseconds, the state, and the index of a string.  `decode` reads
it and `encode` writes it.
-/

namespace FirmwareUpgrade

/-- A decoded answer to `DFU_GETSTATUS`. -/
structure StatusReply where
  status : StatusCode
  /-- Milliseconds to wait before the next status request. -/
  pollTime : UInt32
  state : State
  /-- The index of a string about the status, zero if there is none. -/
  stringIndex : UInt8
deriving DecidableEq, Repr, Inhabited

namespace StatusReply

def size : Nat := 6

/-- The poll time of devices whose own one is meaningless. -/
def fixedPollTime : UInt32 := 5

/-- Reads an answer of a device with the given deviations. -/
def decode (deviations : Deviations) : List UInt8 → Except Fault StatusReply
  | [status, poll0, poll1, poll2, state, stringIndex] =>
    .ok {
      status := .ofCode status
      pollTime :=
        if deviations.fixedPollTime then fixedPollTime
        else LittleEndian.join24 poll0 poll1 poll2
      state := .ofCode state
      stringIndex }
  | bytes => .error (.shortReply size bytes.length)

def encode (reply : StatusReply) : List UInt8 :=
  [reply.status.code] ++ LittleEndian.split24 reply.pollTime
    ++ [reply.state.code, reply.stringIndex]

/-- What is assumed of a device whose answer cannot be read. -/
def unreadable : StatusReply where
  status := .errUnknown
  pollTime := 0
  state := .dfuError
  stringIndex := 0

/-- The reply that the bytes of an answer stand for. -/
def ofAnswer (deviations : Deviations) (bytes : ByteArray) : StatusReply :=
  match decode deviations bytes.data.toList with
  | .ok reply => reply
  | .error _ => .unreadable

/-- Whether a device has dealt with the block it was sent, or cannot any more. -/
abbrev isSettled (reply : StatusReply) : Prop :=
  reply.state = .dfuDownloadIdle ∨ reply.state = .dfuError

def stringIndex? (reply : StatusReply) : Option UInt8 :=
  if reply.stringIndex = 0 then none else some reply.stringIndex

def fault (reply : StatusReply) : Fault :=
  .status reply.status reply.state

/-- A result that holds only if the device reported no error. -/
def require (reply : StatusReply) {α : Type} (result : α) : Except Fault α :=
  if reply.status.isOk then .ok result else .error reply.fault

def text (reply : StatusReply) : String :=
  s!"state({reply.state.code.toNat}) = {reply.state.text}, "
    ++ s!"status({reply.status.code.toNat}) = {reply.status.message}"

/-- A reply that asks for no wait means the same of a device without deviations. -/
theorem ofAnswer_none {deviations : Deviations} {bytes : ByteArray}
    (zero : (ofAnswer deviations bytes).pollTime = 0) :
    ofAnswer .none bytes = ofAnswer deviations bytes := by
  obtain ⟨fixedPollTime⟩ := deviations
  cases fixedPollTime with
  | false => rfl
  | true =>
      unfold ofAnswer decode at zero ⊢
      split at zero
      · next read =>
          split at read
          · obtain rfl := Except.ok.inj read
            simp [fixedPollTime] at zero
          · contradiction
      · next read =>
          split at read
          · contradiction
          · rfl

end StatusReply

end FirmwareUpgrade
