import FirmwareUpgrade.Action
import FirmwareUpgrade.StatusReply

/-!
# Control pipes

A control pipe leads to one interface of a device.  What the device does is given by two
functions of the state of the attached world; sending and receiving put the transfer on record
and let its time pass.  A transfer is never tried again.

A `Pace` bounds how often a device can still say that it is busy without any time passing.  Every
device that takes time for such an answer or asks the host to wait in it has one, and so has every
device that answers finitely often.
-/

namespace FirmwareUpgrade

/-- What comes of a control transfer, and the milliseconds it takes. -/
structure Reaction (α : Type) where
  result : Except TransferError α
  delay : Nat

structure ControlPipe (ω : Type) where
  route : Route
  /-- The device is sent data; the result is the number of bytes taken. -/
  onOut : Request → UInt16 → ByteArray → ω → Reaction Nat × ω
  /-- The device is asked for at most so many bytes. -/
  onIn : Request → UInt16 → UInt16 → ω → Reaction ByteArray × ω

/-- A bound on the answers in which a device of the given deviations is busy and which take no time:
neither is there a delay, nor a poll time to wait for. -/
structure Pace {ω : Type} (pipe : ControlPipe ω) (deviations : Deviations := .none) where
  /-- How many of these answers are left at most. -/
  instants : ω → Nat
  instants_lt :
    ∀ {world after : ω} {bytes : ByteArray},
      pipe.onIn .getStatus 0 (UInt16.ofNat StatusReply.size) world = (⟨.ok bytes, 0⟩, after) →
      ¬ (StatusReply.ofAnswer deviations bytes).isSettled →
      (StatusReply.ofAnswer deviations bytes).pollTime = 0 →
        instants after < instants world

/-- The host waits no less for a device with deviations. -/
def Pace.under {ω : Type} {pipe : ControlPipe ω} (pace : Pace pipe) (deviations : Deviations) :
    Pace pipe deviations where
  instants := pace.instants
  instants_lt := by
    intro world after bytes answered busy zero
    have same := StatusReply.ofAnswer_none zero
    rw [← same] at busy zero
    exact pace.instants_lt answered busy zero

instance {ω : Type} {pipe : ControlPipe ω} {deviations : Deviations} :
    Coe (Pace pipe) (Pace pipe deviations) where
  coe pace := pace.under deviations

/-- A control pipe whose device cannot be busy forever without time passing. -/
structure PacedPipe (ω : Type) where
  pipe : ControlPipe ω
  pace : Pace pipe

namespace ControlPipe

variable {ω : Type}

/-- Reports a transfer that is about to go over the bus. -/
@[inline]
def announce (pipe : ControlPipe ω) (notice : Notice) (host : Host ω) : Host ω :=
  match pipe.route with
  | .direct _ => host
  | .bus _ _ _ => host.record (.notice notice)

/-- Sends data to the device; the result is the number of bytes it took. -/
def send (pipe : ControlPipe ω) (request : Request) (value : UInt16) (data : ByteArray) :
    Action ω Nat := ⟨fun host =>
  let host := pipe.announce (.transferOut request value data.size) host
  match pipe.onOut request value data host.world with
  | (reaction, world) =>
    (reaction.result.mapError .transfer,
      { host with world }.record
        (.exchange pipe.route (.out request value data reaction.result) reaction.delay))⟩

def receive (pipe : ControlPipe ω) (request : Request) (value length : UInt16) :
    Action ω ByteArray := ⟨fun host =>
  let host := pipe.announce (.transferIn request value length) host
  match pipe.onIn request value length host.world with
  | (reaction, world) =>
    (reaction.result.mapError .transfer,
      { host with world }.record
        (.exchange pipe.route (.receive request value length reaction.result) reaction.delay))⟩

@[simp]
theorem announce_clock (pipe : ControlPipe ω) (notice : Notice) (host : Host ω) :
    (pipe.announce notice host).clock = host.clock := by
  unfold announce
  split <;> rfl

@[simp]
theorem announce_world (pipe : ControlPipe ω) (notice : Notice) (host : Host ω) :
    (pipe.announce notice host).world = host.world := by
  unfold announce
  split <;> rfl

/-- Asking for data never turns the clock back. -/
theorem receive_clock_le (pipe : ControlPipe ω) (request : Request) (value length : UInt16)
    (host : Host ω) : host.clock ≤ ((pipe.receive request value length).run host).2.clock := by
  rcases pipe.onIn request value length host.world with ⟨⟨result, delay⟩, world⟩
  simp only [receive, Host.record, announce_clock]
  exact Nat.le_add_right _ _

/-- Busy answers that take no time are used up. -/
theorem receive_advances (pipe : ControlPipe ω) {deviations : Deviations}
    (pace : Pace pipe deviations) {host after : Host ω} {bytes : ByteArray}
    (received :
      (pipe.receive .getStatus 0 (UInt16.ofNat StatusReply.size)).run host = (.ok bytes, after))
    (busy : ¬ (StatusReply.ofAnswer deviations bytes).isSettled)
    (zero : (StatusReply.ofAnswer deviations bytes).pollTime = 0) :
    host.clock < after.clock ∨
      after.clock = host.clock ∧ pace.instants after.world < pace.instants host.world := by
  rcases reacted : pipe.onIn .getStatus 0 (UInt16.ofNat StatusReply.size) host.world with
    ⟨⟨result, delay⟩, world⟩
  simp only [receive, announce_world, reacted] at received
  simp only [Prod.mk.injEq] at received
  obtain ⟨succeeded, rfl⟩ := received
  cases result with
  | error error => contradiction
  | ok value =>
      obtain rfl : value = bytes := Except.ok.inj succeeded
      simp only [Host.record, Event.duration, announce_clock]
      rcases Nat.eq_zero_or_pos delay with rfl | positive
      · right
        exact ⟨rfl, pace.instants_lt reacted busy zero⟩
      · left
        omega

end ControlPipe

end FirmwareUpgrade
