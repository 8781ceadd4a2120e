import FirmwareUpgrade.Device
import FirmwareUpgrade.Proofs.Performance
import FirmwareUpgrade.Script

/-!
# What the requests of a session do

Each request of a session is one control transfer, and waiting for the poll time of an answer is
one sleep or none.  Two views of the deeds are used throughout: the exchanges with the device, and
what a status answer reports.
-/

namespace FirmwareUpgrade

variable {ω : Type}

/-! ## The exchanges among the events -/

def Event.exchange? : Event → Option Exchange
  | .exchange _ transfer _ => some transfer
  | _ => none

def exchanges (events : List Event) : List Exchange :=
  events.filterMap Event.exchange?

@[simp]
theorem exchanges_nil : exchanges [] = [] := rfl

@[simp]
theorem exchanges_append (first second : List Event) :
    exchanges (first ++ second) = exchanges first ++ exchanges second := by
  simp [exchanges]

theorem exchanges_cons_of_none {event : Event} (events : List Event)
    (hnone : event.exchange? = none) : exchanges (event :: events) = exchanges events := by
  simp [exchanges, hnone]

@[simp]
theorem exchanges_cons_exchange (route : Route) (transfer : Exchange) (delay : Nat)
    (events : List Event) :
    exchanges (.exchange route transfer delay :: events) = transfer :: exchanges events := by
  simp [exchanges, Event.exchange?]

@[simp]
theorem exchanges_cons_sleep (milliseconds : Nat) (events : List Event) :
    exchanges (.sleep milliseconds :: events) = exchanges events :=
  exchanges_cons_of_none events rfl

@[simp]
theorem exchanges_cons_downloaded (done total : Nat) (events : List Event) :
    exchanges (.downloaded done total :: events) = exchanges events :=
  exchanges_cons_of_none events rfl

@[simp]
theorem exchanges_cons_uploaded (done limit : Nat) (events : List Event) :
    exchanges (.uploaded done limit :: events) = exchanges events :=
  exchanges_cons_of_none events rfl

def Exchange.request : Exchange → Request
  | .out request _ _ _ => request
  | .receive request _ _ _ => request

/-! ## What a status answer reports -/

theorem StatusCode.isOk_iff (status : StatusCode) : status.isOk ↔ status = .ok := by
  cases status <;> simp [isOk]

/-- The status and the state in the bytes of an answer.  An answer that has not six bytes counts
as an error that the device does not explain. -/
def reportOf (bytes : ByteArray) : StatusCode × State :=
  match bytes.data.toList with
  | [status, _, _, _, state, _] => (.ofCode status, .ofCode state)
  | _ => (.errUnknown, .dfuError)

def Exchange.report? : Exchange → Option (StatusCode × State)
  | .receive .getStatus _ _ (.ok bytes) => some (reportOf bytes)
  | _ => none

theorem StatusReply.ofAnswer_report (deviations : Deviations) (bytes : ByteArray) :
    ((ofAnswer deviations bytes).status, (ofAnswer deviations bytes).state) = reportOf bytes := by
  unfold ofAnswer reportOf
  rcases bytes.data.toList with
    _ | ⟨_, _ | ⟨_, _ | ⟨_, _ | ⟨_, _ | ⟨_, _ | ⟨_, _ | ⟨_, _⟩⟩⟩⟩⟩⟩⟩ <;> rfl

/-! ## The requests -/

namespace Session

variable {session : Session ω} {before after : Moment ω}

def replyTo (session : Session ω) (bytes : ByteArray) : StatusReply :=
  .ofAnswer session.deviations bytes

def statusOf (session : Session ω) (answer : Except TransferError ByteArray) :
    Except Fault StatusReply :=
  (answer.mapError .transfer).map session.replyTo

@[simp]
theorem statusOf_ok (session : Session ω) (bytes : ByteArray) :
    session.statusOf (.ok bytes) = .ok (session.replyTo bytes) := rfl

@[simp]
theorem statusOf_error (session : Session ω) (error : TransferError) :
    session.statusOf (.error error) = .error (.transfer error) := rfl

def statusDeed (session : Session ω) (answer : Except TransferError ByteArray) (delay : Nat) :
    Event :=
  .exchange session.pipe.route (.receive .getStatus 0 6 answer) delay

def orderDeed (session : Session ω) (request : Request) (value : UInt16) (data : ByteArray)
    (taken : Except TransferError Nat) (delay : Nat) : Event :=
  .exchange session.pipe.route (.out request value data taken) delay

@[simp]
theorem exchanges_cons_statusDeed (answer : Except TransferError ByteArray) (delay : Nat)
    (events : List Event) :
    exchanges (session.statusDeed answer delay :: events) =
      .receive .getStatus 0 6 answer :: exchanges events :=
  exchanges_cons_exchange ..

@[simp]
theorem exchanges_cons_orderDeed (request : Request) (value : UInt16) (data : ByteArray)
    (taken : Except TransferError Nat) (delay : Nat) (events : List Event) :
    exchanges (session.orderDeed request value data taken delay :: events) =
      .out request value data taken :: exchanges events :=
  exchanges_cons_exchange ..

theorem replyTo_report (session : Session ω) (bytes : ByteArray) :
    reportOf bytes = ((session.replyTo bytes).status, (session.replyTo bytes).state) :=
  (StatusReply.ofAnswer_report session.deviations bytes).symm

theorem replyTo_status (session : Session ω) (bytes : ByteArray) :
    (session.replyTo bytes).status = (reportOf bytes).1 := by
  rw [replyTo_report session]

theorem replyTo_state (session : Session ω) (bytes : ByteArray) :
    (session.replyTo bytes).state = (reportOf bytes).2 := by
  rw [replyTo_report session]

theorem readStatus_performs (session : Session ω) (bytes : ByteArray) (moment : Moment ω) :
    (session.readStatus bytes).Performs moment [] (.ok (session.replyTo bytes)) moment := by
  unfold readStatus replyTo StatusReply.ofAnswer
  cases StatusReply.decode session.deviations bytes.data.toList with
  | ok reply => exact .after_note (Action.performs_pure reply moment)
  | error fault => exact .after_note (.after_note (Action.performs_pure _ moment))

theorem getStatus_performs {answer : Except TransferError ByteArray} {delay : Nat}
    (hasked : session.pipe.asked .getStatus 0 6 before = (⟨answer, delay⟩, after)) :
    session.getStatus.Performs before [session.statusDeed answer delay] (session.statusOf answer)
      after := by
  have hreceive := ControlPipe.receive_performs hasked
  cases answer with
  | error error => exact hreceive.bind_error
  | ok bytes => exact hreceive.bind (session.readStatus_performs bytes after)

theorem download_performs {block : UInt16} {data : ByteArray}
    {taken : Except TransferError Nat} {delay : Nat}
    (htold : session.pipe.told .download block data before = (⟨taken, delay⟩, after)) :
    (session.download block data).Performs before
      [session.orderDeed .download block data taken delay] (taken.mapError .transfer) after :=
  .after_note (ControlPipe.send_performs htold)

theorem sendPlain_performs {request : Request} {value : UInt16}
    {taken : Except TransferError Nat} {delay : Nat}
    (htold : session.pipe.told request value .empty before = (⟨taken, delay⟩, after))
    (notice : Notice) :
    (do
      Action.note notice
      let _ ← session.pipe.send request value .empty : Action ω Unit).Performs before
      [session.orderDeed request value .empty taken delay]
      ((taken.mapError .transfer).map fun _ => ()) after := by
  have hsend := ControlPipe.send_performs htold
  apply Action.Performs.after_note
  cases taken with
  | error error => exact hsend.bind_error
  | ok count => exact hsend.bind (Action.performs_pure () after)

theorem clearStatus_performs {taken : Except TransferError Nat} {delay : Nat}
    (htold : session.pipe.told .clearStatus 0 .empty before = (⟨taken, delay⟩, after)) :
    session.clearStatus.Performs before [session.orderDeed .clearStatus 0 .empty taken delay]
      ((taken.mapError .transfer).map fun _ => ()) after :=
  sendPlain_performs htold .clearingStatus

theorem abort_performs {taken : Except TransferError Nat} {delay : Nat}
    (htold : session.pipe.told .abort 0 .empty before = (⟨taken, delay⟩, after)) :
    session.abort.Performs before [session.orderDeed .abort 0 .empty taken delay]
      ((taken.mapError .transfer).map fun _ => ()) after :=
  sendPlain_performs htold .aborting

theorem detach_performs {timeout : UInt16} {taken : Except TransferError Nat} {delay : Nat}
    (htold : session.pipe.told .detach timeout .empty before = (⟨taken, delay⟩, after)) :
    (session.detach timeout).Performs before
      [session.orderDeed .detach timeout .empty taken delay]
      ((taken.mapError .transfer).map fun _ => ()) after :=
  sendPlain_performs htold (.detaching timeout)

end Session

/-! ## Waiting for the poll time -/

/-- The sleep that an answer asks for, none if its poll time is zero. -/
def StatusReply.sleeps (reply : StatusReply) : List Event :=
  if reply.pollTime = 0 then [] else [.sleep reply.pollTime.toNat]

def Moment.waited (moment : Moment ω) (reply : StatusReply) : Moment ω :=
  ⟨moment.world, moment.clock + reply.pollTime.toNat⟩

@[simp]
theorem Moment.waited_world (moment : Moment ω) (reply : StatusReply) :
    (moment.waited reply).world = moment.world := rfl

@[simp]
theorem Moment.waited_clock (moment : Moment ω) (reply : StatusReply) :
    (moment.waited reply).clock = moment.clock + reply.pollTime.toNat := rfl

@[simp]
theorem exchanges_sleeps (reply : StatusReply) : exchanges reply.sleeps = [] := by
  unfold StatusReply.sleeps
  split <;> rfl

theorem elapsed_sleeps (reply : StatusReply) : elapsed reply.sleeps = reply.pollTime.toNat := by
  unfold StatusReply.sleeps
  split
  · next hzero => simp [hzero]
  · simp [Event.duration]

theorem run_wait (reply : StatusReply) (host : Host ω) :
    (reply.wait : Action ω Unit).run host = (.ok (), host.waitFor reply) := rfl

theorem wait_performs (reply : StatusReply) (moment : Moment ω) :
    (reply.wait : Action ω Unit).Performs moment reply.sleeps (.ok ()) (moment.waited reply) where
  run host hhost := by
    refine ⟨host.waitFor reply, rfl, ?_, ?_, ?_⟩
    · subst hhost
      simp [Host.moment, Moment.waited, host.waitFor_clock, host.waitFor_world]
    · unfold Host.waitFor
      split <;> rfl
    · unfold Host.waitFor StatusReply.sleeps
      split
      · simp
      · exact host.record_deeds rfl
  clock := by
    rw [elapsed_sleeps, Moment.waited_clock]

/-! ## A device to try statements on -/

/-- The session with a scripted device that promises nothing. -/
def Script.session : Session Script :=
  (default : Device Nat).session (Script.pipe (.direct 0))

/-- A host with a device that answers with the given status and state bytes and takes whatever it
is sent. -/
def Host.reporting (reports : List (UInt8 × UInt8)) : Host Script :=
  let answers := reports.map fun (status, state) => ⟨.ok ⟨#[status, 0, 0, 0, state, 0]⟩, 0, 0⟩
  .initial ⟨answers, [], []⟩ .empty

end FirmwareUpgrade
