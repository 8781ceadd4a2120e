import FirmwareUpgrade.Proofs.SessionRequests
import FirmwareUpgrade.Upload

/-!
# The course of an upload

The loop of an upload is opened here once, in the same way as those of a download: `Reading` lists
the rounds of the loop, `Cancelling` what giving up a transfer can do, and `uploadWithin_performs`
shows that an upload takes one of these courses.
-/

namespace FirmwareUpgrade

variable {ω : Type}

namespace Session

open Upload

theorem readBlocks_eq (session : Session ω) (chunk : Nat) (positive : 0 < chunk)
    (limit : Option Nat) (bound : Nat) (block : UInt16) (received : ByteArray) :
    (⟨session.readBlocks chunk positive limit bound block received⟩ : Action ω ByteArray) = (do
      if received.size < reach limit bound then
        let length := nextLength chunk limit received.size
        let data ← session.upload block (UInt16.ofNat length)
        Action.record (.uploaded (received.size + data.size) (limit.getD 0))
        if data.size < length then return received ++ data
        else ⟨session.readBlocks chunk positive limit bound (block + 1) (received ++ data)⟩
      else
        session.endUpload limit bound
        return received) := by
  apply Action.ext
  intro host
  change session.readBlocks chunk positive limit bound block received host = _
  rw [readBlocks]
  split
  · dsimp only
    rw [Action.run_bind]
    split
    · next heq => rw [heq]
    · next heq =>
        rw [heq]
        dsimp only
        split
        · rfl
        · rfl
  · rw [Action.run_bind]
    split
    · next heq => rw [heq]
    · next heq =>
        rw [heq]
        rfl

/-! ## The courses -/

def blockDeed (session : Session ω) (block length : UInt16)
    (answer : Except TransferError ByteArray) (delay : Nat) : Event :=
  .exchange session.pipe.route (.receive .upload block length answer) delay

@[simp]
theorem exchanges_cons_blockDeed (session : Session ω) (block length : UInt16)
    (answer : Except TransferError ByteArray) (delay : Nat) (events : List Event) :
    exchanges (session.blockDeed block length answer delay :: events) =
      .receive .upload block length answer :: exchanges events :=
  exchanges_cons_exchange ..

def unsentAbort (error : TransferError) : Fault :=
  .abortFailed ("error sending dfu abort request: " ++ (Fault.transfer error).message)

def unconfirmedAbort (error : TransferError) : Fault :=
  .abortFailed ("error during abort get_status: " ++ (Fault.transfer error).message)

def ignoredAbort (state : State) : Fault :=
  .abortFailed s!"failed to enter idle state on abort ({state.text})"

inductive Cancelling (session : Session ω) :
    Moment ω → List Event → Except Fault StatusReply → Moment ω → Prop
  | unsent {before after error delay}
      (htold : session.pipe.told .abort 0 .empty before = (⟨.error error, delay⟩, after)) :
      Cancelling session before [session.orderDeed .abort 0 .empty (.error error) delay]
        (.error (unsentAbort error)) after
  | unconfirmed {before middle after count error delay wait}
      (htold : session.pipe.told .abort 0 .empty before = (⟨.ok count, delay⟩, middle))
      (hasked : session.pipe.asked .getStatus 0 6 middle = (⟨.error error, wait⟩, after)) :
      Cancelling session before
        [session.orderDeed .abort 0 .empty (.ok count) delay,
          session.statusDeed (.error error) wait]
        (.error (unconfirmedAbort error)) after
  | ignored {before middle after count bytes delay wait}
      (htold : session.pipe.told .abort 0 .empty before = (⟨.ok count, delay⟩, middle))
      (hasked : session.pipe.asked .getStatus 0 6 middle = (⟨.ok bytes, wait⟩, after))
      (hbusy : (session.replyTo bytes).state ≠ .dfuIdle) :
      Cancelling session before
        [session.orderDeed .abort 0 .empty (.ok count) delay, session.statusDeed (.ok bytes) wait]
        (.error (ignoredAbort (session.replyTo bytes).state)) after
  | cancelled {before middle after count bytes delay wait}
      (htold : session.pipe.told .abort 0 .empty before = (⟨.ok count, delay⟩, middle))
      (hasked : session.pipe.asked .getStatus 0 6 middle = (⟨.ok bytes, wait⟩, after))
      (hidle : (session.replyTo bytes).state = .dfuIdle) :
      Cancelling session before
        (session.orderDeed .abort 0 .empty (.ok count) delay ::
          session.statusDeed (.ok bytes) wait :: (session.replyTo bytes).sleeps)
        (.ok (session.replyTo bytes)) (after.waited (session.replyTo bytes))

/-- The blocks of an upload from a position on, after some bytes have been received. -/
inductive Reading (session : Session ω) (chunk : Nat) (limit : Option Nat) (bound : Nat) :
    Nat → ByteArray → Moment ω → List Event → Except Fault ByteArray → Moment ω → Prop
  | failed {position received before after error delay}
      (hmore : received.size < reach limit bound)
      (hasked : session.pipe.asked .upload (UInt16.ofNat position)
        (UInt16.ofNat (nextLength chunk limit received.size)) before =
          (⟨.error error, delay⟩, after)) :
      Reading session chunk limit bound position received before
        [session.blockDeed (UInt16.ofNat position)
          (UInt16.ofNat (nextLength chunk limit received.size)) (.error error) delay]
        (.error (.transfer error)) after
  | short {position received before after data delay}
      (hmore : received.size < reach limit bound)
      (hasked : session.pipe.asked .upload (UInt16.ofNat position)
        (UInt16.ofNat (nextLength chunk limit received.size)) before = (⟨.ok data, delay⟩, after))
      (hshort : data.size < nextLength chunk limit received.size) :
      Reading session chunk limit bound position received before
        [session.blockDeed (UInt16.ofNat position)
          (UInt16.ofNat (nextLength chunk limit received.size)) (.ok data) delay,
          .uploaded (received.size + data.size) (limit.getD 0)]
        (.ok (received ++ data)) after
  | full {position received before middle after data delay deeds result}
      (hmore : received.size < reach limit bound)
      (hasked : session.pipe.asked .upload (UInt16.ofNat position)
        (UInt16.ofNat (nextLength chunk limit received.size)) before = (⟨.ok data, delay⟩, middle))
      (hfull : ¬ data.size < nextLength chunk limit received.size)
      (hrest : Reading session chunk limit bound (position + 1) (received ++ data) middle deeds
        result after) :
      Reading session chunk limit bound position received before
        (session.blockDeed (UInt16.ofNat position)
          (UInt16.ofNat (nextLength chunk limit received.size)) (.ok data) delay ::
          .uploaded (received.size + data.size) (limit.getD 0) :: deeds)
        result after
  | stuck {position received before after deeds fault}
      (hdone : ¬ received.size < reach limit bound)
      (hcancelling : session.Cancelling before deeds (.error fault) after) :
      Reading session chunk limit bound position received before deeds (.error fault) after
  | complete {position received before after deeds reply} (hlimit : limit.isSome)
      (hdone : ¬ received.size < reach limit bound)
      (hcancelling : session.Cancelling before deeds (.ok reply) after) :
      Reading session chunk limit bound position received before deeds (.ok received) after
  | tooLarge {position received before after deeds reply} (hlimit : limit = none)
      (hdone : ¬ received.size < reach limit bound)
      (hcancelling : session.Cancelling before deeds (.ok reply) after) :
      Reading session chunk limit bound position received before deeds
        (.error (.uploadTooLarge bound)) after

inductive Fetching (session : Session ω) (chunk : Nat) (limit : Option Nat) (bound : Nat) :
    Moment ω → List Event → Except Fault ByteArray → Moment ω → Prop
  | unready {before after deeds fault}
      (hcancelling : session.Cancelling before deeds (.error fault) after) :
      Fetching session chunk limit bound before deeds (.error fault) after
  | ready {before middle after deeds more reply result}
      (hcancelling : session.Cancelling before deeds (.ok reply) middle)
      (hreading : session.Reading chunk limit bound 0 .empty middle more result after) :
      Fetching session chunk limit bound before (deeds ++ more) result after

section Requests

variable {session : Session ω} {before after : Moment ω} {deeds : List Event}

theorem Cancelling.first_request {result : Except Fault StatusReply}
    (hcancelling : session.Cancelling before deeds result after) :
    (exchanges deeds).head?.map Exchange.request = some .abort := by
  cases hcancelling <;> rfl

theorem Fetching.first_request {chunk bound : Nat} {limit : Option Nat}
    {result : Except Fault ByteArray}
    (hfetching : session.Fetching chunk limit bound before deeds result after) :
    (exchanges deeds).head?.map Exchange.request = some .abort := by
  cases hfetching with
  | unready hcancelling => exact hcancelling.first_request
  | ready hcancelling hreading =>
      obtain ⟨next, hnext, hrequest⟩ := Option.map_eq_some_iff.mp hcancelling.first_request
      rw [exchanges_append, List.head?_append, hnext]
      exact congrArg some hrequest

end Requests

/-! ## An upload takes these courses -/

theorem upload_performs {session : Session ω} {block length : UInt16} {before after : Moment ω}
    {answer : Except TransferError ByteArray} {delay : Nat}
    (hasked : session.pipe.asked .upload block length before = (⟨answer, delay⟩, after)) :
    (session.upload block length).Performs before [session.blockDeed block length answer delay]
      (answer.mapError .transfer) after := by
  have hreceive := ControlPipe.receive_performs hasked
  cases answer with
  | error error => exact hreceive.bind_error
  | ok data =>
      exact hreceive.bind_silent (.after_note (Action.performs_pure data after))

variable (session : Session ω)

theorem cancelTransfer_performs (before : Moment ω) :
    ∃ deeds result after, session.Cancelling before deeds result after ∧
      session.cancelTransfer.Performs before deeds result after := by
  unfold cancelTransfer
  rcases htold : session.pipe.told .abort 0 .empty before with ⟨⟨taken, delay⟩, middle⟩
  have habort := (abort_performs htold).attempt
  cases taken with
  | error error =>
      refine ⟨_, _, _, .unsent htold, habort.bind_silent (.after_note ?_)⟩
      exact Action.performs_fail _ middle
  | ok count =>
      rcases hasked : session.pipe.asked .getStatus 0 6 middle with ⟨⟨answer, wait⟩, after⟩
      have hstatus := (getStatus_performs hasked).attempt
      cases answer with
      | error error =>
          refine ⟨_, _, _, .unconfirmed htold hasked,
            habort.bind_single (hstatus.bind_silent (.after_note ?_))⟩
          exact Action.performs_fail _ after
      | ok bytes =>
          by_cases hidle : (session.replyTo bytes).state = .dfuIdle
          · have hwait := wait_performs (session.replyTo bytes) after
            refine ⟨_, _, _, .cancelled htold hasked hidle,
              habort.bind_single (hstatus.bind_single ?_)⟩
            simp only [statusOf_ok]
            rw [if_neg (not_not_intro hidle)]
            exact hwait.bind_silent (Action.performs_pure _ _)
          · refine ⟨_, _, _, .ignored htold hasked hidle,
              habort.bind_single (hstatus.bind_silent ?_)⟩
            simp only [statusOf_ok]
            rw [if_pos hidle]
            exact .after_note (Action.performs_fail _ after)

theorem endUpload_performs {chunk position bound : Nat} {limit : Option Nat} {received : ByteArray}
    (hdone : ¬ received.size < reach limit bound) (before : Moment ω) :
    ∃ deeds result after,
      session.Reading chunk limit bound position received before deeds result after ∧
      (do
        session.endUpload limit bound
        return received : Action ω ByteArray).Performs before deeds result after := by
  unfold endUpload
  obtain ⟨deeds, result, after, hcancelling, hrun⟩ := session.cancelTransfer_performs before
  cases result with
  | error fault => exact ⟨_, _, _, .stuck hdone hcancelling, hrun.bind_error.bind_error⟩
  | ok reply =>
      cases limit with
      | some limit =>
          refine ⟨_, _, _, .complete rfl hdone hcancelling, ?_⟩
          exact (hrun.bind_silent (Action.performs_pure () after)).bind_silent
            (Action.performs_pure received after)
      | none =>
          refine ⟨_, _, _, .tooLarge rfl hdone hcancelling, ?_⟩
          exact (hrun.bind_silent (Action.performs_fail _ after)).bind_error

theorem readBlocks_performs (chunk : Nat) (positive : 0 < chunk) (limit : Option Nat)
    (bound position : Nat) (received : ByteArray) (before : Moment ω) :
    ∃ deeds result after,
      session.Reading chunk limit bound position received before deeds result after ∧
      (⟨session.readBlocks chunk positive limit bound (UInt16.ofNat position) received⟩ :
        Action ω ByteArray).Performs before deeds result after := by
  rw [readBlocks_eq]
  by_cases hmore : received.size < reach limit bound
  · rw [if_pos hmore]
    rcases hasked : session.pipe.asked .upload (UInt16.ofNat position)
      (UInt16.ofNat (nextLength chunk limit received.size)) before with ⟨⟨answer, delay⟩, middle⟩
    have hupload := upload_performs hasked
    cases answer with
    | error error => exact ⟨_, _, _, .failed hmore hasked, hupload.bind_error⟩
    | ok data =>
        have hprogress := Action.performs_record
          (.uploaded (received.size + data.size) (limit.getD 0)) rfl middle
        by_cases hshort : data.size < nextLength chunk limit received.size
        · refine ⟨_, _, _, .short hmore hasked hshort,
            hupload.bind_single (hprogress.bind_silent ?_)⟩
          rw [if_pos hshort]
          exact Action.performs_pure _ _
        · obtain ⟨deeds, result, after, hreading, hrun⟩ :=
            readBlocks_performs chunk positive limit bound (position + 1) (received ++ data) middle
          refine ⟨_, _, _, .full hmore hasked hshort hreading,
            hupload.bind_single (hprogress.bind_single ?_)⟩
          have hnumber : UInt16.ofNat position + 1 = UInt16.ofNat (position + 1) := by
            simp
          rw [if_neg hshort, hnumber]
          exact hrun
  · rw [if_neg hmore]
    exact session.endUpload_performs hmore before
termination_by reach limit bound - received.size
decreasing_by
  have hlength := nextLength_pos positive hmore
  rw [ByteArray.size_append]
  omega

theorem uploadWithin_performs (bound : Nat) {chunk : UInt16} (positive : 0 < chunk.toNat)
    (limit : Option Nat) (before : Moment ω) :
    ∃ deeds result after, session.Fetching chunk.toNat limit bound before deeds result after ∧
      (session.uploadWithin bound chunk limit).Performs before deeds result after := by
  unfold uploadWithin
  rw [dif_pos positive]
  obtain ⟨deeds, result, middle, hcancelling, hcancel⟩ := session.cancelTransfer_performs before
  cases result with
  | error fault => exact ⟨_, _, _, .unready hcancelling, hcancel.bind_error⟩
  | ok reply =>
      obtain ⟨more, result, after, hreading, hrun⟩ :=
        session.readBlocks_performs chunk.toNat positive limit bound 0 .empty middle
      refine ⟨_, _, _, .ready hcancelling hreading, hcancel.bind ?_⟩
      cases result with
      | error fault => exact hrun.bind_error
      | ok data => exact hrun.bind_silent (.after_note (Action.performs_pure data after))

theorem uploadWithin_refused (bound : Nat) {chunk : UInt16} (hzero : ¬ 0 < chunk.toNat)
    (limit : Option Nat) (before : Moment ω) :
    (session.uploadWithin bound chunk limit).Performs before [] (.error .transferSizeUnknown)
      before := by
  unfold uploadWithin
  rw [dif_neg hzero]
  exact Action.performs_fail _ before

end Session

end FirmwareUpgrade
