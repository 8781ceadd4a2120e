import FirmwareUpgrade.Proofs.ByteOrder
import FirmwareUpgrade.Proofs.SessionRequests

/-!
# The bytes of a status

Six bytes and the reply that they make determine each other, because bytes that the standard does
not define are kept as they are.  Only what a device with a meaningless poll time says about it is
replaced.  Any other number of bytes makes no reply, and a device that answers so counts as one with
an error that it does not explain.
-/

namespace FirmwareUpgrade

open LittleEndian

variable {ω : Type}

/-! ## Codes -/

namespace State

/-- Only a byte that the standard does not define is kept as an unknown state. -/
def IsProper (state : State) : Prop :=
  ∀ byte, state = .unknown byte → 11 ≤ byte

theorem isProper_ofCode (byte : UInt8) : (ofCode byte).IsProper := by
  intro kept hunknown
  unfold ofCode at hunknown
  split at hunknown
  -- the last case has what none of the defined codes is
  case h_12 =>
    cases hunknown
    grind
  all_goals contradiction

theorem ofCode_code {state : State} (hproper : state.IsProper) : ofCode state.code = state := by
  cases state with
  | unknown byte =>
      have hbyte := hproper byte rfl
      change ofCode byte = .unknown byte
      unfold ofCode
      split
      case h_12 => rfl
      all_goals contradiction
  | _ => rfl

end State

namespace StatusCode

/-- Only a byte that the standard does not define is kept as an invalid status. -/
def IsProper (status : StatusCode) : Prop :=
  ∀ byte, status = .invalid byte → 16 ≤ byte

theorem isProper_ofCode (byte : UInt8) : (ofCode byte).IsProper := by
  intro kept hinvalid
  unfold ofCode at hinvalid
  split at hinvalid
  case h_17 =>
    cases hinvalid
    grind
  all_goals contradiction

theorem ofCode_code {status : StatusCode} (hproper : status.IsProper) :
    ofCode status.code = status := by
  cases status with
  | invalid byte =>
      have hbyte := hproper byte rfl
      change ofCode byte = .invalid byte
      unfold ofCode
      split
      case h_17 => rfl
      all_goals contradiction
  | _ => rfl

end StatusCode

/-! ## Replies -/

namespace StatusReply

variable {bytes : List UInt8} {reply : StatusReply}

/-- A reply as six bytes can say it. -/
structure IsProper (reply : StatusReply) : Prop where
  status : reply.status.IsProper
  pollTime : reply.pollTime.toNat < 2 ^ 24
  state : reply.state.IsProper

/-- The bytes say what the reply tells about itself. -/
structure Tells (reply : StatusReply) (bytes : List UInt8) : Prop where
  size : bytes.length = 6
  status : bytes[0]? = some reply.status.code
  pollTime : value (bytes.extract 1 4) = reply.pollTime.toNat
  state : bytes[4]? = some reply.state.code
  stringIndex : bytes[5]? = some (reply.stringIndex?.getD 0)

theorem getD_stringIndex? (reply : StatusReply) :
    reply.stringIndex?.getD 0 = reply.stringIndex := by
  unfold stringIndex?
  split
  · next hzero => rw [hzero, Option.getD_none]
  · rfl

theorem length_encode (reply : StatusReply) : reply.encode.length = 6 := rfl

theorem decode_encode (hproper : reply.IsProper) : decode .none reply.encode = .ok reply := by
  change Except.ok (⟨.ofCode _, join24 _ _ _, .ofCode _, _⟩ : StatusReply) = .ok reply
  rw [StatusCode.ofCode_code hproper.status, join24_split24 hproper.pollTime,
    State.ofCode_code hproper.state]

theorem decode_of_length_ne (deviations : Deviations) (hlength : bytes.length ≠ 6) :
    decode deviations bytes = .error (.shortReply 6 bytes.length) := by
  unfold decode
  split
  · contradiction
  · rfl

/-- Any six bytes are read, and nothing of them is lost. -/
theorem exists_proper_reply (hlength : bytes.length = 6) :
    ∃ reply, decode .none bytes = .ok reply ∧ reply.IsProper ∧ reply.encode = bytes := by
  match bytes, hlength with
  | [status, poll0, poll1, poll2, state, index], _ =>
      refine ⟨_, rfl, ⟨StatusCode.isProper_ofCode status, ?_, State.isProper_ofCode state⟩, ?_⟩
      · have h0 := poll0.toNat_lt
        have h1 := poll1.toNat_lt
        have h2 := poll2.toNat_lt
        change (join24 poll0 poll1 poll2).toNat < 2 ^ 24
        rw [toNat_join24]
        omega
      · change [(StatusCode.ofCode status).code] ++ split24 (join24 poll0 poll1 poll2) ++
          [(State.ofCode state).code, index] = _
        rw [StatusCode.code_ofCode, State.code_ofCode, split24_join24]
        rfl

theorem decode_eq_ok_iff :
    decode .none bytes = .ok reply ↔ reply.IsProper ∧ reply.encode = bytes := by
  constructor
  · intro hdecode
    by_cases hlength : bytes.length = 6
    · rcases exists_proper_reply hlength with ⟨proper, hread, hproper, hencode⟩
      rw [hdecode] at hread
      cases hread
      exact ⟨hproper, hencode⟩
    · rw [decode_of_length_ne .none hlength] at hdecode
      contradiction
  · rintro ⟨hproper, rfl⟩
    exact decode_encode hproper

theorem tells_encode (hproper : reply.IsProper) : reply.Tells reply.encode where
  size := reply.length_encode
  status := rfl
  pollTime :=
    calc
      value (reply.encode.extract 1 4) = value (split24 reply.pollTime) := rfl
      _ = (join24 _ _ _).toNat := (toNat_join24_eq_value ..).symm
      _ = reply.pollTime.toNat := by rw [join24_split24 hproper.pollTime]
  state := rfl
  stringIndex := by
    rw [getD_stringIndex?]
    rfl

theorem encode_of_tells (htells : reply.Tells bytes) : reply.encode = bytes := by
  obtain ⟨hsize, hstatus, hpoll, hstate, hindex⟩ := htells
  match bytes, hsize with
  | [status, poll0, poll1, poll2, state, index], _ =>
      have hword : join24 poll0 poll1 poll2 = reply.pollTime := by
        apply UInt32.toNat_inj.mp
        rw [toNat_join24_eq_value]
        exact hpoll
      rw [getD_stringIndex?] at hindex
      cases hstatus
      cases hstate
      cases hindex
      rw [encode, ← hword, split24_join24]
      rfl

theorem decode_eq_ok_iff_tells :
    decode .none bytes = .ok reply ↔ reply.IsProper ∧ reply.Tells bytes := by
  rw [decode_eq_ok_iff]
  constructor
  · rintro ⟨hproper, rfl⟩
    exact ⟨hproper, tells_encode hproper⟩
  · rintro ⟨hproper, htells⟩
    exact ⟨hproper, encode_of_tells htells⟩

theorem decode_with_deviations (deviations : Deviations) (bytes : List UInt8) :
    decode deviations bytes = (decode .none bytes).map fun reply =>
      if deviations.fixedPollTime then { reply with pollTime := 5 } else reply := by
  by_cases hlength : bytes.length = 6
  · match bytes, hlength with
    | [status, poll0, poll1, poll2, state, index], _ =>
        cases hfixed : deviations.fixedPollTime with
        | true | false => simp [decode, hfixed, Deviations.none, fixedPollTime, Except.map]
  · rw [decode_of_length_ne deviations hlength, decode_of_length_ne .none hlength]
    rfl

theorem exists_decode_iff :
    (∃ reply, decode .none bytes = .ok reply) ↔ bytes.length = 6 := by
  constructor
  · rintro ⟨reply, hdecode⟩
    rw [← (decode_eq_ok_iff.mp hdecode).2, length_encode]
  · intro hlength
    rcases exists_proper_reply hlength with ⟨reply, hread, -⟩
    exact ⟨reply, hread⟩

theorem decode_ne_error (deviations : Deviations) (hlength : bytes.length = 6) (fault : Fault) :
    decode deviations bytes ≠ .error fault := by
  rcases exists_proper_reply hlength with ⟨reply, hread, -⟩
  rw [decode_with_deviations, hread]
  nofun

theorem decode_eq_error_iff (deviations : Deviations) :
    decode deviations bytes = .error (.shortReply 6 bytes.length) ↔ bytes.length ≠ 6 := by
  constructor
  · intro hdecode hlength
    exact decode_ne_error deviations hlength _ hdecode
  · exact decode_of_length_ne deviations

end StatusReply

/-! ## Answers of a device -/

namespace Session

/-- What is known of the status after an answer. -/
inductive Reports (session : Session ω) :
    Except TransferError ByteArray → Except Fault StatusReply → Prop
  | lost (error : TransferError) : session.Reports (.error error) (.error (.transfer error))
  | decoded {bytes : ByteArray} {reply : StatusReply}
      (hdecode : StatusReply.decode session.deviations bytes.data.toList = .ok reply) :
      session.Reports (.ok bytes) (.ok reply)
  | undecoded {bytes : ByteArray} (hsize : bytes.size ≠ 6) :
      session.Reports (.ok bytes) (.ok ⟨.errUnknown, 0, .dfuError, 0⟩)

theorem reports_statusOf (session : Session ω) (answer : Except TransferError ByteArray) :
    session.Reports answer (session.statusOf answer) := by
  cases answer with
  | error error => exact .lost error
  | ok bytes =>
      rw [statusOf_ok, replyTo, StatusReply.ofAnswer]
      cases hdecode : StatusReply.decode session.deviations bytes.data.toList with
      | ok reply => exact .decoded hdecode
      | error fault =>
          exact .undecoded fun hsize =>
            StatusReply.decode_ne_error session.deviations hsize fault hdecode

theorem getStatus_reports (session : Session ω) (before : Moment ω) :
    ∃ answer delay result after,
      session.pipe.asked .getStatus 0 6 before = (⟨answer, delay⟩, after) ∧
      session.getStatus.Performs before [session.statusDeed answer delay] result after ∧
      session.Reports answer result := by
  rcases hasked : session.pipe.asked .getStatus 0 6 before with ⟨⟨answer, delay⟩, after⟩
  exact ⟨answer, delay, _, after, rfl, getStatus_performs hasked, session.reports_statusOf answer⟩

end Session

/-- Any six bytes make one reply, from which they can be told again, and nothing else makes one.  An
answer of a device that makes none is never passed on in part. -/
theorem status_decoding_is_lossless :
    (∀ bytes, (∃ reply, StatusReply.decode .none bytes = .ok reply) ↔ bytes.length = 6) ∧
    (∀ bytes reply, StatusReply.decode .none bytes = .ok reply ↔
      reply.IsProper ∧ reply.encode = bytes) ∧
    (∀ bytes reply, StatusReply.decode .none bytes = .ok reply ↔
      reply.IsProper ∧ reply.Tells bytes) ∧
    (∀ deviations bytes, StatusReply.decode deviations bytes =
      (StatusReply.decode .none bytes).map fun reply =>
        if deviations.fixedPollTime then { reply with pollTime := 5 } else reply) ∧
    (∀ deviations bytes, StatusReply.decode deviations bytes =
      .error (.shortReply 6 bytes.length) ↔ bytes.length ≠ 6) ∧
    ∀ (session : Session ω) (before : Moment ω), ∃ answer delay result after,
      session.pipe.asked .getStatus 0 6 before = (⟨answer, delay⟩, after) ∧
      session.getStatus.Performs before [session.statusDeed answer delay] result after ∧
      session.Reports answer result := by
  refine ⟨?_, ?_, ?_, StatusReply.decode_with_deviations, ?_, Session.getStatus_reports⟩
  · intro bytes
    exact StatusReply.exists_decode_iff
  · intro bytes reply
    exact StatusReply.decode_eq_ok_iff
  · intro bytes reply
    exact StatusReply.decode_eq_ok_iff_tells
  · intro deviations bytes
    exact StatusReply.decode_eq_error_iff deviations

end FirmwareUpgrade
