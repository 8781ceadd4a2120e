import FirmwareUpgrade.Proofs.BoundedPolling
import FirmwareUpgrade.Proofs.ConfirmedBlocks

/-!
# What decides a download in the end

Once its empty block is accepted, the result of a download is decided by the answers to the polls
alone.  The first answer that does not show the device at work on its firmware is the last one asked
for, and its meaning is the result; if none comes within two minutes, the download times out.  A
device that does not answer has left the bus, which only one that tolerates the manifestation must
not do.  The answers are read off the events of the run, so that nothing is assumed of the device.
-/

namespace FirmwareUpgrade

open Download

variable {ω : Type}

/-! ## Answers and their meaning -/

def Exchange.statusAnswer? : Exchange → Option (Except TransferError ByteArray)
  | .receive .getStatus _ _ answer => some answer
  | _ => none

def statusAnswers (events : List Event) : List (Except TransferError ByteArray) :=
  (exchanges events).filterMap Exchange.statusAnswer?

def showsWork : Except TransferError ByteArray → Bool
  | .error _ => false
  | .ok bytes => (reportOf bytes).2 == .dfuManifestSync || (reportOf bytes).2 == .dfuManifest

/-- What an answer of a device that is not at work means for the download. -/
def verdict (tolerant : Bool) : Except TransferError ByteArray → Except Fault Unit
  | .error error => if tolerant then .error (.transfer error) else .ok ()
  | .ok bytes =>
    let report := reportOf bytes
    if report.1 = .ok ∧ report.2 ≠ .dfuError then .ok () else .error (.status report.1 report.2)

/-- The first answer that does not show the device at work is the last one, and its meaning is the
result; without such an answer the polls time out. -/
structure Judged (tolerant : Bool) (answers : List (Except TransferError ByteArray))
    (result : Except Fault Unit) : Prop where
  decided : ∀ earlier answer rest, answers = earlier ++ answer :: rest →
    showsWork answer = false → rest = [] ∧ result = verdict tolerant answer
  late : (∀ answer ∈ answers, showsWork answer) → result = .error .timeout

/-- The last transfer is no answer without error in one of the states that end the polls after a
block. -/
def EndsUnconfirmed (transfers : List Exchange) : Prop :=
  ∃ earlier last, transfers = earlier ++ [last] ∧
    ∀ state, last.report? = some (.ok, state) → state ≠ .dfuDownloadIdle ∧ state ≠ .dfuError

theorem EndsUnconfirmed.append {transfers : List Exchange} (hends : EndsUnconfirmed transfers)
    (first : List Exchange) : EndsUnconfirmed (first ++ transfers) := by
  rcases hends with ⟨earlier, last, hlast, hreport⟩
  exact ⟨first ++ earlier, last, by rw [hlast, List.append_assoc], hreport⟩

@[simp]
theorem statusAnswers_cons_statusDeed (session : Session ω)
    (answer : Except TransferError ByteArray) (delay : Nat) (events : List Event) :
    statusAnswers (session.statusDeed answer delay :: events) =
      answer :: statusAnswers events := by
  simp [statusAnswers, Exchange.statusAnswer?]

@[simp]
theorem statusAnswers_cons_sleep (milliseconds : Nat) (events : List Event) :
    statusAnswers (.sleep milliseconds :: events) = statusAnswers events := by
  simp [statusAnswers]

theorem statusAnswers_of_silent {events : List Event} (hsilent : exchanges events = []) :
    statusAnswers events = [] := by
  rw [statusAnswers, hsilent]
  rfl

theorem statusAnswers_append_of_silent {first : List Event} (hsilent : exchanges first = [])
    (second : List Event) : statusAnswers (first ++ second) = statusAnswers second := by
  rw [statusAnswers, exchanges_append, hsilent]
  rfl

/-! ## Judgements -/

namespace Judged

variable {tolerant : Bool} {answer : Except TransferError ByteArray}
  {answers : List (Except TransferError ByteArray)} {result : Except Fault Unit}

theorem last (hdone : showsWork answer = false) :
    Judged tolerant [answer] (verdict tolerant answer) where
  decided := by
    intro earlier other rest hsplit _
    cases earlier with
    | nil =>
        rcases List.cons.inj hsplit with ⟨rfl, hrest⟩
        exact ⟨hrest.symm, rfl⟩
    | cons first earlier => simp at hsplit
  late := by
    intro hwork
    rw [hwork answer List.mem_cons_self] at hdone
    contradiction

theorem timeout (hwork : showsWork answer) : Judged tolerant [answer] (.error .timeout) where
  decided := by
    intro earlier other rest hsplit hdone
    have hmem : other ∈ [answer] := hsplit ▸ List.mem_append_right _ List.mem_cons_self
    rw [List.mem_singleton.mp hmem, hwork] at hdone
    contradiction
  late := fun _ => rfl

theorem again (hwork : showsWork answer) (hrest : Judged tolerant answers result) :
    Judged tolerant (answer :: answers) result where
  decided := by
    intro earlier other rest hsplit hdone
    cases earlier with
    | nil =>
        rcases List.cons.inj hsplit with ⟨rfl, -⟩
        rw [hwork] at hdone
        contradiction
    | cons first earlier =>
        exact hrest.decided earlier other rest (List.cons.inj hsplit).2 hdone
  late := fun hall => hrest.late fun other hmem => hall other (List.mem_cons_of_mem answer hmem)

end Judged

namespace Session

variable {session : Session ω} {start : Nat} {before after : Moment ω} {deeds : List Event}
  {result : Except Fault Unit}

theorem showsWork_ok (session : Session ω) (bytes : ByteArray) :
    showsWork (.ok bytes) = isManifesting (session.replyTo bytes).state := by
  rw [session.replyTo_state]
  rfl

theorem verdict_ok (session : Session ω) (tolerant : Bool) (bytes : ByteArray) :
    verdict tolerant (.ok bytes) = conclusion (session.replyTo bytes) := by
  have hstatus := StatusCode.isOk_iff (session.replyTo bytes).status
  simp only [verdict, session.replyTo_report, conclusion, StatusReply.require, StatusReply.fault]
  by_cases herror : (session.replyTo bytes).state = .dfuError
  · simp [herror]
  · simp [herror, hstatus]

/-! ## The polls -/

theorem Manifesting.judged
    (hmanifesting : session.Manifesting start before deeds result after) :
    Judged session.descriptor.manifestationTolerant (statusAnswers deeds) result := by
  induction hmanifesting with
  | @left _ _ error _ hasked hleaves =>
      have hverdict : verdict session.descriptor.manifestationTolerant (.error error) = .ok () := by
        simp [verdict, hleaves]
      rw [statusAnswers_cons_statusDeed, ← hverdict]
      exact .last rfl
  | @lost _ _ error _ hasked hstays =>
      have hverdict : verdict session.descriptor.manifestationTolerant (.error error) =
          .error (.transfer error) := by
        simp [verdict, hstays]
      rw [statusAnswers_cons_statusDeed, ← hverdict]
      exact .last rfl
  | @concluded _ _ bytes _ hasked hdone =>
      rw [statusAnswers_cons_statusDeed, statusAnswers_of_silent (exchanges_sleeps _),
        ← session.verdict_ok session.descriptor.manifestationTolerant]
      rw [← session.showsWork_ok] at hdone
      exact .last hdone
  | @late _ _ _ bytes _ hasked hwork =>
      rw [List.cons_append, statusAnswers_cons_statusDeed, statusAnswers_of_silent (by simp)]
      rw [← session.showsWork_ok] at hwork
      exact .timeout hwork
  | @again _ _ _ _ bytes _ _ _ hasked hwork hnext hinTime hrest ih =>
      rw [List.cons_append, statusAnswers_cons_statusDeed,
        statusAnswers_append_of_silent (exchanges_sleeps _), statusAnswers_cons_sleep]
      rw [← session.showsWork_ok] at hwork
      exact ih.again hwork

end Session

end FirmwareUpgrade
