import FirmwareUpgrade.Proofs.BlockPlan
import FirmwareUpgrade.Proofs.CompletedDownload
import Mathlib.Algebra.GroupWithZero.Nat

/-!
# Downloads to a slow device

A device may take its time for each block and for its manifestation, as long as it says so and stays
below the limit.  It is described by the answers it gives to the polls after each block, without any
reference to the host.  The host never gives such a device up: it asks for these answers and no
more, and the time that passes is that of the transfers and of the waits the device asked for.
-/

namespace FirmwareUpgrade

variable {ω : Type}

/-! ## What the device does -/

/-- An answer to a poll, and the milliseconds it takes. -/
structure Answer where
  bytes : ByteArray
  delay : Nat

/-- What a device does about a block: it accepts the block, answers some polls while it is at work
on it, and gives one more answer in the end. -/
structure Round where
  count : Nat
  delay : Nat
  work : List Answer
  last : Answer

namespace ControlPipe

/-- Asked for the status as often as there are answers, the device gives these answers. -/
inductive Answers (pipe : ControlPipe ω) : ω → List Answer → ω → Prop
  | done {world} : Answers pipe world [] world
  | next {before middle after answer answers}
      (hanswer : pipe.onIn .getStatus 0 6 before = (⟨.ok answer.bytes, answer.delay⟩, middle))
      (hrest : Answers pipe middle answers after) : Answers pipe before (answer :: answers) after

/-- Sent some blocks and polled after each, the device goes through the rounds. -/
inductive Serves (pipe : ControlPipe ω) :
    List (UInt16 × ByteArray) → ω → List Round → ω → Prop
  | done {world} : Serves pipe [] world [] world
  | next {before middle next after block blocks round rounds}
      (htaken : pipe.onOut .download block.1 block.2 before =
        (⟨.ok round.count, round.delay⟩, middle))
      (hanswers : pipe.Answers middle (round.work ++ [round.last]) next)
      (hrest : Serves pipe blocks next rounds after) :
      Serves pipe (block :: blocks) before (round :: rounds) after

end ControlPipe

section Times

variable (deviations : Deviations)

/-- The time of an answer and of the wait it asks for. -/
def Answer.time (answer : Answer) : Nat :=
  answer.delay + (StatusReply.ofAnswer deviations answer.bytes).pollTime.toNat

/-- The time until the host has waited for all the answers, each with a pause after it. -/
def workTime (pause : Nat) (work : List Answer) : Nat :=
  (work.map fun answer => answer.time deviations + pause).sum

@[simp]
theorem workTime_cons (pause : Nat) (answer : Answer) (work : List Answer) :
    workTime deviations pause (answer :: work) =
      answer.time deviations + pause + workTime deviations pause work := by
  simp [workTime]

end Times

open Download

namespace Round

variable (deviations : Deviations)

/-- The device stores the block in time. -/
structure Stores (round : Round) : Prop where
  works : ∀ answer ∈ round.work, (reportOf answer.bytes).2 ≠ .dfuDownloadIdle ∧
    (reportOf answer.bytes).2 ≠ .dfuError
  inTime : workTime deviations 0 round.work < busyLimit
  ends : reportOf round.last.bytes = (.ok, .dfuDownloadIdle)

/-- The device puts the firmware into effect in time. -/
structure Manifests (round : Round) : Prop where
  works : ∀ answer ∈ round.work, (reportOf answer.bytes).2 = .dfuManifestSync ∨
    (reportOf answer.bytes).2 = .dfuManifest
  inTime : workTime deviations settleTime round.work < busyLimit
  ends : ∃ state, state.ShowsCompletion ∧ reportOf round.last.bytes = (.ok, state)

/-- The last answer is not waited for. -/
def storeTime (round : Round) : Nat :=
  round.delay + workTime deviations 0 round.work + round.last.delay

def manifestTime (round : Round) : Nat :=
  round.delay + workTime deviations settleTime round.work + round.last.time deviations

end Round

def polls (answers : List Answer) : List Exchange :=
  answers.map fun answer => .receive .getStatus 0 6 (.ok answer.bytes)

/-- The transfers of a block and of the round after it. -/
def Round.transfers (block : UInt16 × ByteArray) (round : Round) : List Exchange :=
  .out .download block.1 block.2 (.ok round.count) :: polls (round.work ++ [round.last])

/-! ## What the host does -/

namespace Session

variable {session : Session ω} {before after : Moment ω} {world : ω} {deeds : List Event}
  {start : Nat} {work : List Answer} {last : Answer}

/-- A poll meets the first of the answers, which is the last one if no work is left. -/
theorem asked_next {middle : Moment ω} {result : Except TransferError ByteArray} {delay : Nat}
    (hanswers : session.pipe.Answers before.world (work ++ [last]) world)
    (hasked : session.pipe.asked .getStatus 0 6 before = (⟨result, delay⟩, middle)) :
    (work = [] ∧ result = .ok last.bytes ∧ middle = ⟨world, before.clock + last.delay⟩) ∨
      ∃ answer rest, work = answer :: rest ∧ result = .ok answer.bytes ∧
        middle.clock = before.clock + answer.delay ∧
        session.pipe.Answers middle.world (rest ++ [last]) world := by
  cases work with
  | nil =>
      rcases hanswers with _ | ⟨hanswer, ⟨⟩⟩
      rw [ControlPipe.asked_eq hanswer] at hasked
      cases hasked
      exact .inl ⟨rfl, rfl, rfl⟩
  | cons answer rest =>
      rcases hanswers with _ | ⟨hanswer, hrest⟩
      rw [ControlPipe.asked_eq hanswer] at hasked
      cases hasked
      exact .inr ⟨answer, rest, rfl, rfl, rfl, hrest⟩

theorem waited_clock_eq (session : Session ω) {answer : Answer} {middle : Moment ω}
    (hclock : middle.clock = before.clock + answer.delay) :
    (middle.waited (session.replyTo answer.bytes)).clock =
      before.clock + answer.time session.deviations := by
  rw [Moment.waited_clock, hclock, Answer.time, Nat.add_assoc]
  rfl

/-- The polls after a block end with the answer that says that the block is stored. -/
theorem Busy.of_answers {result : Except Fault StatusReply}
    (hbusy : session.Busy start before deeds result after)
    (hanswers : session.pipe.Answers before.world (work ++ [last]) world)
    (hwork : ∀ answer ∈ work, ¬ (session.replyTo answer.bytes).isSettled)
    (hlast : (session.replyTo last.bytes).isSettled)
    (hinTime : before.clock + workTime session.deviations 0 work < start + busyLimit) :
    result = .ok (session.replyTo last.bytes) ∧
      after = ⟨world, before.clock + workTime session.deviations 0 work + last.delay⟩ ∧
      exchanges deeds = polls (work ++ [last]) := by
  induction hbusy generalizing work with
  | lost hasked =>
      rcases asked_next hanswers hasked with ⟨-, hanswer, -⟩ | ⟨_, _, -, hanswer, -⟩
      · contradiction
      · contradiction
  | settled hasked hsettled =>
      rcases asked_next hanswers hasked with ⟨rfl, ⟨⟩, rfl⟩ | ⟨answer, rest, rfl, ⟨⟩, -⟩
      · exact ⟨rfl, rfl, rfl⟩
      · exact absurd hsettled (hwork answer List.mem_cons_self)
  | late hasked hsettled hlate =>
      rcases asked_next hanswers hasked with ⟨-, ⟨⟩, -⟩ | ⟨answer, rest, rfl, ⟨⟩, hclock, -⟩
      · contradiction
      · rw [waited_clock_eq session hclock] at hlate
        rw [workTime_cons] at hinTime
        omega
  | again hasked hsettled hearly hrest ih =>
      rcases asked_next hanswers hasked with ⟨-, ⟨⟩, -⟩ | ⟨answer, rest, rfl, ⟨⟩, hclock, hmore⟩
      · contradiction
      · have hnext := waited_clock_eq session hclock
        rw [workTime_cons, Nat.add_zero, ← Nat.add_assoc, ← hnext] at hinTime
        obtain ⟨hresult, hafter, hpolls⟩ := ih hmore
          (fun other hmem => hwork other (List.mem_cons_of_mem answer hmem)) hinTime
        refine ⟨hresult, ?_, ?_⟩
        · rw [hafter, hnext, workTime_cons, Nat.add_zero, ← Nat.add_assoc]
        · simp [hpolls, polls]

/-- The polls after the empty block end with the answer that says that the firmware is in effect. -/
theorem Manifesting.of_answers {result : Except Fault Unit}
    (hmanifesting : session.Manifesting start before deeds result after)
    (hanswers : session.pipe.Answers before.world (work ++ [last]) world)
    (hwork : ∀ answer ∈ work, isManifesting (session.replyTo answer.bytes).state)
    (hlast : isManifesting (session.replyTo last.bytes).state = false)
    (hinTime : before.clock + workTime session.deviations settleTime work < start + busyLimit) :
    result = conclusion (session.replyTo last.bytes) ∧
      after = ⟨world, before.clock + workTime session.deviations settleTime work +
        last.time session.deviations⟩ ∧
      exchanges deeds = polls (work ++ [last]) := by
  induction hmanifesting generalizing work with
  | left hasked =>
      rcases asked_next hanswers hasked with ⟨-, hanswer, -⟩ | ⟨_, _, -, hanswer, -⟩
      · contradiction
      · contradiction
  | lost hasked =>
      rcases asked_next hanswers hasked with ⟨-, hanswer, -⟩ | ⟨_, _, -, hanswer, -⟩
      · contradiction
      · contradiction
  | concluded hasked hdone =>
      rcases asked_next hanswers hasked with ⟨rfl, ⟨⟩, rfl⟩ | ⟨answer, rest, rfl, ⟨⟩, -⟩
      · refine ⟨rfl, ?_, by simp [polls]⟩
        rw [Moment.waited, Answer.time, ← Nat.add_assoc]
        rfl
      · simp [hwork answer List.mem_cons_self] at hdone
  | late hasked hbusy hafter hlate =>
      rcases asked_next hanswers hasked with ⟨-, ⟨⟩, -⟩ | ⟨answer, rest, rfl, ⟨⟩, hclock, -⟩
      · simp [hlast] at hbusy
      · have hnext := waited_clock_eq session hclock
        rw [hafter, Moment.pass_clock, hnext, Event.duration] at hlate
        rw [workTime_cons] at hinTime
        omega
  | again hasked hbusy hnext hearly hrest ih =>
      rcases asked_next hanswers hasked with ⟨-, ⟨⟩, -⟩ | ⟨answer, rest, rfl, ⟨⟩, hclock, hmore⟩
      · simp [hlast] at hbusy
      · have hpaused := congrArg Moment.clock hnext
        rw [Moment.pass_clock, waited_clock_eq session hclock, Event.duration] at hpaused
        rw [workTime_cons, ← Nat.add_assoc, ← Nat.add_assoc, ← hpaused] at hinTime
        have hworld := congrArg Moment.world hnext
        rw [Moment.pass_world, Moment.waited_world] at hworld
        rw [← hworld] at hmore
        obtain ⟨hresult, hafter, hpolls⟩ := ih hmore
          (fun other hmem => hwork other (List.mem_cons_of_mem answer hmem)) hinTime
        refine ⟨hresult, ?_, ?_⟩
        · rw [hafter, hpaused, workTime_cons, ← Nat.add_assoc, ← Nat.add_assoc]
        · simp [hpolls, polls]

theorem told_taken {block : UInt16} {data : ByteArray} {round : Round} {middle : ω}
    {taken : Except TransferError Nat} {delay : Nat} {next : Moment ω}
    (htaken : session.pipe.onOut .download block data before.world =
      (⟨.ok round.count, round.delay⟩, middle))
    (htold : session.pipe.told .download block data before = (⟨taken, delay⟩, next)) :
    taken = .ok round.count ∧ next = ⟨middle, before.clock + round.delay⟩ := by
  rw [ControlPipe.told_eq htaken] at htold
  cases htold
  exact ⟨rfl, rfl⟩

theorem Busy.of_round {round : Round} {result : Except Fault StatusReply}
    (hbusy : session.Busy before.clock before deeds result after)
    (hanswers : session.pipe.Answers before.world (round.work ++ [round.last]) world)
    (hstores : round.Stores session.deviations) :
    result = .ok (session.replyTo round.last.bytes) ∧
      after = ⟨world, before.clock + workTime session.deviations 0 round.work + round.last.delay⟩ ∧
      exchanges deeds = polls (round.work ++ [round.last]) := by
  have hwork : ∀ answer ∈ round.work, ¬ (session.replyTo answer.bytes).isSettled := by
    intro answer hmem
    rw [StatusReply.isSettled, replyTo_state, not_or]
    exact hstores.works answer hmem
  have hlast : (session.replyTo round.last.bytes).isSettled := by
    rw [StatusReply.isSettled, replyTo_state, hstores.ends]
    exact .inl rfl
  exact hbusy.of_answers hanswers hwork hlast (Nat.add_lt_add_left hstores.inTime _)

theorem Storing.of_round {block : UInt16} {data : ByteArray} {round : Round} {middle : ω}
    {result : Except Fault Unit} (hstoring : session.Storing block data before deeds result after)
    (htaken : session.pipe.onOut .download block data before.world =
      (⟨.ok round.count, round.delay⟩, middle))
    (hanswers : session.pipe.Answers middle (round.work ++ [round.last]) world)
    (hstores : round.Stores session.deviations) :
    result = .ok () ∧ after = ⟨world, before.clock + round.storeTime session.deviations⟩ ∧
      exchanges deeds = round.transfers (block, data) := by
  have hok : (session.replyTo round.last.bytes).status.isOk := by
    rw [replyTo_status, hstores.ends]
    rfl
  cases hstoring with
  | unsent htold =>
      obtain ⟨htaken, -⟩ := told_taken htaken htold
      contradiction
  | unsettled htold hbusy =>
      obtain ⟨-, rfl⟩ := told_taken htaken htold
      obtain ⟨hresult, -⟩ := hbusy.of_round hanswers hstores
      contradiction
  | refused htold hbusy hbad =>
      obtain ⟨-, rfl⟩ := told_taken htaken htold
      obtain ⟨⟨⟩, -⟩ := hbusy.of_round hanswers hstores
      simp [hok] at hbad
  | stored htold hbusy =>
      obtain ⟨⟨⟩, rfl⟩ := told_taken htaken htold
      obtain ⟨-, hafter, hpolls⟩ := hbusy.of_round hanswers hstores
      refine ⟨rfl, ?_, ?_⟩
      · rw [hafter, Round.storeTime, Nat.add_assoc, Nat.add_assoc, Nat.add_assoc]
      · rw [exchanges_cons_orderDeed, hpolls]
        rfl

theorem Manifesting.of_round {round : Round} {result : Except Fault Unit}
    (hmanifesting : session.Manifesting before.clock before deeds result after)
    (hanswers : session.pipe.Answers before.world (round.work ++ [round.last]) world)
    (hmanifests : round.Manifests session.deviations) :
    result = .ok () ∧
      after = ⟨world, before.clock + workTime session.deviations settleTime round.work +
        round.last.time session.deviations⟩ ∧
      exchanges deeds = polls (round.work ++ [round.last]) := by
  have hwork : ∀ answer ∈ round.work, isManifesting (session.replyTo answer.bytes).state := by
    intro answer hmem
    rw [replyTo_state]
    rcases hmanifests.works answer hmem with hstate | hstate
    · rw [hstate]
      rfl
    · rw [hstate]
      rfl
  obtain ⟨state, hshows, hreport⟩ := hmanifests.ends
  have hstate : (session.replyTo round.last.bytes).state = state := by
    rw [replyTo_state, hreport]
  have hlast : isManifesting (session.replyTo round.last.bytes).state = false := by
    rw [hstate]
    rcases hshows with rfl | rfl
    · rfl
    · rfl
  obtain ⟨hresult, hrest⟩ :=
    hmanifesting.of_answers hanswers hwork hlast (Nat.add_lt_add_left hmanifests.inTime _)
  refine ⟨?_, hrest⟩
  have hstatus : (session.replyTo round.last.bytes).status = .ok := by
    rw [replyTo_status, hreport]
  rw [hresult, conclusion, hstate, StatusReply.require, hstatus]
  rcases hshows with rfl | rfl
  · rfl
  · rfl

theorem serves_next {block : UInt16 × ByteArray} {blocks : List (UInt16 × ByteArray)}
    {rounds : List Round} {final : Round} {first : ω} (hblocks : blocks ≠ [])
    (hserves : session.pipe.Serves (block :: blocks) first (rounds ++ [final]) world) :
    ∃ round rest middle next, rounds = round :: rest ∧
      session.pipe.onOut .download block.1 block.2 first =
        (⟨.ok round.count, round.delay⟩, middle) ∧
      session.pipe.Answers middle (round.work ++ [round.last]) next ∧
      session.pipe.Serves blocks next (rest ++ [final]) world := by
  cases rounds with
  | nil =>
      rcases hserves with _ | ⟨-, -, hrest⟩
      cases hrest
      contradiction
  | cons round rest =>
      rcases hserves with _ | ⟨htaken, hanswers, hrest⟩
      exact ⟨round, rest, _, _, rfl, htaken, hanswers, hrest⟩

theorem serves_last {block : UInt16 × ByteArray} {rounds : List Round} {final : Round} {first : ω}
    (hserves : session.pipe.Serves [block] first (rounds ++ [final]) world) :
    rounds = [] ∧ ∃ middle, session.pipe.onOut .download block.1 block.2 first =
        (⟨.ok final.count, final.delay⟩, middle) ∧
      session.pipe.Answers middle (final.work ++ [final.last]) world := by
  cases rounds with
  | nil =>
      rcases hserves with _ | ⟨htaken, hanswers, ⟨⟩⟩
      exact ⟨rfl, _, htaken, hanswers⟩
  | cons round rest =>
      obtain ⟨other, others, hrounds⟩ : ∃ other others, rest ++ [final] = other :: others :=
        List.exists_cons_of_ne_nil (by simp)
      rw [List.cons_append, hrounds] at hserves
      rcases hserves with _ | ⟨-, -, ⟨⟩⟩

/-- A device that serves the blocks from a position on brings the download to its end. -/
theorem Sending.of_rounds {payload : ByteArray} {chunk position : Nat} (positive : 0 < chunk)
    {result : Except Fault Unit} {rounds : List Round} {final : Round}
    (hsending : session.Sending payload chunk position before deeds result after)
    (hposition : position ≤ blockCount payload.size chunk)
    (hserves : session.pipe.Serves ((plan payload chunk).drop position) before.world
      (rounds ++ [final]) world)
    (hstores : ∀ round ∈ rounds, round.Stores session.deviations)
    (hmanifests : final.Manifests session.deviations) :
    result = .ok () ∧
      after = ⟨world, before.clock + (rounds.map (Round.storeTime session.deviations)).sum +
        final.manifestTime session.deviations⟩ ∧
      exchanges deeds = (((plan payload chunk).drop position).zip (rounds ++ [final])).flatMap
        fun served => served.2.transfers served.1 := by
  have hleft {position : Nat} (hinside : position * chunk < payload.size) :
      (plan payload chunk).drop (position + 1) ≠ [] := by
    have hlt := (lt_blockCount_iff _ positive _).mpr hinside
    simp [plan]
    omega
  induction hsending generalizing rounds with
  | failed hinside hstoring =>
      have hlt := (lt_blockCount_iff _ positive _).mpr hinside
      rw [drop_plan_of_lt payload hlt] at hserves
      obtain ⟨round, rest, middle, next, rfl, htaken, hanswers, -⟩ :=
        serves_next (hleft hinside) hserves
      obtain ⟨hresult, -⟩ := hstoring.of_round htaken hanswers (hstores round List.mem_cons_self)
      contradiction
  | stored hinside hstoring hrest ih =>
      have hlt := (lt_blockCount_iff _ positive _).mpr hinside
      rw [drop_plan_of_lt payload hlt] at hserves ⊢
      obtain ⟨round, rest, middle, next, rfl, htaken, hanswers, hmore⟩ :=
        serves_next (hleft hinside) hserves
      obtain ⟨-, rfl, hfirst⟩ :=
        hstoring.of_round htaken hanswers (hstores round List.mem_cons_self)
      obtain ⟨hresult, hafter, hothers⟩ := ih hlt hmore
        (fun other hmem => hstores other (List.mem_cons_of_mem round hmem))
      refine ⟨hresult, ?_, ?_⟩
      · rw [hafter, List.map_cons, List.sum_cons, ← Nat.add_assoc]
      · simp [hfirst, hothers]
  | endUnsent houtside htold =>
      rw [drop_plan_of_le payload positive houtside hposition] at hserves
      obtain ⟨-, middle, htaken, -⟩ := serves_last hserves
      obtain ⟨htaken, -⟩ := told_taken htaken htold
      contradiction
  | ended houtside htold hmanifesting =>
      rw [drop_plan_of_le payload positive houtside hposition] at hserves ⊢
      obtain ⟨rfl, middle, htaken, hanswers⟩ := serves_last hserves
      obtain ⟨⟨⟩, rfl⟩ := told_taken htaken htold
      obtain ⟨hresult, hafter, hpolls⟩ := hmanifesting.of_round hanswers hmanifests
      refine ⟨hresult, ?_, ?_⟩
      · rw [hafter, Round.manifestTime]
        simp only [List.map_nil, List.sum_nil, Nat.add_zero, Nat.add_assoc]
      · rw [exchanges_cons_orderDeed, hpolls]
        simp [Round.transfers]

/-- A device that takes its time within the limits is never given up: the download succeeds with
exactly the answers of the device, and takes the time of the transfers and of the waits that the
device asked for, with a pause after each answer that shows it at work on its firmware. -/
theorem downloadPayload_awaits_slow_device (session : Session ω)
    (pace : Pace session.pipe session.deviations) {chunk : UInt16} (positive : 0 < chunk.toNat)
    (payload : ByteArray) (before : Moment ω)
    {rounds : List Round} {final : Round} {world : ω}
    (hserves : session.pipe.Serves (plan payload chunk.toNat) before.world (rounds ++ [final])
      world)
    (hstores : ∀ round ∈ rounds, round.Stores session.deviations)
    (hmanifests : final.Manifests session.deviations) :
    ∃ deeds,
      (session.downloadPayload pace chunk payload).Performs before deeds (.ok ())
        ⟨world, before.clock + (rounds.map (Round.storeTime session.deviations)).sum +
          final.manifestTime session.deviations⟩ ∧
      exchanges deeds = ((plan payload chunk.toNat).zip (rounds ++ [final])).flatMap
        fun served => served.2.transfers served.1 := by
  obtain ⟨deeds, result, after, hsending, hrun⟩ :=
    session.downloadPayload_performs pace positive payload before
  obtain ⟨rfl, rfl, htransfers⟩ :=
    hsending.of_rounds positive (Nat.zero_le _) hserves hstores hmanifests
  exact ⟨_, hrun, htransfers⟩

/-- The second block takes a device half a minute, and its firmware a bit more than a second. -/
theorem downloadPayload_awaits_slow_device_bench :
    let rounds : List Round :=
      [⟨4, 0, [], ⟨⟨#[0, 0, 0, 0, 5, 0]⟩, 0⟩⟩,
        ⟨2, 0, [⟨⟨#[0, 48, 117, 0, 4, 0]⟩, 20⟩], ⟨⟨#[0, 9, 0, 0, 5, 0]⟩, 0⟩⟩]
    let final : Round :=
      ⟨0, 0, [⟨⟨#[0, 100, 0, 0, 7, 0]⟩, 0⟩], ⟨⟨#[0, 3, 0, 0, 2, 0]⟩, 0⟩⟩
    let script : Script :=
      ⟨[⟨.ok ⟨#[0, 0, 0, 0, 5, 0]⟩, 0, 0⟩, ⟨.ok ⟨#[0, 48, 117, 0, 4, 0]⟩, 0, 20⟩,
        ⟨.ok ⟨#[0, 9, 0, 0, 5, 0]⟩, 0, 0⟩, ⟨.ok ⟨#[0, 100, 0, 0, 7, 0]⟩, 0, 0⟩,
        ⟨.ok ⟨#[0, 3, 0, 0, 2, 0]⟩, 0, 0⟩], [], []⟩
    let payload : ByteArray := ⟨#[1, 2, 3, 4, 5, 6]⟩
    Script.session.pipe.Serves (plan payload 4) script (rounds ++ [final]) ⟨[], [], []⟩ ∧
      (∀ round ∈ rounds, round.Stores Script.session.deviations) ∧
      final.Manifests Script.session.deviations ∧
      ∃ deeds, (Script.session.downloadPayload (Script.pace _) 4 payload).Performs ⟨script, 0⟩
        deeds (.ok ()) ⟨⟨[], [], []⟩, 31123⟩ := by
  intro rounds final script payload
  have hplan : plan payload 4 = [(0, ⟨#[1, 2, 3, 4]⟩), (1, ⟨#[5, 6]⟩), (2, .empty)] := by
    decide
  have hserves : Script.session.pipe.Serves (plan payload 4) script (rounds ++ [final])
      ⟨[], [], []⟩ := by
    rw [hplan]
    exact .next rfl (.next rfl .done) (.next rfl (.next rfl (.next rfl .done))
      (.next rfl (.next rfl (.next rfl .done)) .done))
  have hstores : ∀ round ∈ rounds, round.Stores Script.session.deviations := by
    intro round hmem
    simp only [rounds, List.mem_cons, List.not_mem_nil, or_false] at hmem
    rcases hmem with rfl | rfl
    · exact ⟨by simp, by decide, by decide⟩
    · exact ⟨by decide, by decide, by decide⟩
  have hmanifests : final.Manifests Script.session.deviations :=
    ⟨by decide, by decide, .dfuIdle, .inl rfl, by decide⟩
  have positive : 0 < (4 : UInt16).toNat := by decide
  have htime : 0 + (rounds.map (Round.storeTime Script.session.deviations)).sum +
      final.manifestTime Script.session.deviations = 31123 := by
    decide
  obtain ⟨deeds, hrun, -⟩ := Script.session.downloadPayload_awaits_slow_device (Script.pace _)
    positive payload ⟨script, 0⟩ hserves hstores hmanifests
  rw [htime] at hrun
  exact ⟨hserves, hstores, hmanifests, deeds, hrun⟩

end Session

end FirmwareUpgrade
