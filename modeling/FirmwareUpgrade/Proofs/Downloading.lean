import FirmwareUpgrade.Download
import FirmwareUpgrade.Proofs.SessionRequests

/-!
# The course of a download

The loops of a download are opened here once.  Each gets an equation that unrolls one round, and a
relation that lists all its rounds: `Busy` for the polls after a block, `Manifesting` for the polls
after the empty block, and `Sending` for the blocks themselves.  For every device there is such a
course, and the download does what is listed in it.
-/

namespace FirmwareUpgrade

variable {ω α : Type}

/-- The bytes up to the end of a block. -/
theorem Download.planned_end {payload : ByteArray} {chunk position : Nat}
    (hinside : position * chunk < payload.size) :
    position * chunk + (planned payload chunk position).2.size =
      min ((position + 1) * chunk) payload.size := by
  rw [planned, ByteArray.size_extract, Nat.succ_mul]
  omega

namespace Session

open Download

/-! ## One round of each loop -/

/-- The end of a round of polls.  The deadline is kept a variable here, because the kernel would
count up to the limit to decide whether it is reached. -/
theorem run_unlessLate (deadline : Nat) (again : Action ω α) (host : Host ω) :
    (do
      let clock ← Action.now
      if deadline ≤ clock then Action.fail .timeout else again : Action ω α).run host =
      if deadline ≤ host.clock then (.error .timeout, host) else again.run host := by
  rw [Action.run_bind]
  change Action.run (if deadline ≤ host.clock then _ else _) host = _
  split <;> rfl

theorem pollBusy_eq (session : Session ω) (pace : Pace session.pipe session.deviations)
    (start : Nat) :
    (⟨session.pollBusy pace start⟩ : Action ω StatusReply) = (do
      let reply ← session.getStatus
      if reply.isSettled then return reply
      else
        reply.wait
        let clock ← Action.now
        if start + busyLimit ≤ clock then Action.fail .timeout
        else ⟨session.pollBusy pace start⟩) := by
  apply Action.ext
  intro host
  change session.pollBusy pace start host = _
  rw [pollBusy, Action.run_bind]
  split
  · next heq => rw [heq]
  · next reply after heq =>
      rw [heq]
      dsimp only
      split
      · rfl
      · rw [Action.run_bind_ok (run_wait reply after), run_unlessLate]
        split
        · rfl
        · rfl

theorem pollManifestation_eq (session : Session ω) (start : Nat) :
    (⟨session.pollManifestation start⟩ : Action ω Unit) = (do
      match ← session.getStatus.attempt with
      | .error fault =>
        if session.descriptor.manifestationTolerant then Action.fail fault
        else Action.note (.leftWhileManifesting fault)
      | .ok reply =>
        reply.wait
        if isManifesting reply.state then
          Action.sleep settleTime
          let clock ← Action.now
          if start + busyLimit ≤ clock then Action.fail .timeout
          else ⟨session.pollManifestation start⟩
        else concludeManifestation reply) := by
  apply Action.ext
  intro host
  change session.pollManifestation start host = _
  rw [pollManifestation, Action.run_bind]
  split
  · next fault after heq =>
      simp only [Action.attempt, heq]
      split <;> rfl
  · next reply after heq =>
      simp only [Action.attempt, heq]
      rw [Action.run_bind_ok (run_wait reply after)]
      split
      · have hsleep := Action.run_record (.sleep settleTime) (after.waitFor reply)
        rw [Action.sleep, Action.run_bind_ok hsleep, run_unlessLate]
        split
        · rfl
        · rfl
      · rfl

theorem sendBlocks_eq (session : Session ω) (pace : Pace session.pipe session.deviations)
    (payload : ByteArray) (chunk : Nat) (positive : 0 < chunk) (block : UInt16) (offset : Nat) :
    (⟨session.sendBlocks pace payload chunk positive block offset⟩ : Action ω UInt16) = (do
      if offset < payload.size then
        let data := payload.extract offset (offset + chunk)
        session.storeBlock pace block data
        Action.record (.downloaded (offset + data.size) payload.size)
        ⟨session.sendBlocks pace payload chunk positive (block + 1) (offset + chunk)⟩
      else return block) := by
  apply Action.ext
  intro host
  change session.sendBlocks pace payload chunk positive block offset host = _
  rw [sendBlocks]
  split
  · dsimp only
    rw [Action.run_bind]
    split
    · next heq => rw [heq]
    · next heq =>
        rw [heq]
        rfl
  · rfl

/-! ## The courses -/

/-- The polls after a block, with the limit counted from `start`. -/
inductive Busy (session : Session ω) (start : Nat) :
    Moment ω → List Event → Except Fault StatusReply → Moment ω → Prop
  | lost {before after error delay}
      (hasked : session.pipe.asked .getStatus 0 6 before = (⟨.error error, delay⟩, after)) :
      Busy session start before [session.statusDeed (.error error) delay]
        (.error (.transfer error)) after
  | settled {before after bytes delay}
      (hasked : session.pipe.asked .getStatus 0 6 before = (⟨.ok bytes, delay⟩, after))
      (hsettled : (session.replyTo bytes).isSettled) :
      Busy session start before [session.statusDeed (.ok bytes) delay]
        (.ok (session.replyTo bytes)) after
  | late {before after bytes delay}
      (hasked : session.pipe.asked .getStatus 0 6 before = (⟨.ok bytes, delay⟩, after))
      (hsettled : ¬ (session.replyTo bytes).isSettled)
      (hlate : start + busyLimit ≤ (after.waited (session.replyTo bytes)).clock) :
      Busy session start before
        (session.statusDeed (.ok bytes) delay :: (session.replyTo bytes).sleeps)
        (.error .timeout) (after.waited (session.replyTo bytes))
  | again {before middle after bytes delay deeds result}
      (hasked : session.pipe.asked .getStatus 0 6 before = (⟨.ok bytes, delay⟩, middle))
      (hsettled : ¬ (session.replyTo bytes).isSettled)
      (hinTime : ¬ start + busyLimit ≤ (middle.waited (session.replyTo bytes)).clock)
      (hrest : Busy session start (middle.waited (session.replyTo bytes)) deeds result after) :
      Busy session start before
        (session.statusDeed (.ok bytes) delay :: (session.replyTo bytes).sleeps ++ deeds)
        result after

inductive Storing (session : Session ω) (block : UInt16) (data : ByteArray) :
    Moment ω → List Event → Except Fault Unit → Moment ω → Prop
  | unsent {before after error delay}
      (htold : session.pipe.told .download block data before = (⟨.error error, delay⟩, after)) :
      Storing session block data before
        [session.orderDeed .download block data (.error error) delay]
        (.error (.transfer error)) after
  | unsettled {before middle after count delay deeds fault}
      (htold : session.pipe.told .download block data before = (⟨.ok count, delay⟩, middle))
      (hbusy : session.Busy middle.clock middle deeds (.error fault) after) :
      Storing session block data before
        (session.orderDeed .download block data (.ok count) delay :: deeds) (.error fault) after
  | refused {before middle after count delay deeds reply}
      (htold : session.pipe.told .download block data before = (⟨.ok count, delay⟩, middle))
      (hbusy : session.Busy middle.clock middle deeds (.ok reply) after)
      (hbad : reply.status.isOk = false) :
      Storing session block data before
        (session.orderDeed .download block data (.ok count) delay :: deeds)
        (.error reply.fault) after
  | stored {before middle after count delay deeds reply}
      (htold : session.pipe.told .download block data before = (⟨.ok count, delay⟩, middle))
      (hbusy : session.Busy middle.clock middle deeds (.ok reply) after)
      (hok : reply.status.isOk) :
      Storing session block data before
        (session.orderDeed .download block data (.ok count) delay :: deeds) (.ok ()) after

def conclusion (reply : StatusReply) : Except Fault Unit :=
  if reply.state = .dfuError then .error reply.fault else reply.require ()

/-- The polls after the empty block, with the limit counted from `start`. -/
inductive Manifesting (session : Session ω) (start : Nat) :
    Moment ω → List Event → Except Fault Unit → Moment ω → Prop
  | left {before after error delay}
      (hasked : session.pipe.asked .getStatus 0 6 before = (⟨.error error, delay⟩, after))
      (hleaves : session.descriptor.manifestationTolerant = false) :
      Manifesting session start before [session.statusDeed (.error error) delay] (.ok ()) after
  | lost {before after error delay}
      (hasked : session.pipe.asked .getStatus 0 6 before = (⟨.error error, delay⟩, after))
      (hstays : session.descriptor.manifestationTolerant) :
      Manifesting session start before [session.statusDeed (.error error) delay]
        (.error (.transfer error)) after
  | concluded {before after bytes delay}
      (hasked : session.pipe.asked .getStatus 0 6 before = (⟨.ok bytes, delay⟩, after))
      (hdone : isManifesting (session.replyTo bytes).state = false) :
      Manifesting session start before
        (session.statusDeed (.ok bytes) delay :: (session.replyTo bytes).sleeps)
        (conclusion (session.replyTo bytes)) (after.waited (session.replyTo bytes))
  | late {before middle after bytes delay}
      (hasked : session.pipe.asked .getStatus 0 6 before = (⟨.ok bytes, delay⟩, middle))
      (hwork : isManifesting (session.replyTo bytes).state)
      (hafter : after = (middle.waited (session.replyTo bytes)).pass (.sleep settleTime))
      (hlate : start + busyLimit ≤ after.clock) :
      Manifesting session start before
        (session.statusDeed (.ok bytes) delay :: (session.replyTo bytes).sleeps ++
          [.sleep settleTime])
        (.error .timeout) after
  | again {before middle next after bytes delay deeds result}
      (hasked : session.pipe.asked .getStatus 0 6 before = (⟨.ok bytes, delay⟩, middle))
      (hwork : isManifesting (session.replyTo bytes).state)
      (hnext : next = (middle.waited (session.replyTo bytes)).pass (.sleep settleTime))
      (hinTime : ¬ start + busyLimit ≤ next.clock)
      (hrest : Manifesting session start next deeds result after) :
      Manifesting session start before
        (session.statusDeed (.ok bytes) delay :: (session.replyTo bytes).sleeps ++
          .sleep settleTime :: deeds)
        result after

/-- The blocks of a download from a position on, the empty block, and the polls after it. -/
inductive Sending (session : Session ω) (payload : ByteArray) (chunk : Nat) :
    Nat → Moment ω → List Event → Except Fault Unit → Moment ω → Prop
  | failed {position before after deeds fault} (hinside : position * chunk < payload.size)
      (hstoring : session.Storing (planned payload chunk position).1
        (planned payload chunk position).2 before deeds (.error fault) after) :
      Sending session payload chunk position before deeds (.error fault) after
  | stored {position before middle after deeds more result}
      (hinside : position * chunk < payload.size)
      (hstoring : session.Storing (planned payload chunk position).1
        (planned payload chunk position).2 before deeds (.ok ()) middle)
      (hrest : Sending session payload chunk (position + 1) middle more result after) :
      Sending session payload chunk position before
        (deeds ++
          .downloaded (position * chunk + (planned payload chunk position).2.size) payload.size ::
            more)
        result after
  | endUnsent {position before after error delay} (houtside : payload.size ≤ position * chunk)
      (htold : session.pipe.told .download (UInt16.ofNat position) .empty before =
        (⟨.error error, delay⟩, after)) :
      Sending session payload chunk position before
        [session.orderDeed .download (UInt16.ofNat position) .empty (.error error) delay]
        (.error (.transfer error)) after
  | ended {position before middle after count delay deeds result}
      (houtside : payload.size ≤ position * chunk)
      (htold : session.pipe.told .download (UInt16.ofNat position) .empty before =
        (⟨.ok count, delay⟩, middle))
      (hmanifesting : session.Manifesting middle.clock middle deeds result after) :
      Sending session payload chunk position before
        (session.orderDeed .download (UInt16.ofNat position) .empty (.ok count) delay :: deeds)
        result after

section Requests

variable {session : Session ω} {start : Nat} {before after : Moment ω} {deeds : List Event}

theorem Busy.requests {result : Except Fault StatusReply}
    (hbusy : session.Busy start before deeds result after) :
    ∀ transfer ∈ exchanges deeds, transfer.request = .getStatus := by
  induction hbusy with
  | lost => simp [Exchange.request]
  | settled => simp [Exchange.request]
  | late => simp [Exchange.request]
  | again _ _ _ _ ih => simpa [Exchange.request] using ih

theorem Manifesting.requests {result : Except Fault Unit}
    (hmanifesting : session.Manifesting start before deeds result after) :
    ∀ transfer ∈ exchanges deeds, transfer.request = .getStatus := by
  induction hmanifesting with
  | left => simp [Exchange.request]
  | lost => simp [Exchange.request]
  | concluded => simp [Exchange.request]
  | late => simp [Exchange.request]
  | again _ _ _ _ _ ih => simpa [Exchange.request] using ih

theorem Storing.first_request {block : UInt16} {data : ByteArray} {result : Except Fault Unit}
    (hstoring : session.Storing block data before deeds result after) :
    (exchanges deeds).head?.map Exchange.request = some .download := by
  cases hstoring <;> rfl

theorem Sending.first_request {payload : ByteArray} {chunk position : Nat}
    {result : Except Fault Unit}
    (hsending : session.Sending payload chunk position before deeds result after) :
    (exchanges deeds).head?.map Exchange.request = some .download := by
  cases hsending with
  | failed hinside hstoring => exact hstoring.first_request
  | stored hinside hstoring hrest =>
      obtain ⟨next, hnext, hrequest⟩ := Option.map_eq_some_iff.mp hstoring.first_request
      rw [exchanges_append, List.head?_append, hnext]
      exact congrArg some hrequest
  | endUnsent => rfl
  | ended => rfl

end Requests

/-! ## A course for every device -/

/-- A poll that shows the device busy leaves less time, or as much time and fewer instants. -/
theorem busyRound_lowers (session : Session ω) (pace : Pace session.pipe session.deviations)
    {before middle : Moment ω} {deeds : List Event} {reply : StatusReply}
    (hstatus : session.getStatus.Performs before deeds (.ok reply) middle)
    (hbusy : ¬ reply.isSettled) {start : Nat}
    (hinTime : ¬ start + busyLimit ≤ (middle.waited reply).clock) :
    Prod.Lex (· < ·) (· < ·)
      (start + busyLimit - (middle.waited reply).clock, pace.instants (middle.waited reply).world)
      (start + busyLimit - before.clock, pace.instants before.world) := by
  obtain ⟨last, hhost, rfl, -⟩ := hstatus.run before.host rfl
  have hadvanced := session.getStatus_advances pace hhost hbusy
  rw [last.waitFor_clock, last.waitFor_world] at hadvanced
  rcases hadvanced with hlater | ⟨hsame, hlowered⟩
  · change before.clock < (last.moment.waited reply).clock at hlater
    exact .left _ _ (by omega)
  · change (last.moment.waited reply).clock = before.clock at hsame
    rw [hsame]
    exact .right _ hlowered

theorem exists_busy (session : Session ω) (pace : Pace session.pipe session.deviations)
    (start : Nat) (before : Moment ω) :
    ∃ deeds result after, session.Busy start before deeds result after := by
  rcases hasked : session.pipe.asked .getStatus 0 6 before with ⟨⟨answer, delay⟩, middle⟩
  have hstatus := getStatus_performs hasked
  cases answer with
  | error error => exact ⟨_, _, _, .lost hasked⟩
  | ok bytes =>
      by_cases hsettled : (session.replyTo bytes).isSettled
      · exact ⟨_, _, _, .settled hasked hsettled⟩
      by_cases hlate : start + busyLimit ≤ (middle.waited (session.replyTo bytes)).clock
      · exact ⟨_, _, _, .late hasked hsettled hlate⟩
      obtain ⟨deeds, result, after, hbusy⟩ :=
        session.exists_busy pace start (middle.waited (session.replyTo bytes))
      exact ⟨_, _, _, .again hasked hsettled hlate hbusy⟩
termination_by (start + busyLimit - before.clock, pace.instants before.world)
decreasing_by
  exact session.busyRound_lowers pace hstatus hsettled hlate

theorem exists_storing (session : Session ω) (pace : Pace session.pipe session.deviations)
    (block : UInt16) (data : ByteArray) (before : Moment ω) :
    ∃ deeds result after, session.Storing block data before deeds result after := by
  rcases htold : session.pipe.told .download block data before with ⟨⟨taken, delay⟩, middle⟩
  cases taken with
  | error error => exact ⟨_, _, _, .unsent htold⟩
  | ok count =>
      obtain ⟨deeds, result, after, hbusy⟩ := session.exists_busy pace middle.clock middle
      cases result with
      | error fault => exact ⟨_, _, _, .unsettled htold hbusy⟩
      | ok reply =>
          cases hok : reply.status.isOk with
          | true => exact ⟨_, _, _, .stored htold hbusy hok⟩
          | false => exact ⟨_, _, _, .refused htold hbusy hok⟩

theorem exists_manifesting (session : Session ω) (start : Nat) (before : Moment ω) :
    ∃ deeds result after, session.Manifesting start before deeds result after := by
  rcases hasked : session.pipe.asked .getStatus 0 6 before with ⟨⟨answer, delay⟩, middle⟩
  cases answer with
  | error error =>
      cases htolerant : session.descriptor.manifestationTolerant with
      | false => exact ⟨_, _, _, .left hasked htolerant⟩
      | true => exact ⟨_, _, _, .lost hasked htolerant⟩
  | ok bytes =>
      cases hwork : isManifesting (session.replyTo bytes).state with
      | false => exact ⟨_, _, _, .concluded hasked hwork⟩
      | true =>
          -- The next moment stays a variable, so that no one computes with the two limits.
          obtain ⟨next, hnext⟩ : ∃ next,
              next = (middle.waited (session.replyTo bytes)).pass (.sleep settleTime) := ⟨_, rfl⟩
          by_cases hlate : start + busyLimit ≤ next.clock
          · exact ⟨_, _, _, .late hasked hwork hnext hlate⟩
          obtain ⟨deeds, result, after, hmanifesting⟩ := exists_manifesting session start next
          exact ⟨_, _, _, .again hasked hwork hnext hlate hmanifesting⟩
termination_by start + busyLimit - before.clock
decreasing_by
  have hlater := ControlPipe.asked_clock_le hasked
  have hclock : next.clock =
      middle.clock + (session.replyTo bytes).pollTime.toNat + settleTime := by
    rw [hnext]
    rfl
  simp only [settleTime] at hclock
  omega

theorem exists_sending (session : Session ω) (pace : Pace session.pipe session.deviations)
    (payload : ByteArray) {chunk : Nat} (positive : 0 < chunk) (position : Nat)
    (before : Moment ω) :
    ∃ deeds result after, session.Sending payload chunk position before deeds result after := by
  by_cases hinside : position * chunk < payload.size
  · obtain ⟨deeds, result, middle, hstoring⟩ :=
      session.exists_storing pace (planned payload chunk position).1
        (planned payload chunk position).2 before
    cases result with
    | error fault => exact ⟨_, _, _, .failed hinside hstoring⟩
    | ok done =>
        obtain ⟨more, result, after, hsending⟩ :=
          exists_sending session pace payload positive (position + 1) middle
        exact ⟨_, _, _, .stored hinside hstoring hsending⟩
  · have houtside := Nat.le_of_not_lt hinside
    rcases htold : session.pipe.told .download (UInt16.ofNat position) .empty before with
      ⟨⟨taken, delay⟩, middle⟩
    cases taken with
    | error error => exact ⟨_, _, _, .endUnsent houtside htold⟩
    | ok count =>
        obtain ⟨deeds, result, after, hmanifesting⟩ :=
          session.exists_manifesting middle.clock middle
        exact ⟨_, _, _, .ended houtside htold hmanifesting⟩
termination_by payload.size - position * chunk
decreasing_by
  rw [Nat.succ_mul]
  omega

/-! ## What is done on a course -/

section

variable {session : Session ω} {before after : Moment ω} {deeds : List Event}

theorem Busy.performs {start : Nat} {result : Except Fault StatusReply}
    (hbusy : session.Busy start before deeds result after)
    (pace : Pace session.pipe session.deviations) :
    (⟨session.pollBusy pace start⟩ : Action ω StatusReply).Performs before deeds result after := by
  induction hbusy with
  | lost hasked =>
      rw [pollBusy_eq]
      exact (getStatus_performs hasked).bind_error
  | settled hasked hsettled =>
      rw [pollBusy_eq]
      refine (getStatus_performs hasked).bind_silent ?_
      rw [if_pos hsettled]
      exact Action.performs_pure _ _
  | late hasked hsettled hlate =>
      rw [pollBusy_eq]
      refine (getStatus_performs hasked).bind_single ?_
      rw [if_neg hsettled]
      refine (wait_performs _ _).bind_silent ((Action.performs_now _).bind_silent ?_)
      rw [if_pos hlate]
      exact Action.performs_fail _ _
  | again hasked hsettled hinTime _ ih =>
      rw [pollBusy_eq]
      refine (getStatus_performs hasked).bind_single ?_
      rw [if_neg hsettled]
      refine (wait_performs _ _).bind ((Action.performs_now _).bind ?_)
      rw [if_neg hinTime]
      exact ih

theorem Busy.awaitBlock_performs {result : Except Fault StatusReply}
    (hbusy : session.Busy before.clock before deeds result after)
    (pace : Pace session.pipe session.deviations) :
    (session.awaitBlock pace).Performs before deeds result after := by
  have hrun := hbusy.performs pace
  refine ⟨?_, hrun.clock⟩
  intro host hhost
  have hclock : host.clock = before.clock := congrArg Moment.clock hhost
  simpa only [awaitBlock, hclock] using hrun.run host hhost

theorem Storing.performs {block : UInt16} {data : ByteArray} {result : Except Fault Unit}
    (hstoring : session.Storing block data before deeds result after)
    (pace : Pace session.pipe session.deviations) :
    (session.storeBlock pace block data).Performs before deeds result after := by
  unfold storeBlock
  cases hstoring with
  | unsent htold => exact (download_performs htold).bind_error
  | unsettled htold hbusy =>
      exact (download_performs htold).bind_single (hbusy.awaitBlock_performs pace).bind_error
  | refused htold hbusy hbad =>
      refine (download_performs htold).bind_single
        ((hbusy.awaitBlock_performs pace).bind_silent ?_)
      rw [if_neg (by simp [hbad])]
      exact .after_note (Action.performs_fail _ after)
  | stored htold hbusy hok =>
      refine (download_performs htold).bind_single
        ((hbusy.awaitBlock_performs pace).bind_silent ?_)
      rw [if_pos hok]
      exact Action.performs_pure () after

theorem concludeManifestation_performs (reply : StatusReply) (moment : Moment ω) :
    (concludeManifestation reply).Performs moment [] (conclusion reply) moment := by
  unfold concludeManifestation conclusion
  cases reply.state with
  | dfuError => exact .after_note (Action.performs_fail _ moment)
  | _ => exact .after_note (Action.performs_ofExcept _ moment)

/-- The next moment stays a variable, so that no one computes with the time. -/
theorem pause_performs {moment next : Moment ω} (hnext : next = moment.pass (.sleep settleTime)) :
    (Action.sleep settleTime : Action ω Unit).Performs moment [.sleep settleTime] (.ok ()) next :=
  hnext ▸ Action.performs_record _ rfl moment

theorem Manifesting.performs {start : Nat} {result : Except Fault Unit}
    (hmanifesting : session.Manifesting start before deeds result after) :
    (⟨session.pollManifestation start⟩ : Action ω Unit).Performs before deeds result after := by
  induction hmanifesting with
  | left hasked hleaves =>
      rw [pollManifestation_eq]
      refine (getStatus_performs hasked).attempt.bind_silent ?_
      simp only [hleaves]
      exact Action.performs_note _ _
  | lost hasked hstays =>
      rw [pollManifestation_eq]
      refine (getStatus_performs hasked).attempt.bind_silent ?_
      simp only [hstays]
      exact Action.performs_fail _ _
  | concluded hasked hdone =>
      rw [pollManifestation_eq]
      refine (getStatus_performs hasked).attempt.bind_single ((wait_performs _ _).bind_silent ?_)
      rw [if_neg (by simp [hdone])]
      exact concludeManifestation_performs _ _
  | late hasked hwork hafter hlate =>
      rw [pollManifestation_eq]
      refine (getStatus_performs hasked).attempt.bind_single ((wait_performs _ _).bind ?_)
      rw [if_pos hwork]
      refine (pause_performs hafter).bind_silent ((Action.performs_now _).bind_silent ?_)
      rw [if_pos hlate]
      exact Action.performs_fail _ _
  | again hasked hwork hnext hinTime _ ih =>
      rw [pollManifestation_eq]
      refine (getStatus_performs hasked).attempt.bind_single ((wait_performs _ _).bind ?_)
      rw [if_pos hwork]
      refine (pause_performs hnext).bind ((Action.performs_now _).bind ?_)
      rw [if_neg hinTime]
      exact ih

theorem Manifesting.awaitManifestation_performs {result : Except Fault Unit}
    (hmanifesting : session.Manifesting before.clock before deeds result after) :
    session.awaitManifestation.Performs before deeds result after := by
  have hrun := hmanifesting.performs
  refine ⟨?_, hrun.clock⟩
  intro host hhost
  have hclock : host.clock = before.clock := congrArg Moment.clock hhost
  simpa only [awaitManifestation, hclock] using hrun.run host hhost

theorem Sending.performs {payload : ByteArray} {chunk position : Nat} {result : Except Fault Unit}
    (hsending : session.Sending payload chunk position before deeds result after)
    (pace : Pace session.pipe session.deviations) (positive : 0 < chunk) :
    ((⟨session.sendBlocks pace payload chunk positive (UInt16.ofNat position)
      (position * chunk)⟩ : Action ω UInt16) >>= session.endDownload).Performs before deeds result
        after := by
  have hoffset (position : Nat) : position * chunk + chunk = (position + 1) * chunk :=
    (Nat.succ_mul position chunk).symm
  have hnumber (position : Nat) : UInt16.ofNat position + 1 = UInt16.ofNat (position + 1) := by
    simp
  induction hsending with
  | failed hinside hstoring =>
      rw [sendBlocks_eq, if_pos hinside]
      simp only [bind_assoc, hoffset]
      exact (hstoring.performs pace).bind_error
  | stored hinside hstoring _ ih =>
      rw [sendBlocks_eq, if_pos hinside]
      simp only [bind_assoc, hoffset, hnumber]
      exact (hstoring.performs pace).bind ((Action.performs_record _ rfl _).bind_single ih)
  | endUnsent houtside htold =>
      rw [sendBlocks_eq, if_neg (Nat.not_lt.mpr houtside)]
      simp only [pure_bind]
      exact .after_note (download_performs htold).bind_error
  | ended houtside htold hmanifesting =>
      rw [sendBlocks_eq, if_neg (Nat.not_lt.mpr houtside)]
      simp only [pure_bind]
      exact .after_note
        ((download_performs htold).bind_single hmanifesting.awaitManifestation_performs)

/-- A download with a positive block size reports that nothing has been sent yet and then takes its
course. -/
theorem Sending.downloadPayload_performs {payload : ByteArray} {chunk : UInt16}
    {result : Except Fault Unit}
    (hsending : session.Sending payload chunk.toNat 0 before deeds result after)
    (pace : Pace session.pipe session.deviations) (positive : 0 < chunk.toNat) :
    (session.downloadPayload pace chunk payload).Performs before
      (.downloaded 0 payload.size :: deeds) result after := by
  have hrun := hsending.performs pace positive
  rw [Nat.zero_mul] at hrun
  unfold downloadPayload
  rw [dif_pos positive]
  exact (Action.performs_record (.downloaded 0 payload.size) rfl before).bind_single hrun

end

variable (session : Session ω) (pace : Pace session.pipe session.deviations)

theorem downloadPayload_refused {chunk : UInt16} (hzero : ¬ 0 < chunk.toNat)
    (payload : ByteArray) (before : Moment ω) :
    (session.downloadPayload pace chunk payload).Performs before []
      (.error .transferSizeUnknown) before := by
  unfold downloadPayload
  rw [dif_neg hzero]
  exact Action.performs_fail _ before

/-- A download with a positive block size takes one of the courses. -/
theorem downloadPayload_performs {chunk : UInt16} (positive : 0 < chunk.toNat)
    (payload : ByteArray) (before : Moment ω) :
    ∃ deeds result after, session.Sending payload chunk.toNat 0 before deeds result after ∧
      (session.downloadPayload pace chunk payload).Performs before
        (.downloaded 0 payload.size :: deeds) result after := by
  obtain ⟨deeds, result, after, hsending⟩ := session.exists_sending pace payload positive 0 before
  exact ⟨deeds, result, after, hsending, hsending.downloadPayload_performs pace positive⟩

end Session

end FirmwareUpgrade
