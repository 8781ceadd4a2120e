import FirmwareUpgrade.Proofs.PatientDownload
import Mathlib.Order.WellFounded

/-!
# Polling takes bounded time

However a device behaves, the host starts no poll after two minutes, and gives the device up by the
end of the round in which they are over.  The loop after a block comes to its end with every device
but one that is busy for ever without any time passing, and with such a device as well it makes the
same polls as with one that gives the same answers and is gone after them.
-/

namespace FirmwareUpgrade

open Download

variable {ω α : Type}

/-! ## When transfers start -/

/-- Every transfer among the events starts less than so many milliseconds after the first event. -/
def StartsWithin (limit : Nat) (events : List Event) : Prop :=
  ∀ earlier route transfer delay later,
    events = earlier ++ .exchange route transfer delay :: later → elapsed earlier < limit

theorem startsWithin_of_silent {events : List Event} (hsilent : exchanges events = [])
    (limit : Nat) : StartsWithin limit events := by
  rintro earlier route transfer delay later rfl
  simp at hsilent

theorem StartsWithin.append {limit rest : Nat} {first second : List Event}
    (hfirst : StartsWithin limit first) (hsecond : StartsWithin rest second)
    (hlimit : elapsed first + rest ≤ limit) : StartsWithin limit (first ++ second) := by
  intro earlier route transfer delay later hsplit
  rcases split_append hsplit with ⟨rest, hinside⟩ | ⟨rest, rfl, hinside⟩
  · exact hfirst earlier route transfer delay rest hinside
  · have hlater := hsecond rest route transfer delay later hinside
    rw [elapsed_append]
    omega

theorem startsWithin_cons {limit : Nat} {events : List Event} (hlimit : 0 < limit)
    (hsilent : exchanges events = []) (route : Route) (transfer : Exchange) (delay : Nat) :
    StartsWithin limit (.exchange route transfer delay :: events) := by
  intro earlier _ _ _ later hsplit
  cases earlier with
  | nil => exact hlimit
  | cons head earlier =>
      obtain ⟨-, hinside⟩ := List.cons.inj hsplit
      have hnever := startsWithin_of_silent hsilent 0 _ _ _ _ _ hinside
      contradiction

namespace Session

/-! ## Rounds -/

section Rounds

variable (session : Session ω) (isBusy : StatusReply → Prop) (pauses : List Event) (start : Nat)

/-- The deeds of a poll that shows the device busy. -/
def roundDeeds (answer : Answer) : List Event :=
  session.statusDeed (.ok answer.bytes) answer.delay ::
    ((session.replyTo answer.bytes).sleeps ++ pauses)

/-- The rounds of polls in which the device was busy and the limit, counted from `start`, was not
reached.  The moment after them is that of the next poll. -/
inductive KeepsPolling : Moment ω → List Answer → Moment ω → Prop
  | here {before} : KeepsPolling before [] before
  | again {before middle next after answer work}
      (hasked : session.pipe.asked .getStatus 0 6 before =
        (⟨.ok answer.bytes, answer.delay⟩, middle))
      (hbusy : isBusy (session.replyTo answer.bytes))
      (hworld : next.world = middle.world)
      (hclock : next.clock =
        before.clock + answer.time session.deviations + elapsed pauses)
      (hinTime : next.clock < start + busyLimit)
      (hrest : KeepsPolling next work after) : KeepsPolling before (answer :: work) after

/-- Polls that came to an end: after some rounds, the last poll either shows that the device is not
busy or is one round too much. -/
inductive Polls (before : Moment ω) : List Event → Except Fault α → Prop
  | ended {work middle answer delay rest result}
      (hwork : session.KeepsPolling isBusy pauses start before work middle)
      (hrest : exchanges rest = []) (hresult : result ≠ .error .timeout) :
      Polls before
        (work.flatMap (session.roundDeeds pauses) ++ session.statusDeed answer delay :: rest)
        result
  | late {work middle last}
      (hwork : session.KeepsPolling isBusy pauses start before work middle)
      (hlate : start + busyLimit ≤
        middle.clock + last.time session.deviations + elapsed pauses) :
      Polls before
        (work.flatMap (session.roundDeeds pauses) ++ session.roundDeeds pauses last)
        (.error .timeout)

end Rounds

section

variable {session : Session ω} {isBusy : StatusReply → Prop} {pauses : List Event} {start : Nat}
  {before middle after : Moment ω} {deeds : List Event} {work : List Answer}

theorem elapsed_roundDeeds (answer : Answer) :
    elapsed (session.roundDeeds pauses answer) =
      answer.time session.deviations + elapsed pauses := by
  rw [roundDeeds, elapsed_cons, elapsed_append, elapsed_sleeps, Answer.time, Nat.add_assoc]
  rfl

theorem startsWithin_roundDeeds {limit : Nat} (hlimit : 0 < limit)
    (hsilent : exchanges pauses = []) (answer : Answer) :
    StartsWithin limit (session.roundDeeds pauses answer) :=
  startsWithin_cons hlimit (by simp [hsilent]) _ _ _

theorem exchanges_roundDeeds (hsilent : exchanges pauses = []) (answer : Answer) :
    exchanges (session.roundDeeds pauses answer) =
      [.receive .getStatus 0 6 (.ok answer.bytes)] := by
  simp [roundDeeds, hsilent]

theorem exchanges_rounds (hsilent : exchanges pauses = []) (work : List Answer) :
    exchanges (work.flatMap (session.roundDeeds pauses)) = polls work := by
  induction work with
  | nil => rfl
  | cons answer work ih =>
      rw [List.flatMap_cons, exchanges_append, exchanges_roundDeeds hsilent, ih]
      rfl

namespace KeepsPolling

theorem clock_eq (hkeeps : session.KeepsPolling isBusy pauses start before work after) :
    after.clock = before.clock + elapsed (work.flatMap (session.roundDeeds pauses)) := by
  induction hkeeps with
  | here => rfl
  | again _ _ _ hclock _ _ ih =>
      rw [ih, hclock, List.flatMap_cons, elapsed_append, elapsed_roundDeeds]
      simp only [Nat.add_assoc]

/-- The next poll is in time. -/
theorem inTime (hkeeps : session.KeepsPolling isBusy pauses start before work after)
    (hstart : before.clock < start + busyLimit) : after.clock < start + busyLimit := by
  induction hkeeps with
  | here => exact hstart
  | again _ _ _ _ hinTime _ ih => exact ih hinTime

theorem startsWithin (hkeeps : session.KeepsPolling isBusy pauses start before work after)
    (hstart : before.clock < start + busyLimit) (hsilent : exchanges pauses = []) :
    StartsWithin (start + busyLimit - before.clock)
      (work.flatMap (session.roundDeeds pauses)) := by
  induction hkeeps with
  | here => exact startsWithin_of_silent rfl _
  | again _ _ _ hclock hinTime _ ih =>
      apply (startsWithin_roundDeeds (Nat.sub_pos_of_lt hstart) hsilent _).append (ih hinTime)
      rw [elapsed_roundDeeds]
      omega

/-- Rounds that all take some time are few. -/
theorem length_mul_lt (hkeeps : session.KeepsPolling isBusy pauses start before work after)
    (hstart : before.clock < start + busyLimit) (least : Nat)
    (hleast : ∀ answer ∈ work, least ≤ answer.time session.deviations + elapsed pauses) :
    before.clock + work.length * least < start + busyLimit := by
  induction hkeeps with
  | here =>
      rw [List.length_nil, Nat.zero_mul]
      exact hstart
  | again _ _ _ hclock hinTime _ ih =>
      have hfirst := hleast _ List.mem_cons_self
      have hrest := ih hinTime fun answer hmem => hleast answer (List.mem_cons_of_mem _ hmem)
      rw [List.length_cons, Nat.succ_mul]
      omega

end KeepsPolling

namespace Polls

variable {result : Except Fault α}

theorem again {next : Moment ω} (answer : Answer)
    (hasked : session.pipe.asked .getStatus 0 6 before =
      (⟨.ok answer.bytes, answer.delay⟩, middle))
    (hbusy : isBusy (session.replyTo answer.bytes)) (hworld : next.world = middle.world)
    (hclock : next.clock = before.clock + answer.time session.deviations + elapsed pauses)
    (hinTime : next.clock < start + busyLimit)
    (hrest : session.Polls isBusy pauses start next deeds result) :
    session.Polls isBusy pauses start before (session.roundDeeds pauses answer ++ deeds)
      result := by
  cases hrest with
  | ended hwork hsilent hresult =>
      rw [← List.append_assoc, ← List.flatMap_cons]
      exact .ended (.again hasked hbusy hworld hclock hinTime hwork) hsilent hresult
  | late hwork hlate =>
      rw [← List.append_assoc, ← List.flatMap_cons]
      exact .late (.again hasked hbusy hworld hclock hinTime hwork) hlate

theorem startsWithin (hpolls : session.Polls isBusy pauses start before deeds result)
    (hstart : before.clock < start + busyLimit) (hsilent : exchanges pauses = []) :
    StartsWithin (start + busyLimit - before.clock) deeds := by
  cases hpolls with
  | ended hwork hrest =>
      have hlast := hwork.inTime hstart
      apply (hwork.startsWithin hstart hsilent).append
        (startsWithin_cons (Nat.sub_pos_of_lt hlast) hrest _ _ _)
      rw [hwork.clock_eq] at hlast ⊢
      omega
  | late hwork =>
      have hlast := hwork.inTime hstart
      apply (hwork.startsWithin hstart hsilent).append
        (startsWithin_roundDeeds (Nat.sub_pos_of_lt hlast) hsilent _)
      rw [hwork.clock_eq] at hlast ⊢
      omega

/-- The limit is reached in the last round. -/
theorem late_of_timeout (hpolls : session.Polls isBusy pauses start before deeds result)
    (hstart : before.clock < start + busyLimit) (htimeout : result = .error .timeout) :
    ∃ earlier last, deeds = earlier ++ session.roundDeeds pauses last ∧
      start + busyLimit ≤ before.clock + elapsed deeds ∧
      before.clock + elapsed earlier < start + busyLimit := by
  cases hpolls with
  | ended _ _ hresult => exact absurd htimeout hresult
  | late hwork hlate =>
      have hlast := hwork.inTime hstart
      rw [hwork.clock_eq] at hlast hlate
      refine ⟨_, _, rfl, ?_, hlast⟩
      rw [elapsed_append, elapsed_roundDeeds]
      omega

/-- There is one poll for each round before the last, and the last. -/
theorem exchanges_length (hpolls : session.Polls isBusy pauses start before deeds result)
    (hsilent : exchanges pauses = []) :
    ∃ work middle, session.KeepsPolling isBusy pauses start before work middle ∧
      (exchanges deeds).length = work.length + 1 := by
  cases hpolls with
  | ended hwork hrest =>
      refine ⟨_, _, hwork, ?_⟩
      simp [exchanges_rounds hsilent, polls, hrest]
  | late hwork =>
      refine ⟨_, _, hwork, ?_⟩
      simp [exchanges_rounds hsilent, exchanges_roundDeeds hsilent, polls]

end Polls

/-! ## The two loops -/

theorem asked_time (answer : Answer)
    (hasked : session.pipe.asked .getStatus 0 6 before =
      (⟨.ok answer.bytes, answer.delay⟩, middle)) :
    (middle.waited (session.replyTo answer.bytes)).clock =
      before.clock + answer.time session.deviations := by
  have hclock : middle.clock = before.clock + answer.delay := by
    simp only [ControlPipe.asked, Prod.mk.injEq] at hasked
    rw [← hasked.2, hasked.1]
  exact waited_clock_eq session hclock

theorem Busy.polls {result : Except Fault StatusReply}
    (hbusy : session.Busy start before deeds result after) :
    session.Polls (fun reply => ¬ reply.isSettled) [] start before deeds result := by
  induction hbusy with
  | lost => exact .ended .here rfl (by simp)
  | settled => exact .ended .here rfl (by simp)
  | @late before after bytes delay hasked _ hlate =>
      have htime := asked_time ⟨bytes, delay⟩ hasked
      have hpolls : session.Polls (fun reply => ¬ reply.isSettled) [] start before
          (session.roundDeeds [] ⟨bytes, delay⟩) (.error .timeout : Except Fault StatusReply) :=
        .late .here (hlate.trans_eq htime)
      rwa [roundDeeds, List.append_nil] at hpolls
  | @again before middle after bytes delay deeds result hasked hsettled hinTime _ ih =>
      have htime := asked_time ⟨bytes, delay⟩ hasked
      have hpolls : session.Polls (fun reply => ¬ reply.isSettled) [] start before
          (session.roundDeeds [] ⟨bytes, delay⟩ ++ deeds) result :=
        .again ⟨bytes, delay⟩ hasked hsettled (Moment.waited_world ..) htime
          (Nat.lt_of_not_le hinTime) ih
      rwa [roundDeeds, List.append_nil] at hpolls

theorem conclusion_ne_timeout (reply : StatusReply) : conclusion reply ≠ .error .timeout := by
  unfold conclusion StatusReply.require StatusReply.fault
  split
  · simp
  · split <;> simp

theorem Manifesting.polls {result : Except Fault Unit}
    (hmanifesting : session.Manifesting start before deeds result after) :
    session.Polls (fun reply => isManifesting reply.state) [.sleep settleTime] start before deeds
      result := by
  induction hmanifesting with
  | left => exact .ended .here rfl (by simp)
  | lost => exact .ended .here rfl (by simp)
  | concluded => exact .ended .here (by simp) (conclusion_ne_timeout _)
  | @late before middle after bytes delay hasked _ hafter hlate =>
      have hclock := congrArg Moment.clock hafter
      rw [Moment.pass_clock, asked_time ⟨bytes, delay⟩ hasked] at hclock
      rw [hclock] at hlate
      have hpolls : session.Polls (fun reply => isManifesting reply.state) [.sleep settleTime]
          start before (session.roundDeeds [.sleep settleTime] ⟨bytes, delay⟩)
          (.error .timeout : Except Fault Unit) :=
        .late .here hlate
      exact hpolls
  | @again before middle next after bytes delay deeds result hasked hwork hnext hinTime _ ih =>
      have hclock := congrArg Moment.clock hnext
      have hworld := congrArg Moment.world hnext
      rw [Moment.pass_clock, asked_time ⟨bytes, delay⟩ hasked] at hclock
      have hpolls : session.Polls (fun reply => isManifesting reply.state) [.sleep settleTime]
          start before (session.roundDeeds [.sleep settleTime] ⟨bytes, delay⟩ ++ deeds) result :=
        .again ⟨bytes, delay⟩ hasked hwork hworld hclock (Nat.lt_of_not_le hinTime) ih
      simpa [roundDeeds] using hpolls

end

/-! ## The bounds -/

/-- The rounds after a block that were in time, with a device that did not settle. -/
abbrev StaysBusy (session : Session ω) (before : Moment ω) (work : List Answer)
    (after : Moment ω) : Prop :=
  session.KeepsPolling (fun reply => ¬ reply.isSettled) [] before.clock before work after

/-- Every round in which the device is busy takes time, by its transfer or by the wait that the
answer asks for. -/
def TakesTime (session : Session ω) (before : Moment ω) : Prop :=
  ∀ work after, session.StaysBusy before work after →
    ∀ answer ∈ work, 0 < answer.time session.deviations

/-- Nothing but polls, each started within two minutes.  They are given up only when the two minutes
are over, and no later than at the end of the round in which they are. -/
structure EndsInTime (session : Session ω) (pauses deeds : List Event) (result : Except Fault α) :
    Prop where
  polls : ∀ transfer ∈ exchanges deeds, transfer.request = .getStatus
  starts : StartsWithin 120000 deeds
  patient : result = .error .timeout → 120000 ≤ elapsed deeds
  prompt : result = .error .timeout → ∃ earlier last,
    deeds = earlier ++ session.roundDeeds pauses last ∧
      elapsed deeds < 120000 + last.time session.deviations + elapsed pauses

section

variable {session : Session ω} {before after : Moment ω} {deeds : List Event}

theorem Polls.endsInTime {isBusy : StatusReply → Prop} {pauses : List Event}
    {result : Except Fault α}
    (hpolls : session.Polls isBusy pauses before.clock before deeds result)
    (hrequests : ∀ transfer ∈ exchanges deeds, transfer.request = .getStatus)
    (hsilent : exchanges pauses = []) : session.EndsInTime pauses deeds result := by
  have hstart : before.clock < before.clock + busyLimit := Nat.lt_add_of_pos_right (by decide)
  have hstarts := hpolls.startsWithin hstart hsilent
  rw [Nat.add_sub_cancel_left] at hstarts
  constructor
  · exact hrequests
  · exact hstarts
  · intro htimeout
    obtain ⟨-, -, -, hlate, -⟩ := hpolls.late_of_timeout hstart htimeout
    exact Nat.le_of_add_le_add_left hlate
  · intro htimeout
    obtain ⟨earlier, last, hdeeds, -, hearlier⟩ := hpolls.late_of_timeout hstart htimeout
    refine ⟨earlier, last, hdeeds, ?_⟩
    rw [hdeeds, elapsed_append, elapsed_roundDeeds]
    rw [busyLimit] at hearlier
    omega

theorem TakesTime.length_lt (htakes : session.TakesTime before) {work : List Answer}
    (hstays : session.StaysBusy before work after) : work.length < busyLimit := by
  have hstart : before.clock < before.clock + busyLimit := Nat.lt_add_of_pos_right (by decide)
  have hmany := hstays.length_mul_lt hstart 1 (htakes work after hstays)
  omega

theorem TakesTime.exchanges_length (htakes : session.TakesTime before)
    {result : Except Fault StatusReply}
    (hbusy : session.Busy before.clock before deeds result after) :
    (exchanges deeds).length ≤ busyLimit := by
  obtain ⟨work, middle, hwork, hlength⟩ := hbusy.polls.exchanges_length rfl
  have hfew := htakes.length_lt hwork
  omega

theorem Manifesting.exchanges_length {result : Except Fault Unit}
    (hmanifesting : session.Manifesting before.clock before deeds result after) :
    (exchanges deeds).length ≤ 120 := by
  obtain ⟨work, middle, hwork, hlength⟩ := hmanifesting.polls.exchanges_length rfl
  have hstart : before.clock < before.clock + busyLimit := Nat.lt_add_of_pos_right (by decide)
  have hmany := hwork.length_mul_lt hstart settleTime fun answer _ => Nat.le_add_left _ _
  rw [settleTime, busyLimit] at hmany
  omega

end

/-! ## Devices that are busy without any time passing -/

/-- The device is busy, takes no time to say so and asks for no wait. -/
def BusyAtOnce (session : Session ω) (world after : ω) : Prop :=
  ∃ bytes, session.pipe.onIn .getStatus 0 6 world = (⟨.ok bytes, 0⟩, after) ∧
    ¬ (session.replyTo bytes).isSettled ∧ (session.replyTo bytes).pollTime = 0

section

variable {session : Session ω} {world after : ω}

theorem BusyAtOnce.unique {after' : ω} (hfirst : session.BusyAtOnce world after)
    (hsecond : session.BusyAtOnce world after') : after = after' := by
  obtain ⟨bytes, hanswer, -⟩ := hfirst
  obtain ⟨bytes', hanswer', -⟩ := hsecond
  exact congrArg Prod.snd (hanswer.symm.trans hanswer')

/-- The number of answers that the device gives before time passes. -/
noncomputable def instantsLeft
    (hends : WellFounded fun after world => session.BusyAtOnce world after) : ω → Nat :=
  open Classical in
  hends.fix fun world rest =>
    if hbusy : ∃ after, session.BusyAtOnce world after then
      rest hbusy.choose hbusy.choose_spec + 1
    else 0

theorem instantsLeft_of_busy
    (hends : WellFounded fun after world => session.BusyAtOnce world after)
    (hbusy : session.BusyAtOnce world after) :
    instantsLeft hends world = instantsLeft hends after + 1 := by
  have hexists : ∃ after, session.BusyAtOnce world after := ⟨after, hbusy⟩
  rw [instantsLeft, hends.fix_eq, dif_pos hexists]
  change instantsLeft hends hexists.choose + 1 = instantsLeft hends after + 1
  rw [hexists.choose_spec.unique hbusy]

end

/-- A device has a pace unless it can be busy for ever without any time passing. -/
theorem nonempty_pace_iff (session : Session ω) :
    Nonempty (Pace session.pipe session.deviations) ↔
      ¬ ∃ worlds : Nat → ω, ∀ count, session.BusyAtOnce (worlds count) (worlds (count + 1)) := by
  constructor
  · rintro ⟨pace⟩ ⟨worlds, hbusy⟩
    obtain ⟨count, hstays⟩ :=
      WellFounded.not_rel_apply_succ (r := (· < ·)) fun count => pace.instants (worlds count)
    obtain ⟨bytes, hanswer, hsettled, hzero⟩ := hbusy count
    exact hstays (pace.instants_lt hanswer hsettled hzero)
  · intro hnever
    have hends : WellFounded fun after world => session.BusyAtOnce world after :=
      wellFounded_iff_isEmpty_descending_chain.mpr
        ⟨fun ⟨worlds, hbusy⟩ => hnever ⟨worlds, hbusy⟩⟩
    refine ⟨⟨instantsLeft hends, ?_⟩⟩
    intro world after bytes hanswer hsettled hzero
    rw [instantsLeft_of_busy hends ⟨bytes, hanswer, hsettled, hzero⟩]
    exact Nat.lt_succ_self _

/-- A device that is never busy at once takes time in each round in which it is busy. -/
theorem KeepsPolling.takesTime {session : Session ω} {start : Nat} {before after : Moment ω}
    {work : List Answer}
    (hkeeps : session.KeepsPolling (fun reply => ¬ reply.isSettled) [] start before work after)
    (hnever : ∀ world after, ¬ session.BusyAtOnce world after) :
    ∀ answer ∈ work, 0 < answer.time session.deviations := by
  induction hkeeps with
  | here => simp
  | @again before middle _ _ answer _ hasked hbusy _ _ _ _ ih =>
      rw [List.forall_mem_cons]
      refine ⟨Nat.pos_of_ne_zero fun hnone => ?_, ih⟩
      obtain ⟨hdelay, hpollTime⟩ := Nat.add_eq_zero_iff.mp hnone
      obtain ⟨bytes, delay⟩ := answer
      obtain rfl : delay = 0 := hdelay
      simp only [ControlPipe.asked, Prod.mk.injEq] at hasked
      exact hnever before.world _ ⟨bytes, Prod.ext hasked.1 rfl, hbusy, UInt32.toNat.inj hpollTime⟩

theorem takesTime_of_never {session : Session ω}
    (hnever : ∀ world after, ¬ session.BusyAtOnce world after) (before : Moment ω) :
    session.TakesTime before := fun _ _ hstays => hstays.takesTime hnever

end Session

/-! ## Devices that are gone after some answers -/

namespace ControlPipe

/-- The device, which is gone after so many answers. -/
def cutOff (pipe : ControlPipe ω) : ControlPipe (ω × Nat) where
  route := pipe.route
  onOut request value data state :=
    match pipe.onOut request value data state.1 with
    | (reaction, world) => (reaction, (world, state.2))
  onIn request value length state :=
    match state.2 with
    | 0 => (⟨.error .disconnected, 0⟩, state)
    | answers + 1 =>
      match pipe.onIn request value length state.1 with
      | (reaction, world) => (reaction, (world, answers))

def cutOffPace (pipe : ControlPipe ω) {deviations : Deviations} :
    Pace pipe.cutOff deviations where
  instants := Prod.snd
  instants_lt := by
    rintro ⟨world, answers⟩ after bytes hanswer - -
    cases answers with
    | zero => simp [cutOff] at hanswer
    | succ answers =>
        obtain rfl := congrArg Prod.snd hanswer
        exact Nat.lt_succ_self answers

end ControlPipe

namespace Session

def cutOff (session : Session ω) : Session (ω × Nat) :=
  { session with pipe := session.pipe.cutOff }

@[simp]
theorem cutOff_replyTo (session : Session ω) (bytes : ByteArray) :
    session.cutOff.replyTo bytes = session.replyTo bytes := rfl

@[simp]
theorem cutOff_statusDeed (session : Session ω) (answer : Except TransferError ByteArray)
    (delay : Nat) : session.cutOff.statusDeed answer delay = session.statusDeed answer delay := rfl

/-- The rounds that were in time are those of a device that is gone after them. -/
theorem KeepsPolling.cutOff_busy {session : Session ω} {start : Nat} {before after : Moment ω}
    {work : List Answer}
    (hkeeps : session.KeepsPolling (fun reply => ¬ reply.isSettled) [] start before work after) :
    session.cutOff.Busy start ⟨(before.world, work.length), before.clock⟩
      (work.flatMap (session.roundDeeds []) ++ [session.statusDeed (.error .disconnected) 0])
      (.error (.transfer .disconnected)) ⟨(after.world, 0), after.clock⟩ := by
  induction hkeeps with
  | here => exact .lost rfl
  | @again before middle next after answer work hasked hbusy hworld hclock hinTime _ ih =>
      have hcut : session.cutOff.pipe.asked .getStatus 0 6
          ⟨(before.world, work.length + 1), before.clock⟩ =
            (⟨.ok answer.bytes, answer.delay⟩, ⟨(middle.world, work.length), middle.clock⟩) := by
        simp only [ControlPipe.asked, Prod.mk.injEq] at hasked
        obtain ⟨hanswer, rfl⟩ := hasked
        exact Prod.ext hanswer rfl
      have hnext : (⟨(middle.world, work.length), middle.clock⟩ : Moment (ω × Nat)).waited
          (session.replyTo answer.bytes) = ⟨(next.world, work.length), next.clock⟩ := by
        have htime : next.clock = _ := hclock.trans (asked_time answer hasked).symm
        rw [htime, hworld]
        rfl
      rw [← hnext] at ih
      have hrun := Busy.again hcut hbusy (by simpa [hnext] using hinTime) ih
      simpa [roundDeeds] using hrun

/-! ## Both loops -/

/-- The polls after a block and those after the empty block take bounded time with every device. -/
theorem polling_is_bounded (session : Session ω) (before : Moment ω) :
    (∀ pace, ∃ deeds result after,
      (session.awaitBlock pace).Performs before deeds result after ∧
      session.EndsInTime [] deeds result ∧
      (session.TakesTime before → (exchanges deeds).length ≤ 120000)) ∧
    (Nonempty (Pace session.pipe session.deviations) ↔
      ¬ ∃ worlds : Nat → ω, ∀ count, session.BusyAtOnce (worlds count) (worlds (count + 1))) ∧
    ((∀ world after, ¬ session.BusyAtOnce world after) →
      ∃ pace deeds result after, (session.awaitBlock pace).Performs before deeds result after ∧
        (exchanges deeds).length ≤ 120000) ∧
    (∀ work middle, session.StaysBusy before work middle →
      (session.cutOff.awaitBlock session.pipe.cutOffPace).Performs
        ⟨(before.world, work.length), before.clock⟩
        (work.flatMap (session.roundDeeds []) ++ [session.statusDeed (.error .disconnected) 0])
        (.error (.transfer .disconnected)) ⟨(middle.world, 0), middle.clock⟩ ∧
      middle.clock < before.clock + 120000 ∧
      (session.TakesTime before → work.length < 120000)) ∧
    ∃ deeds result after, session.awaitManifestation.Performs before deeds result after ∧
      session.EndsInTime [.sleep 1000] deeds result ∧ (exchanges deeds).length ≤ 120 := by
  have hstart : before.clock < before.clock + busyLimit := Nat.lt_add_of_pos_right (by decide)
  have hawaits : ∀ pace, ∃ deeds result after,
      (session.awaitBlock pace).Performs before deeds result after ∧
      session.EndsInTime [] deeds result ∧
      (session.TakesTime before → (exchanges deeds).length ≤ 120000) := by
    intro pace
    obtain ⟨deeds, result, after, hbusy⟩ := session.exists_busy pace before.clock before
    exact ⟨deeds, result, after, hbusy.awaitBlock_performs pace,
      hbusy.polls.endsInTime hbusy.requests rfl, fun htakes => htakes.exchanges_length hbusy⟩
  refine ⟨hawaits, session.nonempty_pace_iff, ?_, ?_, ?_⟩
  · intro hnever
    obtain ⟨pace⟩ := session.nonempty_pace_iff.mpr fun ⟨worlds, hbusy⟩ => hnever _ _ (hbusy 0)
    obtain ⟨deeds, result, after, hrun, -, hfew⟩ := hawaits pace
    exact ⟨pace, deeds, result, after, hrun, hfew (takesTime_of_never hnever before)⟩
  · intro work middle hstays
    exact ⟨hstays.cutOff_busy.awaitBlock_performs _, hstays.inTime hstart,
      fun htakes => htakes.length_lt hstays⟩
  · obtain ⟨deeds, result, after, hmanifesting⟩ := session.exists_manifesting before.clock before
    exact ⟨deeds, result, after, hmanifesting.awaitManifestation_performs,
      hmanifesting.polls.endsInTime hmanifesting.requests rfl, hmanifesting.exchanges_length⟩

/-- An answer of a busy device that asks for half a minute. -/
def halfMinute : Answer where
  bytes := ⟨#[0, 48, 117, 0, 4, 0]⟩
  delay := 0

/-- A device that is busy at every poll, and asks for half a minute each time. -/
def endlesslyBusy : Session Unit :=
  (default : Device Nat).session {
    route := .direct 0
    onOut := fun _ _ data _ => (⟨.ok data.size, 0⟩, ())
    onIn := fun _ _ _ _ => (⟨.ok halfMinute.bytes, halfMinute.delay⟩, ()) }

theorem endlesslyBusy_never_at_once (world after : Unit) :
    ¬ endlesslyBusy.BusyAtOnce world after := by
  rintro ⟨bytes, hanswer, -, hzero⟩
  cases hanswer
  contradiction

def endlesslyBusyPace : Pace endlesslyBusy.pipe endlesslyBusy.deviations where
  instants _ := 0
  instants_lt hanswer hbusy hzero :=
    absurd ⟨_, hanswer, hbusy, hzero⟩ (endlesslyBusy_never_at_once _ _)

/-- Such a device is given up when two minutes are over. -/
theorem polling_is_bounded_endlessly_busy :
    (∃ deeds after,
      (endlesslyBusy.awaitBlock endlesslyBusyPace).Performs ⟨(), 0⟩ deeds (.error .timeout) after ∧
      endlesslyBusy.EndsInTime [] deeds (.error .timeout : Except Fault StatusReply) ∧
      (exchanges deeds).length ≤ 120000) ∧
    (∃ pace deeds result after,
      (endlesslyBusy.awaitBlock pace).Performs ⟨(), 0⟩ deeds result after ∧
      (exchanges deeds).length ≤ 120000) ∧
    endlesslyBusy.StaysBusy ⟨(), 0⟩ [halfMinute] ⟨(), 30000⟩ ∧
    (endlesslyBusy.cutOff.awaitBlock endlesslyBusy.pipe.cutOffPace).Performs ⟨((), 1), 0⟩
      (endlesslyBusy.roundDeeds [] halfMinute ++
        [endlesslyBusy.statusDeed (.error .disconnected) 0])
      (.error (.transfer .disconnected)) ⟨((), 0), 30000⟩ := by
  obtain ⟨hawaits, -, hends, hrounds, -⟩ := polling_is_bounded endlesslyBusy ⟨(), 0⟩
  have hasked (clock : Nat) : endlesslyBusy.pipe.asked .getStatus 0 6 ⟨(), clock⟩ =
      (⟨.ok halfMinute.bytes, 0⟩, ⟨(), clock⟩) := rfl
  have hwaits : ¬ (endlesslyBusy.replyTo halfMinute.bytes).isSettled := by decide
  have hstays : endlesslyBusy.StaysBusy ⟨(), 0⟩ [halfMinute] ⟨(), 30000⟩ := by
    refine .again (hasked 0) hwaits ?_ ?_ (by decide) .here
    · rfl
    · rfl
  refine ⟨?_, hends endlesslyBusy_never_at_once, hstays, (hrounds _ _ hstays).1⟩
  -- The limit is reached with the fourth half of a minute.
  have hbusy : endlesslyBusy.Busy 0 ⟨(), 0⟩ _ (.error .timeout) ⟨(), 120000⟩ :=
    .again (hasked 0) hwaits (by decide) (.again (hasked 30000) hwaits (by decide)
      (.again (hasked 60000) hwaits (by decide) (.late (hasked 90000) hwaits (by decide))))
  obtain ⟨deeds, result, after, hrun, hinTime, hfew⟩ := hawaits endlesslyBusyPace
  obtain ⟨-, rfl, -⟩ := hrun.unique (hbusy.awaitBlock_performs endlesslyBusyPace)
  exact ⟨deeds, after, hrun, hinTime, hfew (takesTime_of_never endlesslyBusy_never_at_once _)⟩

end Session

end FirmwareUpgrade
