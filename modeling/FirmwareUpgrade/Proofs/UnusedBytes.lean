import FirmwareUpgrade.Proofs.MirroredTransfers

/-!
# Bytes of a status that nothing depends on

A host has no use for all six bytes of a status.  The index of a string is never looked up, and the
poll time of a device that is known to report a meaningless one is replaced by five milliseconds.
If two devices react alike except for such bytes, everything that is done with a session is the same
with both of them.
-/

namespace FirmwareUpgrade

variable {ω ω' α α' : Type}

/-! ## Devices that differ in unused bytes -/

/-- The answers to a request differ at most in bytes of a status that are not used. -/
inductive SameInUse (deviations : Deviations) : Request → ByteArray → ByteArray → Prop
  | same (request : Request) (bytes : ByteArray) : SameInUse deviations request bytes bytes
  | status {status poll0 poll1 poll2 poll0' poll1' poll2' state index index' : UInt8}
      (hpoll : deviations.fixedPollTime = false →
        poll0' = poll0 ∧ poll1' = poll1 ∧ poll2' = poll2) :
      SameInUse deviations .getStatus ⟨#[status, poll0, poll1, poll2, state, index]⟩
        ⟨#[status, poll0', poll1', poll2', state, index']⟩

theorem SameInUse.answersAgree {deviations : Deviations} {request : Request}
    {bytes bytes' : ByteArray} (hsame : SameInUse deviations request bytes bytes') :
    AnswersAgree deviations request bytes bytes' := by
  cases hsame with
  | same => exact answersAgree_self deviations request bytes
  | status hpoll =>
      refine ⟨rfl, ?_, rfl⟩
      cases hfixed : deviations.fixedPollTime with
      | true => simp [StatusReply.ofAnswer, StatusReply.decode, hfixed]
      | false =>
          obtain ⟨rfl, rfl, rfl⟩ := hpoll hfixed
          rfl

theorem ResultsAgree.mono {ε : Type} {same weaker : α → α' → Prop} {result : Except ε α}
    {result' : Except ε α'} (hagree : ResultsAgree same result result')
    (himplies : ∀ value value', same value value' → weaker value value') :
    ResultsAgree weaker result result' := by
  cases hagree with
  | ok hsame => exact .ok (himplies _ _ hsame)
  | error fault => exact .error fault

namespace ControlPipe

/-- The state of the attached world after something has been demanded of the device. -/
def afterDemand (pipe : ControlPipe ω) (world : ω) : Demand → ω
  | .send request value data => (pipe.onOut request value data world).2
  | .receive request value length => (pipe.onIn request value length world).2

/-- Whatever has been demanded of both devices before, they react alike to what is demanded next. -/
structure Resembles (pipe : ControlPipe ω) (pipe' : ControlPipe ω') (deviations : Deviations)
    (world : ω) (world' : ω') : Prop where
  onOut : ∀ (demanded : List Demand) request value data,
    (pipe'.onOut request value data (demanded.foldl pipe'.afterDemand world')).1 =
      (pipe.onOut request value data (demanded.foldl pipe.afterDemand world)).1
  onIn : ∀ (demanded : List Demand) request value length,
    (pipe.onIn request value length (demanded.foldl pipe.afterDemand world)).1.Agrees
      (SameInUse deviations request)
      (pipe'.onIn request value length (demanded.foldl pipe'.afterDemand world')).1

variable {pipe : ControlPipe ω} {pipe' : ControlPipe ω'} {deviations : Deviations} {world : ω}
  {world' : ω'}

theorem Resembles.afterDemand (hresembles : pipe.Resembles pipe' deviations world world')
    (demand : Demand) :
    pipe.Resembles pipe' deviations (pipe.afterDemand world demand)
      (pipe'.afterDemand world' demand) where
  onOut demanded := hresembles.onOut (demand :: demanded)
  onIn demanded := hresembles.onIn (demand :: demanded)

theorem resembles_mirrors (pipe : ControlPipe ω) (pipe' : ControlPipe ω')
    (deviations : Deviations) :
    pipe.Mirrors (pipe.Resembles pipe' deviations) deviations pipe' where
  onOut request value data world world' hresembles := by
    have hreaction := hresembles.onOut [] request value data
    refine ⟨⟨?_, congrArg Reaction.delay hreaction⟩,
      hresembles.afterDemand (.send request value data)⟩
    have hresult : (pipe'.onOut request value data world').1.result =
        (pipe.onOut request value data world).1.result := congrArg Reaction.result hreaction
    rw [hresult]
    cases (pipe.onOut request value data world).1.result with
    | ok count => exact .ok trivial
    | error error => exact .error error
  onIn request value length world world' hresembles := by
    obtain ⟨hresult, hdelay⟩ := hresembles.onIn [] request value length
    exact ⟨⟨hresult.mono fun _ _ hsame => hsame.answersAgree, hdelay⟩,
      hresembles.afterDemand (.receive request value length)⟩

end ControlPipe

/-- The same session with another device. -/
def Session.over (session : Session ω) (pipe' : ControlPipe ω') : Session ω' where
  pipe := pipe'
  alternate := session.alternate
  descriptor := session.descriptor
  packetSize := session.packetSize
  vendor := session.vendor
  product := session.product
  deviations := session.deviations

theorem Session.over_mirrors (session : Session ω) (pipe' : ControlPipe ω') :
    session.Mirrors (session.pipe.Resembles pipe' session.deviations) (session.over pipe') :=
  ⟨session.pipe.resembles_mirrors pipe' session.deviations, rfl, rfl, rfl⟩

/-! ## What the host sleeps for -/

def Event.sleep? : Event → Option Nat
  | .sleep milliseconds => some milliseconds
  | _ => none

def sleepTimes (events : List Event) : List Nat :=
  events.filterMap Event.sleep?

def Act.sleep? : Act → Option Nat
  | .demand _ _ => none
  | .host event => event.sleep?

theorem sleepTimes_eq (events : List Event) :
    sleepTimes events = (acts events).filterMap Act.sleep? := by
  rw [sleepTimes, acts, List.filterMap_filterMap]
  congr
  funext event
  cases event <;> rfl

@[simp]
theorem sleep?_uploaded (done limit : Nat) : (Event.uploaded done limit).sleep? = none := rfl

namespace Session

open Download

variable {session : Session ω}

@[simp]
theorem sleep?_statusDeed (answer : Except TransferError ByteArray) (delay : Nat) :
    (session.statusDeed answer delay).sleep? = none := rfl

@[simp]
theorem sleep?_orderDeed (request : Request) (value : UInt16) (data : ByteArray)
    (taken : Except TransferError Nat) (delay : Nat) :
    (session.orderDeed request value data taken delay).sleep? = none := rfl

@[simp]
theorem sleep?_blockDeed (block length : UInt16) (answer : Except TransferError ByteArray)
    (delay : Nat) : (session.blockDeed block length answer delay).sleep? = none := rfl

/-- The host sleeps only because of a status that it has just been given: for the poll time, and if
the work settles, after that for as long as a device that is at work is left alone. -/
def SleepsAsTold (session : Session ω) (settles : Prop) (events : List Event) : Prop :=
  ∀ earlier time later, events = earlier ++ .sleep time :: later →
    ∃ start bytes delay,
      (earlier = start ++ [session.statusDeed (.ok bytes) delay] ∧
        (session.replyTo bytes).sleeps = [.sleep time]) ∨
      (earlier = start ++ session.statusDeed (.ok bytes) delay :: (session.replyTo bytes).sleeps ∧
        settles ∧ time = settleTime ∧ isManifesting (session.replyTo bytes).state)

section Sleeps

variable {settles : Prop} {events first second : List Event}

theorem sleepsAsTold_of_none (hnone : ∀ event ∈ events, event.sleep? = none) :
    session.SleepsAsTold settles events := by
  rintro earlier time later rfl
  have hsleep := hnone (.sleep time) (List.mem_append_right earlier List.mem_cons_self)
  cases hsleep

theorem SleepsAsTold.append (hfirst : session.SleepsAsTold settles first)
    (hsecond : session.SleepsAsTold settles second) :
    session.SleepsAsTold settles (first ++ second) := by
  intro earlier time later hsplit
  rcases split_append hsplit with ⟨rest, hinside⟩ | ⟨rest, rfl, hinside⟩
  · exact hfirst earlier time rest hinside
  · obtain ⟨start, bytes, delay, ⟨rfl, htime⟩ | ⟨rfl, hsettles⟩⟩ :=
      hsecond rest time later hinside
    · exact ⟨first ++ start, bytes, delay, .inl ⟨(List.append_assoc ..).symm, htime⟩⟩
    · exact ⟨first ++ start, bytes, delay, .inr ⟨(List.append_assoc ..).symm, hsettles⟩⟩

theorem SleepsAsTold.cons {event : Event} (hevents : session.SleepsAsTold settles events)
    (hnone : event.sleep? = none) : session.SleepsAsTold settles (event :: events) := by
  rw [← List.singleton_append]
  exact (sleepsAsTold_of_none (by simpa using hnone)).append hevents

/-- A status and the wait that it asks for. -/
theorem sleepsAsTold_listening (bytes : ByteArray) (delay : Nat) :
    session.SleepsAsTold settles
      (session.statusDeed (.ok bytes) delay :: (session.replyTo bytes).sleeps) := by
  intro earlier time later hsplit
  refine ⟨[], bytes, delay, .inl ?_⟩
  by_cases hzero : (session.replyTo bytes).pollTime = 0
  · simp [StatusReply.sleeps, hzero, statusDeed, List.cons_eq_append_iff] at hsplit
  · simp only [StatusReply.sleeps, if_neg hzero, statusDeed] at hsplit ⊢
    cases earlier with
    | nil => simp at hsplit
    | cons head earlier =>
        obtain ⟨rfl, hrest⟩ := List.cons.inj hsplit
        cases earlier with
        | nil => simp_all
        | cons other earlier => simp at hrest

theorem sleepsAsTold_settling {bytes : ByteArray} (delay : Nat)
    (hwork : isManifesting (session.replyTo bytes).state) :
    session.SleepsAsTold True
      (session.statusDeed (.ok bytes) delay :: (session.replyTo bytes).sleeps ++
        [.sleep settleTime]) := by
  intro earlier time later hsplit
  rcases split_append hsplit with ⟨rest, hinside⟩ | ⟨rest, rfl, hinside⟩
  · exact sleepsAsTold_listening bytes delay earlier time rest hinside
  · obtain ⟨rfl, hlast⟩ := (List.append_eq_singleton_iff.mp hinside.symm).resolve_right (by simp)
    simp only [List.cons.injEq, Event.sleep.injEq] at hlast
    exact ⟨[], bytes, delay, .inr ⟨by simp, trivial, hlast.1, hwork⟩⟩

end Sleeps

section Courses

variable {settles : Prop} {before after : Moment ω} {deeds : List Event}

theorem Clearing.sleepsAsTold {reply : StatusReply} {result : Except Fault StatusReply}
    (hclearing : session.Clearing reply before deeds result after) :
    session.SleepsAsTold settles deeds := by
  cases hclearing with
  | unneeded => exact sleepsAsTold_of_none (by simp)
  | refused => exact sleepsAsTold_of_none (by simp)
  | unanswered => exact sleepsAsTold_of_none (by simp)
  | answered => exact (sleepsAsTold_listening _ _).cons rfl

theorem Settling.sleepsAsTold {polls : Nat} {last : State} {result : Except Fault StatusReply}
    (hsettling : session.Settling polls last before deeds result after) :
    session.SleepsAsTold settles deeds := by
  induction hsettling with
  | exhausted => exact sleepsAsTold_of_none (by simp)
  | lost => exact sleepsAsTold_of_none (by simp)
  | runtime => exact sleepsAsTold_listening _ _
  | idle hasked hremedy hclearing =>
      exact (sleepsAsTold_listening _ _).append hclearing.sleepsAsTold
  | ordered hasked hrequest htold hrest ih =>
      exact (sleepsAsTold_listening _ _).append (ih.cons rfl)
  | asked hasked hremedy hrest ih => exact (sleepsAsTold_listening _ _).append ih

theorem Cancelling.sleepsAsTold {result : Except Fault StatusReply}
    (hcancelling : session.Cancelling before deeds result after) :
    session.SleepsAsTold settles deeds := by
  cases hcancelling with
  | unsent => exact sleepsAsTold_of_none (by simp)
  | unconfirmed => exact sleepsAsTold_of_none (by simp)
  | ignored => exact sleepsAsTold_of_none (by simp)
  | cancelled => exact (sleepsAsTold_listening _ _).cons rfl

theorem Reading.sleepsAsTold {chunk bound position : Nat} {limit : Option Nat}
    {received : ByteArray} {result : Except Fault ByteArray}
    (hreading : session.Reading chunk limit bound position received before deeds result after) :
    session.SleepsAsTold settles deeds := by
  induction hreading with
  | failed => exact sleepsAsTold_of_none (by simp)
  | short => exact sleepsAsTold_of_none (by simp)
  | full hmore hasked hfull hrest ih => exact (ih.cons rfl).cons rfl
  | stuck hdone hcancelling => exact hcancelling.sleepsAsTold
  | complete hlimit hdone hcancelling => exact hcancelling.sleepsAsTold
  | tooLarge hlimit hdone hcancelling => exact hcancelling.sleepsAsTold

theorem Fetching.sleepsAsTold {chunk bound : Nat} {limit : Option Nat}
    {result : Except Fault ByteArray}
    (hfetching : session.Fetching chunk limit bound before deeds result after) :
    session.SleepsAsTold settles deeds := by
  cases hfetching with
  | unready hcancelling => exact hcancelling.sleepsAsTold
  | ready hcancelling hreading => exact hcancelling.sleepsAsTold.append hreading.sleepsAsTold

theorem Busy.sleepsAsTold {start : Nat} {result : Except Fault StatusReply}
    (hbusy : session.Busy start before deeds result after) :
    session.SleepsAsTold settles deeds := by
  induction hbusy with
  | lost => exact sleepsAsTold_of_none (by simp)
  | settled => exact sleepsAsTold_of_none (by simp)
  | late => exact sleepsAsTold_listening _ _
  | again hasked hsettled hinTime hrest ih => exact (sleepsAsTold_listening _ _).append ih

theorem Storing.sleepsAsTold {block : UInt16} {data : ByteArray} {result : Except Fault Unit}
    (hstoring : session.Storing block data before deeds result after) :
    session.SleepsAsTold settles deeds := by
  cases hstoring with
  | unsent => exact sleepsAsTold_of_none (by simp)
  | unsettled htold hbusy => exact hbusy.sleepsAsTold.cons rfl
  | refused htold hbusy hbad => exact hbusy.sleepsAsTold.cons rfl
  | stored htold hbusy hok => exact hbusy.sleepsAsTold.cons rfl

theorem Manifesting.sleepsAsTold {start : Nat} {result : Except Fault Unit}
    (hmanifesting : session.Manifesting start before deeds result after) :
    session.SleepsAsTold True deeds := by
  induction hmanifesting with
  | left => exact sleepsAsTold_of_none (by simp)
  | lost => exact sleepsAsTold_of_none (by simp)
  | concluded => exact sleepsAsTold_listening _ _
  | late hasked hwork => exact sleepsAsTold_settling _ hwork
  | again hasked hwork hnext hinTime hrest ih =>
      simpa using (sleepsAsTold_settling _ hwork).append ih

theorem Sending.sleepsAsTold {payload : ByteArray} {chunk position : Nat}
    {result : Except Fault Unit}
    (hsending : session.Sending payload chunk position before deeds result after) :
    session.SleepsAsTold True deeds := by
  induction hsending with
  | failed hinside hstoring => exact hstoring.sleepsAsTold
  | stored hinside hstoring hrest ih => exact hstoring.sleepsAsTold.append (ih.cons rfl)
  | endUnsent => exact sleepsAsTold_of_none (by simp)
  | ended houtside htold hmanifesting => exact hmanifesting.sleepsAsTold.cons rfl

end Courses

/-! ## Fixed sleeps -/

/-- Each sleep is due to a status of six bytes.  It is one of five milliseconds right after the
status, or if the work settles and the device is at work, one of a second after that. -/
def FixedSleeps (settles : Prop) (events : List Event) : Prop :=
  ∀ earlier time later, events = earlier ++ .sleep time :: later →
    ∃ start route bytes delay, bytes.size = 6 ∧
      ((time = 5 ∧
          earlier = start ++ [.exchange route (.receive .getStatus 0 6 (.ok bytes)) delay]) ∨
        (time = 1000 ∧ settles ∧ isManifesting (reportOf bytes).2 ∧
          earlier = start ++
            [.exchange route (.receive .getStatus 0 6 (.ok bytes)) delay, .sleep 5]))

/-- With a fixed poll time an answer either has six bytes and a wait of five milliseconds, or it
cannot be read. -/
theorem replyTo_of_fixedPollTime (hfixed : session.deviations.fixedPollTime) (bytes : ByteArray) :
    bytes.size = 6 ∧ (session.replyTo bytes).sleeps = [.sleep 5] ∨
      session.replyTo bytes = .unreadable := by
  obtain ⟨⟨list⟩⟩ := bytes
  unfold replyTo StatusReply.ofAnswer
  rcases list with
    _ | ⟨_, _ | ⟨_, _ | ⟨_, _ | ⟨_, _ | ⟨_, _ | ⟨_, _ | ⟨_, _⟩⟩⟩⟩⟩⟩⟩
  case cons.cons.cons.cons.cons.cons.nil =>
    left
    simp [StatusReply.decode, StatusReply.sleeps, StatusReply.fixedPollTime, hfixed,
      ByteArray.size]
  all_goals exact .inr rfl

theorem SleepsAsTold.fixedSleeps {settles : Prop} {events : List Event}
    (hevents : session.SleepsAsTold settles events) (hfixed : session.deviations.fixedPollTime) :
    FixedSleeps settles events := by
  intro earlier time later hsplit
  obtain ⟨start, bytes, delay, ⟨hearlier, htime⟩ | ⟨hearlier, hsettles, htime, hwork⟩⟩ :=
    hevents earlier time later hsplit
  · rcases session.replyTo_of_fixedPollTime hfixed bytes with ⟨hsize, hfive⟩ | hunreadable
    · rw [hfive] at htime
      simp only [List.cons.injEq, Event.sleep.injEq, and_true] at htime
      exact ⟨start, _, bytes, delay, hsize, .inl ⟨htime.symm, hearlier⟩⟩
    · rw [hunreadable] at htime
      cases htime
  · rcases session.replyTo_of_fixedPollTime hfixed bytes with ⟨hsize, hfive⟩ | hunreadable
    · rw [hfive] at hearlier
      rw [session.replyTo_state] at hwork
      exact ⟨start, _, bytes, delay, hsize, .inr ⟨htime, hsettles, hwork, hearlier⟩⟩
    · rw [hunreadable] at hwork
      cases hwork

/-! ## Both devices are treated alike -/

/-- Both actions demand the same, sleep and report the same, in the same order and at the same
times, and end alike.  If the poll time is fixed, so are the sleeps. -/
def RunsAlike (session : Session ω) (settles : Prop) (same : α → α' → Prop) (first : Action ω α)
    (second : Action ω' α') (before : Moment ω) (before' : Moment ω') : Prop :=
  ∃ deeds deeds' result result' after after',
    first.Performs before deeds result after ∧ second.Performs before' deeds' result' after' ∧
    demands deeds' = demands deeds ∧ sleepTimes deeds' = sleepTimes deeds ∧
    progressReports deeds' = progressReports deeds ∧ acts deeds' = acts deeds ∧
    after'.clock = after.clock ∧ ResultsAgree same result result' ∧
    (session.deviations.fixedPollTime → FixedSleeps settles deeds)

theorem runsAlike_of_agree {related : ω → ω' → Prop} {settles : Prop} {same : α → α' → Prop}
    {first : Action ω α} {second : Action ω' α'} {before : Moment ω} {before' : Moment ω'}
    (hagree : Action.Agree related same first second before before')
    (hsleeps : ∃ deeds result after,
      first.Performs before deeds result after ∧ session.SleepsAsTold settles deeds) :
    session.RunsAlike settles same first second before before' := by
  obtain ⟨deeds, result, after, hrun, hsleeps⟩ := hsleeps
  cases hagree with
  | intro hfirst hsecond hacts hresult hafter =>
      obtain ⟨rfl, rfl, rfl⟩ := hrun.unique hfirst
      refine ⟨_, _, _, _, _, _, hrun, hsecond, ?_, ?_, ?_, hacts, hafter.clock, hresult,
        hsleeps.fixedSleeps⟩
      · rw [demands_eq, hacts, ← demands_eq]
      · rw [sleepTimes_eq, hacts, ← sleepTimes_eq]
      · rw [progressReports_eq, hacts, ← progressReports_eq]

theorem downloadPayload_sleepsAsTold (session : Session ω)
    (pace : Pace session.pipe session.deviations) (chunk : UInt16) (payload : ByteArray)
    (before : Moment ω) :
    ∃ deeds result after, (session.downloadPayload pace chunk payload).Performs before deeds result
      after ∧ session.SleepsAsTold True deeds := by
  by_cases positive : 0 < chunk.toNat
  · obtain ⟨deeds, result, after, hsending, hrun⟩ :=
      session.downloadPayload_performs pace positive payload before
    exact ⟨_, _, _, hrun, hsending.sleepsAsTold.cons rfl⟩
  · exact ⟨_, _, _, session.downloadPayload_refused pace positive payload before,
      sleepsAsTold_of_none (by simp)⟩

theorem uploadFirmware_sleepsAsTold (session : Session ω) (chunk : UInt16) (limit : Option Nat)
    (before : Moment ω) :
    ∃ deeds result after, (session.uploadFirmware chunk limit).Performs before deeds result after ∧
      session.SleepsAsTold False deeds := by
  by_cases positive : 0 < chunk.toNat
  · obtain ⟨deeds, result, after, hfetching, hrun⟩ :=
      session.uploadWithin_performs Upload.sizeBound positive limit before
    exact ⟨_, _, _, hrun, hfetching.sleepsAsTold⟩
  · exact ⟨_, _, _, session.uploadWithin_refused Upload.sizeBound positive limit before,
      sleepsAsTold_of_none (by simp)⟩

/-- Whatever is done with a session is the same with two devices that differ in unused bytes. -/
theorem unused_bytes_have_no_influence (session : Session ω) (pipe' : ControlPipe ω')
    (before : Moment ω) (before' : Moment ω')
    (hresembles : session.pipe.Resembles pipe' session.deviations before.world before'.world)
    (hclock : before'.clock = before.clock) :
    let session' := session.over pipe'
    session.RunsAlike False StatusReply.Agrees session.reachIdle session'.reachIdle before before' ∧
    session.RunsAlike False StatusReply.Agrees session.cancelTransfer session'.cancelTransfer before
      before' ∧
    (∀ pace pace' chunk payload, session.RunsAlike True Eq
      (session.downloadPayload pace chunk payload) (session'.downloadPayload pace' chunk payload)
      before before') ∧
    ∀ chunk limit, session.RunsAlike False Eq (session.uploadFirmware chunk limit)
      (session'.uploadFirmware chunk limit) before before' := by
  intro session'
  have hsession := session.over_mirrors pipe'
  have hbefore : before.Agrees (session.pipe.Resembles pipe' session.deviations) before' :=
    ⟨hresembles, hclock⟩
  refine ⟨runsAlike_of_agree (reachIdle_mirrors hsession hbefore) ?_,
    runsAlike_of_agree (cancelTransfer_mirrors hsession hbefore) ?_,
    fun pace pace' chunk payload => ?_, fun chunk limit => ?_⟩
  · obtain ⟨deeds, result, after, hsettling, hrun⟩ :=
      session.settle_performs readinessPolls (.unknown 0xFF) before
    exact ⟨deeds, result, after, hrun, hsettling.sleepsAsTold⟩
  · obtain ⟨deeds, result, after, hcancelling, hrun⟩ := session.cancelTransfer_performs before
    exact ⟨deeds, result, after, hrun, hcancelling.sleepsAsTold⟩
  · exact runsAlike_of_agree (downloadPayload_mirrors hsession pace pace' chunk payload hbefore)
      (session.downloadPayload_sleepsAsTold pace chunk payload before)
  · exact runsAlike_of_agree (uploadWithin_mirrors hsession _ chunk limit hbefore)
      (session.uploadFirmware_sleepsAsTold chunk limit before)

/-- A device that is idle, takes everything and answers each request for its status alike. -/
def idleDevice (status : ByteArray) : ControlPipe Unit where
  route := .direct 0
  onOut _ _ data _ := (⟨.ok data.size, 1⟩, ())
  onIn request _ _ _ := (⟨.ok (if request = .getStatus then status else .empty), 1⟩, ())

/-- Two devices with a meaningless poll time report different ones, and different strings. -/
theorem unused_bytes_have_no_influence_idle :
    let device : Device Nat := { (default : Device Nat) with vendor := 0x1d50, product := 0x5119 }
    let session := device.session (idleDevice ⟨#[0, 1, 2, 3, 2, 4]⟩)
    let pipe' := idleDevice ⟨#[0, 5, 6, 7, 2, 8]⟩
    session.pipe.Resembles pipe' session.deviations () () ∧
      session.RunsAlike False StatusReply.Agrees session.reachIdle (session.over pipe').reachIdle
        ⟨(), 0⟩ ⟨(), 0⟩ := by
  intro device session pipe'
  have hfixed : session.deviations.fixedPollTime ≠ false := by decide
  have hresembles : session.pipe.Resembles pipe' session.deviations () () := by
    refine ⟨fun _ _ _ _ => rfl, fun _ request _ _ => ⟨.ok ?_, rfl⟩⟩
    cases request with
    | getStatus => exact .status fun hfalse => absurd hfalse hfixed
    | _ => exact .same _ _
  obtain ⟨hready, -⟩ := unused_bytes_have_no_influence session pipe' ⟨(), 0⟩ ⟨(), 0⟩ hresembles rfl
  exact ⟨hresembles, hready⟩

end Session

end FirmwareUpgrade
