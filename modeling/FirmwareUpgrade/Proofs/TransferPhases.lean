import FirmwareUpgrade.Proofs.FlashReports
import FirmwareUpgrade.Proofs.ReadyDevice

/-!
# The phases of a transfer

Before firmware is transferred, in either direction, a device is chosen, accepted, opened and
brought to its idle state, and a block size is settled on.  `Hindered` lists the ways in which a
transfer can end before that, `Transferring` adds the transfer itself.  Every flash and every upload
takes one of these courses.  What an action performs is determined by the moment at which it starts,
so whatever prepared device is found in the events of a transfer is the one that it works with.
-/

namespace FirmwareUpgrade

variable {ω H α : Type}

/-! ## Block sizes -/

/-- The size that is wished for: the requested one if it is set and not zero, else the one of the
descriptor. -/
def wishedSize (descriptorSize : UInt16) (requested : Option UInt16) : Nat :=
  match requested with
  | some size => if size.toNat = 0 then descriptorSize.toNat else size.toNat
  | none => descriptorSize.toNat

theorem wishedSize_eq (descriptorSize : UInt16) (requested : Option UInt16) :
    wishedSize descriptorSize requested =
      (if requested.getD 0 = 0 then descriptorSize else requested.getD 0).toNat := by
  have hzero (size : UInt16) : size.toNat = 0 ↔ size = 0 := UInt16.toNat_inj (b := 0)
  cases requested with
  | none => rfl
  | some size =>
      simp only [wishedSize, Option.getD_some, hzero]
      split <;> rfl

theorem toNat_max_packetSize (size : UInt16) (packetSize : UInt8) :
    (max size packetSize.toUInt16).toNat = max size.toNat packetSize.toNat := by
  have hle : size ≤ packetSize.toUInt16 ↔ size.toNat ≤ packetSize.toNat := by
    rw [UInt16.le_iff_toNat_le, UInt8.toNat_toUInt16]
  change (if size ≤ packetSize.toUInt16 then packetSize.toUInt16 else size).toNat = _
  by_cases hsmall : size.toNat ≤ packetSize.toNat
  · rw [if_pos (hle.mpr hsmall), UInt8.toNat_toUInt16, Nat.max_eq_right hsmall]
  · rw [if_neg fun h => hsmall (hle.mp h), Nat.max_eq_left (Nat.le_of_not_le hsmall)]

/-- Either no size is wished for, or it is raised to the size of a packet. -/
theorem blockSize_cases (descriptorSize : UInt16) (requested : Option UInt16)
    (packetSize : UInt8) :
    (wishedSize descriptorSize requested = 0 ∧
      blockSize descriptorSize requested packetSize = .error .transferSizeUnknown) ∨
    (wishedSize descriptorSize requested ≠ 0 ∧ ∃ chunk,
      blockSize descriptorSize requested packetSize = .ok chunk ∧
      chunk.toNat = max (wishedSize descriptorSize requested) packetSize.toNat) := by
  rw [wishedSize_eq]
  simp only [blockSize]
  generalize (if requested.getD 0 = 0 then descriptorSize else requested.getD 0) = size
  by_cases hzero : size = 0
  · subst hzero
    exact .inl ⟨rfl, rfl⟩
  · have hpositive : size.toNat ≠ 0 := fun h => hzero (UInt16.toNat_inj.mp h)
    rw [if_neg hzero]
    exact .inr ⟨hpositive, _, rfl, toNat_max_packetSize size packetSize⟩

/-! ## The phases -/

/-- A download whose faults are marked as those of a download. -/
inductive Session.Delivering (payload : ByteArray) (chunk : UInt16) (session : Session ω) :
    Moment ω → List Event → Except Fault Unit → Moment ω → Prop
  | sent {before after deeds result}
      (hsending : session.Sending payload chunk.toNat 0 before deeds result after) :
      Delivering payload chunk session before (.downloaded 0 payload.size :: deeds)
        (result.mapError .download) after

theorem Session.settling_of_performs {session : Session ω} {before after : Moment ω}
    {deeds : List Event} {result : Except Fault StatusReply}
    (hready : session.reachIdle.Performs before deeds result after) :
    session.Settling readinessPolls (.unknown 0xFF) before deeds result after := by
  obtain ⟨deeds', result', after', hsettling, hrun⟩ :=
    session.settle_performs readinessPolls (.unknown 0xFF) before
  obtain ⟨rfl, rfl, rfl⟩ := hrun.unique hready
  exact hsettling

namespace Programmer

def sizeFor (programmer : Programmer ω H) (device : Device H) : Except Fault UInt16 :=
  blockSize device.descriptor.transferSize programmer.options.transferSize device.packetSize

def wishedFor (programmer : Programmer ω H) (device : Device H) : Nat :=
  wishedSize device.descriptor.transferSize programmer.options.transferSize

theorem sizeFor_eq_error {programmer : Programmer ω H} {device : Device H} {fault : Fault}
    (hsize : programmer.sizeFor device = .error fault) :
    programmer.wishedFor device = 0 ∧ fault = .transferSizeUnknown := by
  rcases blockSize_cases device.descriptor.transferSize programmer.options.transferSize
    device.packetSize with ⟨hzero, hnone⟩ | ⟨-, chunk, hchunk, -⟩
  · cases hnone.symm.trans hsize
    exact ⟨hzero, rfl⟩
  · cases hchunk.symm.trans hsize

theorem sizeFor_eq_ok {programmer : Programmer ω H} {device : Device H} {chunk : UInt16}
    (hsize : programmer.sizeFor device = .ok chunk) :
    programmer.wishedFor device ≠ 0 ∧
      chunk.toNat = max (programmer.wishedFor device) device.packetSize.toNat := by
  rcases blockSize_cases device.descriptor.transferSize programmer.options.transferSize
    device.packetSize with ⟨-, hnone⟩ | ⟨hpositive, chunk, hchunk, heq⟩
  · cases hnone.symm.trans hsize
  · cases hchunk.symm.trans hsize
    exact ⟨hpositive, heq⟩

/-- A device that the verdict accepts is chosen, opened and brought to its idle state. -/
inductive Prepares (programmer : Programmer ω H) (criteria : Criteria)
    (verdict : Device H → Except Fault Unit) (before : Moment ω) (device : Device H) :
    Session ω → List Event → Moment ω → Prop
  | prepared {surveyed start ready survey opening recovery opened reply}
      (hchoose : (programmer.access.choose criteria).Performs before survey (.ok device) surveyed)
      (hverdict : verdict device = .ok ())
      (hconnect : (programmer.access.connect device).Performs surveyed opening (.ok opened) start)
      (hready : (device.session opened.pipe).reachIdle.Performs start recovery (.ok reply) ready) :
      Prepares programmer criteria verdict before device (device.session opened.pipe)
        (survey ++ (opening ++ recovery)) ready

/-- The transfer ends with the fault before any block is asked for or sent. -/
inductive Hindered (programmer : Programmer ω H) (criteria : Criteria)
    (verdict : Device H → Except Fault Unit) :
    Moment ω → List Event → Fault → Moment ω → Prop
  | unchosen {before after survey fault}
      (hchoose : (programmer.access.choose criteria).Performs before survey (.error fault) after) :
      Hindered programmer criteria verdict before survey fault after
  | refused {before after survey device fault}
      (hchoose : (programmer.access.choose criteria).Performs before survey (.ok device) after)
      (hverdict : verdict device = .error fault) :
      Hindered programmer criteria verdict before survey fault after
  | unopened {before surveyed after survey opening device fault}
      (hchoose : (programmer.access.choose criteria).Performs before survey (.ok device) surveyed)
      (hverdict : verdict device = .ok ())
      (hconnect : (programmer.access.connect device).Performs surveyed opening (.error fault)
        after) :
      Hindered programmer criteria verdict before (survey ++ opening) fault after
  | unready {before surveyed start after survey opening recovery device opened fault}
      (hchoose : (programmer.access.choose criteria).Performs before survey (.ok device) surveyed)
      (hverdict : verdict device = .ok ())
      (hconnect : (programmer.access.connect device).Performs surveyed opening (.ok opened) start)
      (hready : (device.session opened.pipe).reachIdle.Performs start recovery (.error fault)
        after) :
      Hindered programmer criteria verdict before
        (survey ++ (opening ++ (recovery ++ programmer.access.parting device))) fault
        ((programmer.access.parting device).foldl Moment.pass after)
  | sizeless {before after prepared device session fault}
      (hprepares : programmer.Prepares criteria verdict before device session prepared after)
      (hsize : programmer.sizeFor device = .error fault) :
      Hindered programmer criteria verdict before (prepared ++ programmer.access.parting device)
        fault ((programmer.access.parting device).foldl Moment.pass after)

inductive Transferring (programmer : Programmer ω H) (criteria : Criteria)
    (verdict : Device H → Except Fault Unit) (courses : UInt16 → Session.Courses ω α) :
    Moment ω → List Event → Except Fault α → Moment ω → Prop
  | hindered {before after deeds fault}
      (hhindered : programmer.Hindered criteria verdict before deeds fault after) :
      Transferring programmer criteria verdict courses before deeds (.error fault) after
  | transferred {before ready after prepared device session chunk deeds result}
      (hprepares : programmer.Prepares criteria verdict before device session prepared ready)
      (hsize : programmer.sizeFor device = .ok chunk)
      (hcourse : courses chunk session ready deeds result after) :
      Transferring programmer criteria verdict courses before
        (prepared ++ (deeds ++ programmer.access.parting device)) result
        ((programmer.access.parting device).foldl Moment.pass after)

abbrev Uploading (programmer : Programmer ω H) (limit : Option Nat) :
    Moment ω → List Event → Except Fault ByteArray → Moment ω → Prop :=
  programmer.Transferring programmer.options.criteria (fun _ => .ok ()) fun chunk session =>
    session.Fetching chunk.toNat limit Upload.sizeBound

/-! ## Every operation takes one of these courses -/

/-- Works with an opened device once it is idle, in blocks of the size that is settled on. -/
def onceIdle (programmer : Programmer ω H)
    (work : UInt16 → (session : Session ω) → Pace session.pipe → Action ω α)
    (session : Session ω) (pace : Pace session.pipe) : Action ω α := do
  let _ ← session.reachIdle
  let chunk ← programmer.chunkSize session
  work chunk session pace

def withReady (programmer : Programmer ω H) (criteria : Criteria)
    (verdict : Device H → Except Fault Unit)
    (work : UInt16 → (session : Session ω) → Pace session.pipe → Action ω α) : Action ω α := do
  let device ← programmer.access.choose criteria
  Action.ofExcept (verdict device)
  programmer.access.withSession device (programmer.onceIdle work)

/-- What a flash does with a device that is ready. -/
def deliver (_ : Programmer ω H) (image : Image) (chunk : UInt16) (session : Session ω)
    (pace : Pace session.pipe) : Action ω Unit := do
  Action.note (.downloading image.payload.size chunk)
  (session.downloadPayload pace chunk image.payload).mapFault .download

theorem flash_of_ready {programmer : Programmer ω H} {file : ByteArray} {image : Image}
    {before after : Moment ω} {deeds : List Event} {result : Except Fault Unit}
    (hload : Image.load programmer.options.suffixUse file = .ok image)
    (hready : (programmer.withReady (programmer.criteriaFor image) image.checkDevice
      (programmer.deliver image)).Performs before deeds result after) :
    (programmer.flash file).Performs before (.started :: (deeds ++ [.finished result.isOk])) result
      after := by
  have hinspect := Image.inspect_performs programmer.options.suffixUse file before
  rw [hload] at hinspect
  exact flash_performs (hinspect.bind hready)

section Courses

variable {programmer : Programmer ω H} (hdiscreet : programmer.access.Discreet)
  {criteria : Criteria} {verdict : Device H → Except Fault Unit}
  {work : UInt16 → (session : Session ω) → Pace session.pipe → Action ω α}

theorem judge_performs {device : Device H} {judged : Except Fault Unit}
    (hverdict : verdict device = judged) (moment : Moment ω) :
    (Action.ofExcept (verdict device) : Action ω Unit).Performs moment [] judged moment :=
  hverdict ▸ Action.performs_ofExcept _ moment

theorem sizeFor_performs {device : Device H} {size : Except Fault UInt16}
    (hsize : programmer.sizeFor device = size) (pipe : ControlPipe ω) (moment : Moment ω) :
    (programmer.chunkSize (device.session pipe)).Performs moment [] size moment :=
  hsize ▸ programmer.chunkSize_performs (device.session pipe) moment

include hdiscreet

theorem withReady_opened {before surveyed start after : Moment ω}
    {survey opening deeds : List Event} {device : Device H} {opened : PacedPipe ω}
    {result : Except Fault α}
    (hchoose : (programmer.access.choose criteria).Performs before survey (.ok device) surveyed)
    (hverdict : verdict device = .ok ())
    (hconnect : (programmer.access.connect device).Performs surveyed opening (.ok opened) start)
    (hidle : (programmer.onceIdle work (device.session opened.pipe) opened.pace).Performs start
      deeds result after) :
    (programmer.withReady criteria verdict work).Performs before
      (survey ++ (opening ++ (deeds ++ programmer.access.parting device))) result
      ((programmer.access.parting device).foldl Moment.pass after) :=
  hchoose.bind ((judge_performs hverdict surveyed).bind
    (Access.withSession_performs (hdiscreet.parting_isDeed device) hconnect hidle))

/-- Whatever hinders a transfer is its fault, whichever work was to be done. -/
theorem Hindered.performs {before after : Moment ω} {deeds : List Event} {fault : Fault}
    (hhindered : programmer.Hindered criteria verdict before deeds fault after) :
    (programmer.withReady criteria verdict work).Performs before deeds (.error fault) after := by
  cases hhindered with
  | unchosen hchoose => exact hchoose.bind_error
  | refused hchoose hverdict =>
      exact hchoose.bind_silent (judge_performs hverdict _).bind_error
  | unopened hchoose hverdict hconnect =>
      exact hchoose.bind
        ((judge_performs hverdict _).bind (Access.withSession_unopened hconnect))
  | unready hchoose hverdict hconnect hready =>
      exact withReady_opened hdiscreet hchoose hverdict hconnect hready.bind_error
  | sizeless hprepares hsize =>
      cases hprepares with
      | @prepared _ _ _ _ _ _ opened _ hchoose hverdict hconnect hready =>
          have hidle : (programmer.onceIdle work _ opened.pace).Performs _ _ (.error fault) _ :=
            hready.bind_silent (sizeFor_performs hsize opened.pipe _).bind_error
          simpa only [List.append_assoc] using
            withReady_opened hdiscreet hchoose hverdict hconnect hidle

/-- With an opened device the transfer goes on, unless it cannot be made ready or no block size is
known. -/
theorem withReady_goes_on {courses : UInt16 → Session.Courses ω α}
    (hwork : ∀ chunk session pace before, 0 < chunk.toNat → ∃ deeds result after,
      courses chunk session before deeds result after ∧
        (work chunk session pace).Performs before deeds result after)
    {before surveyed start : Moment ω} {survey opening : List Event} {device : Device H}
    {opened : PacedPipe ω}
    (hchoose : (programmer.access.choose criteria).Performs before survey (.ok device) surveyed)
    (hverdict : verdict device = .ok ())
    (hconnect : (programmer.access.connect device).Performs surveyed opening (.ok opened) start) :
    ∃ deeds result after,
      programmer.Transferring criteria verdict courses before deeds result after ∧
      (programmer.withReady criteria verdict work).Performs before deeds result after := by
  let session := device.session opened.pipe
  obtain ⟨recovery, idle, ready, -, hready⟩ :=
    session.settle_performs Session.readinessPolls (.unknown 0xFF) start
  cases idle with
  | error fault =>
      have hhindered := Hindered.unready hchoose hverdict hconnect hready
      exact ⟨_, _, _, .hindered hhindered, hhindered.performs hdiscreet⟩
  | ok reply =>
      have hprepares := Prepares.prepared hchoose hverdict hconnect hready
      cases hsize : programmer.sizeFor device with
      | error fault =>
          have hhindered := Hindered.sizeless hprepares hsize
          exact ⟨_, _, _, .hindered hhindered, hhindered.performs hdiscreet⟩
      | ok chunk =>
          obtain ⟨deeds, result, after, hcourse, hrun⟩ :=
            hwork chunk session opened.pace ready (blockSize_pos hsize)
          have hfound := sizeFor_performs hsize opened.pipe ready
          have hidle : (programmer.onceIdle work session opened.pace).Performs start
              (recovery ++ deeds) result after := hready.bind (hfound.bind hrun)
          refine ⟨_, result, _, .transferred hprepares hsize hcourse, ?_⟩
          simpa only [List.append_assoc] using
            withReady_opened hdiscreet hchoose hverdict hconnect hidle

theorem withReady_performs {courses : UInt16 → Session.Courses ω α}
    (hwork : ∀ chunk session pace before, 0 < chunk.toNat → ∃ deeds result after,
      courses chunk session before deeds result after ∧
        (work chunk session pace).Performs before deeds result after) (before : Moment ω) :
    ∃ deeds result after,
      programmer.Transferring criteria verdict courses before deeds result after ∧
      (programmer.withReady criteria verdict work).Performs before deeds result after := by
  obtain ⟨survey, chosen, surveyed, hchoose, -⟩ := hdiscreet.choose criteria before
  cases chosen with
  | error fault =>
      have hhindered : programmer.Hindered criteria verdict before survey fault surveyed :=
        .unchosen hchoose
      exact ⟨_, _, _, .hindered hhindered, hhindered.performs hdiscreet⟩
  | ok device =>
      cases hverdict : verdict device with
      | error fault =>
          have hhindered := Hindered.refused hchoose hverdict
          exact ⟨_, _, _, .hindered hhindered, hhindered.performs hdiscreet⟩
      | ok accepted =>
          obtain ⟨opening, connected, start, hconnect, -⟩ := hdiscreet.connect device surveyed
          cases connected with
          | error fault =>
              have hhindered := Hindered.unopened hchoose hverdict hconnect
              exact ⟨_, _, _, .hindered hhindered, hhindered.performs hdiscreet⟩
          | ok opened => exact withReady_goes_on hdiscreet hwork hchoose hverdict hconnect

theorem upload_takes_course (limit : Option Nat) (before : Moment ω) :
    ∃ deeds result after, programmer.Uploading limit before deeds result after ∧
      (programmer.upload limit).Performs before deeds result after :=
  withReady_performs hdiscreet
    (fun _ session _ before positive =>
      session.uploadWithin_performs Upload.sizeBound positive limit before) before

theorem flash_takes_course {file : ByteArray} {image : Image}
    (hload : Image.load programmer.options.suffixUse file = .ok image) (before : Moment ω) :
    ∃ deeds result after,
      programmer.Transferring (programmer.criteriaFor image) image.checkDevice
        (Session.Delivering image.payload) before deeds result after ∧
      (programmer.flash file).Performs before (.started :: (deeds ++ [.finished result.isOk]))
        result after := by
  have hdelivery : ∀ (chunk : UInt16) (session : Session ω) (pace : Pace session.pipe)
      (before : Moment ω), 0 < chunk.toNat → ∃ deeds result after,
      Session.Delivering image.payload chunk session before deeds result after ∧
      (programmer.deliver image chunk session pace).Performs before deeds result after := by
    intro chunk session pace before positive
    obtain ⟨deeds, result, after, hsending, hrun⟩ :=
      session.downloadPayload_performs pace positive image.payload before
    exact ⟨_, _, _, .sent hsending, .after_note (hrun.mapFault .download)⟩
  obtain ⟨deeds, result, after, htransferring, hrun⟩ := withReady_performs hdiscreet
    hdelivery before
  exact ⟨deeds, result, after, htransferring, flash_of_ready hload hrun⟩

end Courses

/-! ## Prepared devices -/

section Prepared

variable {programmer : Programmer ω H} {criteria : Criteria}
  {verdict : Device H → Except Fault Unit} {before ready after : Moment ω} {device : Device H}
  {session : Session ω} {prepared deeds : List Event}

/-- From one moment only one device can be prepared, and only in one way. -/
theorem Prepares.unique {device' : Device H} {session' : Session ω} {prepared' : List Event}
    {ready' : Moment ω}
    (hfirst : programmer.Prepares criteria verdict before device session prepared ready)
    (hsecond : programmer.Prepares criteria verdict before device' session' prepared' ready') :
    device' = device ∧ session' = session ∧ prepared' = prepared ∧ ready' = ready := by
  cases hfirst with
  | prepared hchoose hverdict hconnect hready =>
      cases hsecond with
      | prepared hchoose' hverdict' hconnect' hready' =>
          obtain ⟨rfl, hdevice, rfl⟩ := hchoose.unique hchoose'
          cases hdevice
          obtain ⟨rfl, hopened, rfl⟩ := hconnect.unique hconnect'
          cases hopened
          obtain ⟨rfl, -, rfl⟩ := hready.unique hready'
          exact ⟨rfl, rfl, rfl, rfl⟩

/-- Once a device is prepared, only the missing block size can still hinder the transfer. -/
theorem Hindered.of_prepares {fault : Fault}
    (hhindered : programmer.Hindered criteria verdict before deeds fault after)
    (hprepares : programmer.Prepares criteria verdict before device session prepared ready) :
    programmer.sizeFor device = .error fault ∧
      deeds = prepared ++ programmer.access.parting device := by
  cases hhindered with
  | sizeless hprepares' hsize =>
      obtain ⟨rfl, rfl, rfl, rfl⟩ := hprepares.unique hprepares'
      exact ⟨hsize, rfl⟩
  | unchosen hchoose' =>
      cases hprepares with
      | prepared hchoose =>
          obtain ⟨-, hchosen, -⟩ := hchoose.unique hchoose'
          cases hchosen
  | refused hchoose' hverdict' =>
      cases hprepares with
      | prepared hchoose hverdict =>
          obtain ⟨-, hdevice, -⟩ := hchoose.unique hchoose'
          cases hdevice
          rw [hverdict] at hverdict'
          cases hverdict'
  | unopened hchoose' hverdict' hconnect' =>
      cases hprepares with
      | prepared hchoose hverdict hconnect =>
          obtain ⟨rfl, hdevice, rfl⟩ := hchoose.unique hchoose'
          cases hdevice
          obtain ⟨-, hopened, -⟩ := hconnect.unique hconnect'
          cases hopened
  | unready hchoose' hverdict' hconnect' hready' =>
      cases hprepares with
      | prepared hchoose hverdict hconnect hready =>
          obtain ⟨rfl, hdevice, rfl⟩ := hchoose.unique hchoose'
          cases hdevice
          obtain ⟨rfl, hopened, rfl⟩ := hconnect.unique hconnect'
          cases hopened
          obtain ⟨-, hreply, -⟩ := hready.unique hready'
          cases hreply

/-- A transfer goes on with the device that has been prepared, unless it has no block size. -/
theorem Transferring.of_prepares {courses : UInt16 → Session.Courses ω α} {result : Except Fault α}
    (htransferring : programmer.Transferring criteria verdict courses before deeds result after)
    (hprepares : programmer.Prepares criteria verdict before device session prepared ready) :
    (∃ fault, programmer.sizeFor device = .error fault ∧ result = .error fault ∧
      deeds = prepared ++ programmer.access.parting device) ∨
    ∃ chunk work done, programmer.sizeFor device = .ok chunk ∧
      courses chunk session ready work result done ∧
      deeds = prepared ++ (work ++ programmer.access.parting device) := by
  cases htransferring with
  | hindered hhindered =>
      obtain ⟨hsize, hdeeds⟩ := hhindered.of_prepares hprepares
      exact .inl ⟨_, hsize, rfl, hdeeds⟩
  | transferred hprepares' hsize hcourse =>
      obtain ⟨rfl, rfl, rfl, rfl⟩ := hprepares.unique hprepares'
      exact .inr ⟨_, _, _, hsize, hcourse, rfl⟩

end Prepared

/-! ## The requests before a transfer -/

section Requests

variable {programmer : Programmer ω H} {criteria : Criteria}
  {verdict : Device H → Except Fault Unit} {before after : Moment ω} {device : Device H}
  {session : Session ω} {deeds : List Event} (hdiscreet : programmer.access.Discreet)

include hdiscreet

theorem exchanges_choose {result : Except Fault (Device H)}
    (hchoose : (programmer.access.choose criteria).Performs before deeds result after) :
    exchanges deeds = [] := by
  obtain ⟨survey, chosen, surveyed, hrun, hsurvey⟩ := hdiscreet.choose criteria before
  obtain ⟨rfl, -⟩ := hrun.unique hchoose
  exact hsurvey

theorem exchanges_connect {result : Except Fault (PacedPipe ω)}
    (hconnect : (programmer.access.connect device).Performs before deeds result after) :
    exchanges deeds = [] := by
  obtain ⟨opening, connected, start, hrun, hopening⟩ := hdiscreet.connect device before
  obtain ⟨rfl, -⟩ := hrun.unique hconnect
  exact hopening

theorem Prepares.requests
    (hprepares : programmer.Prepares criteria verdict before device session deeds after) :
    ∀ transfer ∈ exchanges deeds, transfer.request.ServesRecovery := by
  cases hprepares with
  | prepared hchoose hverdict hconnect hready =>
      rw [exchanges_append, exchanges_append, exchanges_choose hdiscreet hchoose,
        exchanges_connect hdiscreet hconnect]
      exact (Session.settling_of_performs hready).requests

theorem Hindered.requests {fault : Fault}
    (hhindered : programmer.Hindered criteria verdict before deeds fault after) :
    ∀ transfer ∈ exchanges deeds, transfer.request.ServesRecovery := by
  cases hhindered with
  | unchosen hchoose => simp [exchanges_choose hdiscreet hchoose]
  | refused hchoose hverdict => simp [exchanges_choose hdiscreet hchoose]
  | unopened hchoose hverdict hconnect =>
      simp [exchanges_choose hdiscreet hchoose, exchanges_connect hdiscreet hconnect]
  | unready hchoose hverdict hconnect hready =>
      rw [exchanges_append, exchanges_append, exchanges_append,
        exchanges_choose hdiscreet hchoose, exchanges_connect hdiscreet hconnect,
        hdiscreet.exchanges_parting, List.append_nil]
      exact (Session.settling_of_performs hready).requests
  | sizeless hprepares hsize =>
      rw [exchanges_append, hdiscreet.exchanges_parting, List.append_nil]
      exact hprepares.requests hdiscreet

end Requests

end Programmer

/-! ## Over the bus -/

/-- The event belongs to the work around a transfer: a call of the bus, a request or a sleep. -/
def Event.isGroundwork : Event → Bool
  | .bus _ | .exchange _ _ _ | .sleep _ => true
  | _ => false

def Groundwork (events : List Event) : Prop :=
  ∀ event ∈ events, event.isGroundwork

@[simp]
theorem groundwork_append {first second : List Event} :
    Groundwork (first ++ second) ↔ Groundwork first ∧ Groundwork second := by
  simp [Groundwork, or_imp, forall_and]

theorem Session.Does.groundwork {session : Session ω} {allowed : Demand → Prop}
    {events : List Event} (hdoes : session.Does allowed False events) : Groundwork events := by
  intro event hmem
  cases hdoes event hmem with
  | transfer | sleep => rfl
  | downloaded _ _ hreporting | uploaded _ _ hreporting => exact hreporting.elim

namespace Bus

variable {timeout : Nat} {before after : Moment Bus} {deeds : List Event}

theorem choose_groundwork {criteria : Criteria} {chosen : Except Fault (Device Nat)}
    (hchoose : ((access timeout).choose criteria).Performs before deeds chosen after) :
    Groundwork deeds := by
  rcases find_performs before with ⟨survey, listed, surveyed, hfinding, hfind⟩
  rcases hchoose.unique (Access.choose_performs (hfind criteria)) with ⟨rfl, -, -⟩
  intro event hmem
  have hsurveys := hfinding.surveys event hmem
  cases event <;> simp_all [Event.surveys, Event.isGroundwork]

theorem connect_groundwork {device : Device Nat} {connected : Except Fault (PacedPipe Bus)}
    (hconnect : ((access timeout).connect device).Performs before deeds connected after) :
    Groundwork deeds := by
  rcases connect_performs timeout device before with ⟨opening, result, opened, hconnecting, hrun⟩
  rcases hconnect.unique hrun with ⟨rfl, -, -⟩
  cases hconnecting <;> simp [Groundwork, Event.isGroundwork]

theorem parting_groundwork (device : Device Nat) :
    Groundwork ((access timeout).parting device) := by
  simp [Groundwork, access, Event.isGroundwork]

end Bus

namespace Programmer

variable {timeout : Nat} {options : TransferOptions} {criteria : Criteria}
  {verdict : Device Nat → Except Fault Unit} {before after : Moment Bus} {deeds : List Event}

theorem Prepares.groundwork {device : Device Nat} {session : Session Bus}
    (hprepares : Prepares ⟨Bus.access timeout, options⟩ criteria verdict before device session deeds
      after) : Groundwork deeds := by
  cases hprepares with
  | prepared hchoose hverdict hconnect hready =>
      have hrecovery := (Session.settling_of_performs hready).does.groundwork
      simp [Bus.choose_groundwork hchoose, Bus.connect_groundwork hconnect, hrecovery]

theorem Hindered.groundwork {fault : Fault}
    (hhindered : Hindered ⟨Bus.access timeout, options⟩ criteria verdict before deeds fault after) :
    Groundwork deeds := by
  cases hhindered with
  | unchosen hchoose => exact Bus.choose_groundwork hchoose
  | refused hchoose hverdict => exact Bus.choose_groundwork hchoose
  | unopened hchoose hverdict hconnect =>
      simp [Bus.choose_groundwork hchoose, Bus.connect_groundwork hconnect]
  | unready hchoose hverdict hconnect hready =>
      have hrecovery := (Session.settling_of_performs hready).does.groundwork
      simp [Bus.choose_groundwork hchoose, Bus.connect_groundwork hconnect, hrecovery,
        Bus.parting_groundwork]
  | sizeless hprepares hsize => simp [hprepares.groundwork, Bus.parting_groundwork]

end Programmer

/-! ## Flashes from a file -/

def FirmwareSource.read (source : FirmwareSource) (files : Files) : Except FileError ByteArray :=
  match source with
  | .contents file => .ok file
  | .path name => files.read name

theorem exchanges_flash (deeds : List Event) (succeeded : Bool) :
    exchanges (.started :: (deeds ++ [.finished succeeded])) = exchanges deeds := by
  rw [exchanges_cons_of_none _ rfl, exchanges_append, exchanges_cons_of_none _ rfl,
    exchanges_nil, List.append_nil]

namespace FlashRun

variable {run : FlashRun ω H}

theorem of_unreadable {error : FileError} (hread : run.source.read run.host.files = .error error) :
    run.result = .error (.file error) ∧ exchanges run.deeds = [] := by
  cases hsource : run.source with
  | contents file =>
      rw [hsource] at hread
      cases hread
  | path path =>
      rw [hsource] at hread
      have hruns : run.action.Runs run.host [.started, .finished false] (.error (.file error)) := by
        rw [action, hsource]
        exact Programmer.flashFrom_unreadable hread
      exact ⟨hruns.result_eq, by rw [deeds_of_runs hruns]; rfl⟩

/-- With a file that can be read, a flash is the one of its contents. -/
theorem of_flash {file : ByteArray} {deeds : List Event} {result : Except Fault Unit}
    {after : Moment ω} (hread : run.source.read run.host.files = .ok file)
    (hflash : (run.programmer.flash file).Performs run.host.moment deeds result after) :
    run.result = result ∧ exchanges run.deeds = exchanges deeds := by
  cases hsource : run.source with
  | contents contents =>
      rw [hsource] at hread
      cases hread
      have hruns : run.action.Runs run.host deeds result := by
        rw [action, hsource]
        exact hflash.runs
      exact ⟨hruns.result_eq, by rw [deeds_of_runs hruns]⟩
  | path path =>
      rw [hsource] at hread
      have hruns : run.action.Runs run.host (.started :: deeds) result := by
        rw [action, hsource]
        exact Programmer.flashFrom_runs hread hflash
      exact ⟨hruns.result_eq, by rw [deeds_of_runs hruns, exchanges_cons_of_none _ rfl]⟩

/-- The file can be read and holds the image. -/
def Loads (run : FlashRun ω H) (image : Image) : Prop :=
  ∃ file, run.source.read run.host.files = .ok file ∧
    Image.load run.programmer.options.suffixUse file = .ok image

/-- With an image a flash is a transfer to the device that the image is meant for. -/
theorem Loads.takes_course {image : Image} (hloads : run.Loads image)
    (hdiscreet : run.programmer.access.Discreet) :
    ∃ deeds after, run.programmer.Transferring (run.programmer.criteriaFor image)
        image.checkDevice (Session.Delivering image.payload) run.host.moment deeds run.result
        after ∧
      exchanges run.deeds = exchanges deeds := by
  obtain ⟨file, hread, hload⟩ := hloads
  obtain ⟨deeds, result, after, htransferring, hflash⟩ :=
    Programmer.flash_takes_course hdiscreet hload run.host.moment
  obtain ⟨hresult, hdeeds⟩ := of_flash hread hflash
  rw [exchanges_flash] at hdeeds
  exact ⟨deeds, after, hresult ▸ htransferring, hdeeds⟩

theorem of_invalid {file : ByteArray} {fault : ImageFault}
    (hread : run.source.read run.host.files = .ok file)
    (hload : Image.load run.programmer.options.suffixUse file = .error fault) :
    run.result = .error (.image fault) ∧ exchanges run.deeds = [] := by
  have htransfer : (run.programmer.transfer file).Performs run.host.moment _ _ _ :=
    Programmer.transfer_unreadable hload
  obtain ⟨hresult, hdeeds⟩ := of_flash hread (Programmer.flash_performs htransfer)
  rw [exchanges_flash] at hdeeds
  exact ⟨hresult, hdeeds⟩

theorem loads_or_silent (run : FlashRun ω H) :
    (∃ image, run.Loads image) ∨ exchanges run.deeds = [] := by
  cases hread : run.source.read run.host.files with
  | error error => exact .inr (of_unreadable hread).2
  | ok file =>
      cases hload : Image.load run.programmer.options.suffixUse file with
      | error fault => exact .inr (of_invalid hread hload).2
      | ok image => exact .inl ⟨image, file, hread, hload⟩

end FlashRun

end FirmwareUpgrade
