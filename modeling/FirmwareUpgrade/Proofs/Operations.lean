import FirmwareUpgrade.Programmer
import FirmwareUpgrade.Proofs.DiscreetAccess
import FirmwareUpgrade.Proofs.Downloading
import FirmwareUpgrade.Proofs.Settling
import FirmwareUpgrade.Proofs.Uploading

/-!
# The course of an operation

An operation lists the devices, opens the chosen one for its work and gives it up afterwards.  What
listing and opening do depends on the access, so each lemma here takes that part as it was performed
and says how the operation goes on.  `Writing` and `Retrieving` list what the work of a flash and of
an upload can do with a session.
-/

namespace FirmwareUpgrade

variable {ω H α : Type}

namespace Access

/-- The only device of a list. -/
def onlyOf : List (Device H) → Except Fault (Device H)
  | [] => .error .noDevice
  | [device] => .ok device
  | devices => .error (.manyDevices devices.length)

variable {access : Access ω H} {before middle after : Moment ω} {deeds more : List Event}

theorem choose_performs {criteria : Criteria} {listed : Except Fault (List (Device H))}
    (hlist : (access.list criteria).Performs before deeds listed after) :
    (access.choose criteria).Performs before deeds (listed.bind onlyOf) after := by
  cases listed with
  | error fault => exact hlist.bind_error
  | ok devices =>
      refine hlist.bind_silent ?_
      match devices with
      | [] => exact Action.performs_fail _ after
      | [device] => exact Action.performs_pure device after
      | first :: second :: rest => exact Action.performs_fail _ after

variable {device : Device H}
  {work : (session : Session ω) → Pace session.pipe → Action ω α}

theorem withSession_unopened {fault : Fault}
    (hconnect : (access.connect device).Performs before deeds (.error fault) after) :
    (access.withSession device work).Performs before deeds (.error fault) after :=
  hconnect.bind_error

theorem withSession_performs {opened : PacedPipe ω} {result : Except Fault α}
    (hparting : ∀ event ∈ access.parting device, event.isDeed)
    (hconnect : (access.connect device).Performs before deeds (.ok opened) middle)
    (hwork : (work (device.session opened.pipe) opened.pace).Performs middle more result after) :
    (access.withSession device work).Performs before (deeds ++ (more ++ access.parting device))
      result ((access.parting device).foldl Moment.pass after) := by
  have hnoted : (do
      Action.note (.deviceOpened device.vendor device.product device.interface device.alternate)
      work (device.session opened.pipe) opened.pace : Action ω α).Performs middle more result
        after := .after_note hwork
  exact hconnect.bind (hnoted.followedBy hparting)

end Access

theorem Image.load_ignored (file : ByteArray) :
    Image.load .ignored file = .ok ⟨file, none⟩ := rfl

theorem Image.inspect_performs (policy : SuffixUse) (file : ByteArray) (moment : Moment ω) :
    (Image.inspect policy file : Action ω Image).Performs moment []
      ((Image.load policy file).mapError .image) moment := by
  have hload := Action.performs_ofExcept ((Image.load policy file).mapError .image) moment
  unfold Image.inspect
  cases hresult : Image.load policy file with
  | error fault =>
      rw [hresult] at hload
      exact hload.bind_error
  | ok image =>
      rw [hresult] at hload
      refine hload.bind_silent ?_
      split
      · exact .after_note (.after_note (Action.performs_pure image moment))
      · exact .after_note (Action.performs_pure image moment)

theorem blockSize_pos {descriptorSize : UInt16} {requested : Option UInt16} {packetSize : UInt8}
    {chunk : UInt16} (hsize : blockSize descriptorSize requested packetSize = .ok chunk) :
    0 < chunk.toNat := by
  simp only [blockSize] at hsize
  generalize (if requested.getD 0 = 0 then descriptorSize else requested.getD 0) = size at hsize
  split at hsize
  · simp at hsize
  · next hne =>
      have hpositive : 0 < size.toNat := by
        have hzero : size.toNat ≠ 0 := fun hzero => hne (UInt16.toNat_inj.mp hzero)
        omega
      have hle : size ≤ max size packetSize.toUInt16 := by
        change size ≤ if size ≤ packetSize.toUInt16 then packetSize.toUInt16 else size
        split
        · assumption
        · exact UInt16.le_refl size
      cases hsize
      exact Nat.lt_of_lt_of_le hpositive (UInt16.le_iff_toNat_le.mp hle)

namespace Programmer

/-! ## The work with a session -/

inductive Writing (programmer : Programmer ω H) (image : Image) (session : Session ω) :
    Moment ω → List Event → Except Fault Unit → Moment ω → Prop
  | unready {before after deeds fault}
      (hsettling : session.Settling Session.readinessPolls (.unknown 0xFF) before deeds
        (.error fault) after) :
      Writing programmer image session before deeds (.error fault) after
  | sizeless {before after deeds reply fault}
      (hsettling : session.Settling Session.readinessPolls (.unknown 0xFF) before deeds
        (.ok reply) after)
      (hsize : blockSize session.descriptor.transferSize programmer.options.transferSize
        session.packetSize = .error fault) :
      Writing programmer image session before deeds (.error fault) after
  | sent {before middle after deeds more reply chunk result}
      (hsettling : session.Settling Session.readinessPolls (.unknown 0xFF) before deeds
        (.ok reply) middle)
      (hready : session.reachIdle.Performs before deeds (.ok reply) middle)
      (hsize : blockSize session.descriptor.transferSize programmer.options.transferSize
        session.packetSize = .ok chunk)
      (hsending : session.Sending image.payload chunk.toNat 0 middle more result after) :
      Writing programmer image session before
        (deeds ++ .downloaded 0 image.payload.size :: more) (result.mapError .download) after

inductive Retrieving (programmer : Programmer ω H) (limit : Option Nat) (session : Session ω) :
    Moment ω → List Event → Except Fault ByteArray → Moment ω → Prop
  | unready {before after deeds fault}
      (hsettling : session.Settling Session.readinessPolls (.unknown 0xFF) before deeds
        (.error fault) after) :
      Retrieving programmer limit session before deeds (.error fault) after
  | sizeless {before after deeds reply fault}
      (hsettling : session.Settling Session.readinessPolls (.unknown 0xFF) before deeds
        (.ok reply) after)
      (hsize : blockSize session.descriptor.transferSize programmer.options.transferSize
        session.packetSize = .error fault) :
      Retrieving programmer limit session before deeds (.error fault) after
  | fetched {before middle after deeds more reply chunk result}
      (hsettling : session.Settling Session.readinessPolls (.unknown 0xFF) before deeds
        (.ok reply) middle)
      (hsize : blockSize session.descriptor.transferSize programmer.options.transferSize
        session.packetSize = .ok chunk)
      (hfetching : session.Fetching chunk.toNat limit Upload.sizeBound middle more result after) :
      Retrieving programmer limit session before (deeds ++ more) result after

variable (programmer : Programmer ω H)

theorem chunkSize_performs (session : Session ω) (moment : Moment ω) :
    (programmer.chunkSize session).Performs moment []
      (blockSize session.descriptor.transferSize programmer.options.transferSize
        session.packetSize) moment :=
  Action.performs_ofExcept _ moment

/-- Work that needs a ready device and the size of its blocks ends before it, or goes on with
both. -/
theorem readied_performs (session : Session ω) {work : UInt16 → Action ω α} {before : Moment ω}
    {course : List Event → Except Fault α → Moment ω → Prop}
    (hunready : ∀ {deeds fault after},
      session.Settling Session.readinessPolls (.unknown 0xFF) before deeds (.error fault) after →
        course deeds (.error fault) after)
    (hsizeless : ∀ {deeds reply fault after},
      session.Settling Session.readinessPolls (.unknown 0xFF) before deeds (.ok reply) after →
        blockSize session.descriptor.transferSize programmer.options.transferSize
          session.packetSize = .error fault → course deeds (.error fault) after)
    (hwork : ∀ {deeds reply middle chunk},
      session.Settling Session.readinessPolls (.unknown 0xFF) before deeds (.ok reply) middle →
        session.reachIdle.Performs before deeds (.ok reply) middle →
        blockSize session.descriptor.transferSize programmer.options.transferSize
          session.packetSize = .ok chunk →
        ∃ more result after, course (deeds ++ more) result after ∧
          (work chunk).Performs middle more result after) :
    ∃ deeds result after, course deeds result after ∧
      (do
        let _ ← session.reachIdle
        let chunk ← programmer.chunkSize session
        work chunk).Performs before deeds result after := by
  rcases session.settle_performs Session.readinessPolls (.unknown 0xFF) before with
    ⟨deeds, ready, middle, hsettling, hsettle⟩
  cases ready with
  | error fault => exact ⟨_, _, _, hunready hsettling, hsettle.bind_error⟩
  | ok reply =>
      have hchunk := programmer.chunkSize_performs session middle
      cases hsize : blockSize session.descriptor.transferSize programmer.options.transferSize
        session.packetSize with
      | error fault =>
          rw [hsize] at hchunk
          exact ⟨_, _, _, hsizeless hsettling hsize, hsettle.bind_silent hchunk.bind_error⟩
      | ok chunk =>
          rw [hsize] at hchunk
          rcases hwork hsettling hsettle hsize with ⟨more, result, after, hcourse, hrun⟩
          exact ⟨_, _, _, hcourse, hsettle.bind (hchunk.bind hrun)⟩

theorem write_performs (image : Image) (session : Session ω) (pace : Pace session.pipe)
    (before : Moment ω) :
    ∃ deeds result after, programmer.Writing image session before deeds result after ∧
      (programmer.write image session pace).Performs before deeds result after := by
  apply programmer.readied_performs session .unready .sizeless
  intro deeds reply middle chunk hsettling hready hsize
  rcases session.downloadPayload_performs pace (blockSize_pos hsize) image.payload middle with
    ⟨more, result, after, hsending, hdownload⟩
  exact ⟨_, _, after, .sent hsettling hready hsize hsending,
    .after_note (hdownload.mapFault .download)⟩

theorem write_sends {image : Image} {session : Session ω} {chunk : UInt16}
    {before middle after : Moment ω} {deeds more : List Event} {reply : StatusReply}
    {result : Except Fault Unit} (pace : Pace session.pipe)
    (hready : session.reachIdle.Performs before deeds (.ok reply) middle)
    (hsize : blockSize session.descriptor.transferSize programmer.options.transferSize
      session.packetSize = .ok chunk)
    (hsending : session.Sending image.payload chunk.toNat 0 middle more result after) :
    (programmer.write image session pace).Performs before
      (deeds ++ .downloaded 0 image.payload.size :: more) (result.mapError .download) after := by
  have hchunk := programmer.chunkSize_performs session middle
  rw [hsize] at hchunk
  have hdownload := hsending.downloadPayload_performs pace (blockSize_pos hsize)
  exact hready.bind (hchunk.bind (.after_note (hdownload.mapFault .download)))

theorem read_performs (limit : Option Nat) (session : Session ω) (before : Moment ω) :
    ∃ deeds result after, programmer.Retrieving limit session before deeds result after ∧
      (programmer.read limit session).Performs before deeds result after := by
  apply programmer.readied_performs session .unready .sizeless
  intro deeds reply middle chunk hsettling hready hsize
  rcases session.uploadWithin_performs Upload.sizeBound (blockSize_pos hsize) limit middle with
    ⟨more, result, after, hfetching, hupload⟩
  exact ⟨more, result, after, .fetched hsettling hsize hfetching, hupload⟩

/-! ## The operations -/

variable {programmer} {file : ByteArray} {image : Image} {device : Device H}
  {before middle after : Moment ω} {deeds more : List Event}

/-- The criteria of a flash: those of the user, and the identifiers of the image where the user has
none. -/
def criteriaFor (programmer : Programmer ω H) (image : Image) : Criteria :=
  programmer.options.criteria.adopt image.vendor image.product

theorem transfer_unreadable {fault : ImageFault}
    (hload : Image.load programmer.options.suffixUse file = .error fault) :
    (programmer.transfer file).Performs before [] (.error (.image fault)) before := by
  have hinspect := Image.inspect_performs programmer.options.suffixUse file before
  rw [hload] at hinspect
  exact hinspect.bind_error

theorem transfer_unchosen {fault : Fault}
    (hload : Image.load programmer.options.suffixUse file = .ok image)
    (hchoose : (programmer.access.choose (programmer.criteriaFor image)).Performs before deeds
      (.error fault) after) :
    (programmer.transfer file).Performs before deeds (.error fault) after := by
  have hinspect := Image.inspect_performs programmer.options.suffixUse file before
  rw [hload] at hinspect
  exact hinspect.bind hchoose.bind_error

theorem transfer_mismatched {fault : Fault}
    (hload : Image.load programmer.options.suffixUse file = .ok image)
    (hchoose : (programmer.access.choose (programmer.criteriaFor image)).Performs before deeds
      (.ok device) after)
    (hcheck : image.checkDevice device = .error fault) :
    (programmer.transfer file).Performs before deeds (.error fault) after := by
  have hinspect := Image.inspect_performs programmer.options.suffixUse file before
  have hchecked : (Action.ofExcept (image.checkDevice device) : Action ω Unit).Performs after []
      (.error fault) after := by
    rw [← hcheck]
    exact Action.performs_ofExcept _ after
  rw [hload] at hinspect
  exact hinspect.bind (hchoose.bind_silent hchecked.bind_error)

theorem transfer_performs {result : Except Fault Unit}
    (hload : Image.load programmer.options.suffixUse file = .ok image)
    (hchoose : (programmer.access.choose (programmer.criteriaFor image)).Performs before deeds
      (.ok device) middle)
    (hcheck : image.checkDevice device = .ok ())
    (hsession : (programmer.access.withSession device (programmer.write image)).Performs middle
      more result after) :
    (programmer.transfer file).Performs before (deeds ++ more) result after := by
  have hinspect := Image.inspect_performs programmer.options.suffixUse file before
  have hchecked : (Action.ofExcept (image.checkDevice device) : Action ω Unit).Performs middle []
      (.ok ()) middle := by
    rw [← hcheck]
    exact Action.performs_ofExcept _ middle
  rw [hload] at hinspect
  exact hinspect.bind (hchoose.bind (hchecked.bind hsession))

/-- A flash is a transfer between the event that starts it and the one that tells how it ended. -/
theorem flash_performs {result : Except Fault Unit}
    (htransfer : (programmer.transfer file).Performs before deeds result after) :
    (programmer.flash file).Performs before
      (.started :: (deeds ++ [.finished result.isOk])) result after := by
  have hstart := Action.performs_record .started rfl before
  cases result with
  | ok done =>
      have hfinish := Action.performs_record (.finished true) rfl after
      exact hstart.bind_single (htransfer.attempt.bind hfinish)
  | error fault =>
      have hfinish := Action.performs_record (.finished false) rfl after
      exact hstart.bind_single (htransfer.attempt.bind (.after_note
        (hfinish.bind_silent (Action.performs_fail fault after))))

/-- A flash of a file that can be read goes on with its contents, after one more start. -/
theorem flashFrom_runs {path : String} {host : Host ω} {result : Except Fault Unit}
    (hread : host.files.read path = .ok file)
    (hflash : (programmer.flash file).Performs host.moment deeds result after) :
    (programmer.flashFrom path).Runs host (.started :: deeds) result := by
  obtain ⟨last, hrun, -, -, hdeeds⟩ := hflash.run (host.record .started) rfl
  refine ⟨last, ?_, ?_⟩
  · simp only [flashFrom, Action.run_bind, Action.run_record, Action.readFile, Host.record, hread]
    exact hrun
  · rw [hdeeds, Host.record_deeds host rfl, List.append_assoc, List.singleton_append]

theorem flashFrom_unreadable {path : String} {host : Host ω} {error : FileError}
    (hread : host.files.read path = .error error) :
    (programmer.flashFrom path).Runs host [.started, .finished false] (.error (.file error)) := by
  let noted := (host.record .started).record (.notice (.fileUnreadable error))
  refine ⟨noted.record (.finished false), ?_, ?_⟩
  · simp only [flashFrom, Action.run_bind, Action.run_record, Action.readFile, Host.record, hread]
    rfl
  · rw [noted.record_deeds rfl, Host.record_notice_deeds, Host.record_deeds host rfl,
      List.append_assoc, List.singleton_append]

theorem upload_unchosen {limit : Option Nat} {fault : Fault}
    (hchoose : (programmer.access.choose programmer.options.criteria).Performs before deeds
      (.error fault) after) :
    (programmer.upload limit).Performs before deeds (.error fault) after :=
  hchoose.bind_error

theorem upload_performs {limit : Option Nat} {result : Except Fault ByteArray}
    (hchoose : (programmer.access.choose programmer.options.criteria).Performs before deeds
      (.ok device) middle)
    (hsession : (programmer.access.withSession device fun session _ =>
      programmer.read limit session).Performs middle more result after) :
    (programmer.upload limit).Performs before (deeds ++ more) result after :=
  hchoose.bind hsession

end Programmer

/-! ## Operations with a discreet access -/

theorem Image.inspect_discreet (policy : SuffixUse) (file : ByteArray) :
    (Image.inspect policy file : Action ω Image).Discreet :=
  fun before => ⟨[], _, before, Image.inspect_performs policy file before, rfl⟩

namespace Programmer

variable {programmer : Programmer ω H} {property : List Exchange → Prop}

/-- What the work with a session conducts, or nothing, is what the whole transfer conducts. -/
theorem transfer_conducts (hdiscreet : programmer.access.Discreet) (hempty : property [])
    (hwrite : ∀ image session pace, (programmer.write image session pace).Conducts property)
    (file : ByteArray) : (programmer.transfer file).Conducts property := by
  refine (Image.inspect_discreet _ file).bind_conducts hempty fun image => ?_
  refine (hdiscreet.choose _).bind_conducts hempty fun device => ?_
  refine (Action.discreet_ofExcept _).bind_conducts hempty fun _ => ?_
  exact hdiscreet.withSession hempty device (hwrite image)

theorem flash_conducts (hdiscreet : programmer.access.Discreet) (hempty : property [])
    (hwrite : ∀ image session pace, (programmer.write image session pace).Conducts property)
    (file : ByteArray) : (programmer.flash file).Conducts property := by
  refine (Action.discreet_record rfl rfl).bind_conducts hempty fun _ => ?_
  refine (transfer_conducts hdiscreet hempty hwrite file).attempt.bind_discreet fun result => ?_
  cases result with
  | ok _ => exact Action.discreet_record rfl rfl
  | error fault =>
      exact (Action.discreet_note _).bind fun _ =>
        (Action.discreet_record rfl rfl).bind fun _ => Action.discreet_fail fault

theorem upload_conducts (hdiscreet : programmer.access.Discreet) (hempty : property [])
    {limit : Option Nat}
    (hread : ∀ session : Session ω, (programmer.read limit session).Conducts property) :
    (programmer.upload limit).Conducts property := by
  refine (hdiscreet.choose _).bind_conducts hempty fun device => ?_
  exact hdiscreet.withSession hempty device fun session _ => hread session

end Programmer

/-- All transfers belong to one stretch of the events, which has the given property; there may be
none. -/
def Encloses (property : List Event → Prop) (deeds : List Event) : Prop :=
  exchanges deeds = [] ∨ ∃ earlier inner later, deeds = earlier ++ inner ++ later ∧
    exchanges earlier = [] ∧ exchanges later = [] ∧ property inner

theorem Encloses.pad {property : List Event → Prop} {deeds first last : List Event}
    (hdeeds : Encloses property deeds) (hfirst : exchanges first = [])
    (hlast : exchanges last = []) :
    Encloses property (first ++ deeds ++ last) := by
  rcases hdeeds with hnone | ⟨earlier, inner, later, rfl, hearlier, hlater, hinner⟩
  · left
    simp [hfirst, hnone, hlast]
  · right
    refine ⟨first ++ earlier, inner, later ++ last, by simp, ?_, ?_, hinner⟩
    · simp [hfirst, hearlier]
    · simp [hlater, hlast]

theorem Encloses.mono {property weaker : List Event → Prop} {deeds : List Event}
    (hdeeds : Encloses property deeds) (himplies : ∀ inner, property inner → weaker inner) :
    Encloses weaker deeds := by
  rcases hdeeds with hnone | ⟨earlier, inner, later, hsplit, hearlier, hlater, hinner⟩
  · exact .inl hnone
  · exact .inr ⟨earlier, inner, later, hsplit, hearlier, hlater, himplies inner hinner⟩

/-- The work of an operation with a device, by the courses that it can take. -/
abbrev Session.Courses (ω α : Type) : Type :=
  Session ω → Moment ω → List Event → Except Fault α → Moment ω → Prop

/-- Some session with the device takes one of the courses in these events. -/
def Device.Takes (device : Device H) (courses : Session.Courses ω α) (deeds : List Event) : Prop :=
  ∃ pipe before result after, courses (device.session pipe) before deeds result after

namespace Access.Discreet

variable {access : Access ω H}

theorem parting_isDeed (hdiscreet : access.Discreet) (device : Device H) :
    ∀ event ∈ access.parting device, event.isDeed :=
  fun event hmem => (hdiscreet.parting device event hmem).1

theorem exchanges_parting (hdiscreet : access.Discreet) (device : Device H) :
    exchanges (access.parting device) = [] :=
  List.filterMap_eq_nil_iff.mpr fun event hmem => (hdiscreet.parting device event hmem).2

theorem withSession_encloses (hdiscreet : access.Discreet) (device : Device H)
    {courses : Session.Courses ω α}
    {work : (session : Session ω) → Pace session.pipe → Action ω α}
    (hwork : ∀ session pace before, ∃ deeds result after,
      courses session before deeds result after ∧
        (work session pace).Performs before deeds result after) (before : Moment ω) :
    ∃ deeds result after, (access.withSession device work).Performs before deeds result after ∧
      Encloses (device.Takes courses) deeds := by
  obtain ⟨opening, connected, middle, hconnect, hopening⟩ := hdiscreet.connect device before
  cases connected with
  | error fault => exact ⟨_, _, _, withSession_unopened hconnect, .inl hopening⟩
  | ok opened =>
      obtain ⟨deeds, result, after, hcourse, hrun⟩ :=
        hwork (device.session opened.pipe) opened.pace middle
      refine ⟨_, _, _, withSession_performs (hdiscreet.parting_isDeed device) hconnect hrun,
        .inr ⟨opening, deeds, access.parting device, (List.append_assoc ..).symm, hopening,
          hdiscreet.exchanges_parting device, ?_⟩⟩
      exact ⟨opened.pipe, middle, result, after, hcourse⟩

end Access.Discreet

namespace Programmer

variable (programmer : Programmer ω H)

/-- The device that a file would go to at a moment, if the file is readable and the device is the
only one that meets the criteria. -/
def target? (file : ByteArray) (moment : Moment ω) : Option (Device H) :=
  (Image.load programmer.options.suffixUse file).toOption.bind fun image =>
    (programmer.access.choose (programmer.criteriaFor image)).outcome? moment

/-- The device that would be read at a moment. -/
def origin? (moment : Moment ω) : Option (Device H) :=
  (programmer.access.choose programmer.options.criteria).outcome? moment

variable {programmer} (hdiscreet : programmer.access.Discreet)

include hdiscreet

theorem transfer_encloses (file : ByteArray) (before : Moment ω) :
    ∃ deeds result after, (programmer.transfer file).Performs before deeds result after ∧
      (exchanges deeds = [] ∨ ∃ image device, programmer.target? file before = some device ∧
        Encloses (device.Takes (programmer.Writing image)) deeds) := by
  cases hload : Image.load programmer.options.suffixUse file with
  | error fault => exact ⟨_, _, _, transfer_unreadable hload, .inl rfl⟩
  | ok image =>
      obtain ⟨survey, chosen, middle, hchoose, hsurvey⟩ :=
        hdiscreet.choose (programmer.criteriaFor image) before
      cases chosen with
      | error fault => exact ⟨_, _, _, transfer_unchosen hload hchoose, .inl hsurvey⟩
      | ok device =>
          have htarget : programmer.target? file before = some device := by
            simp only [target?, hload, Except.toOption, Option.bind_some, hchoose.outcome?_eq]
          cases hcheck : image.checkDevice device with
          | error fault =>
              exact ⟨_, _, _, transfer_mismatched hload hchoose hcheck, .inl hsurvey⟩
          | ok accepted =>
              obtain ⟨deeds, result, after, hrun, hencloses⟩ :=
                hdiscreet.withSession_encloses device (programmer.write_performs image) middle
              refine ⟨_, _, _, transfer_performs hload hchoose hcheck hrun,
                .inr ⟨image, device, htarget, ?_⟩⟩
              have hpadded := hencloses.pad hsurvey exchanges_nil
              rwa [List.append_nil] at hpadded

/-- All transfers of a flash belong to the work with a session of its target. -/
theorem flash_encloses (file : ByteArray) (before : Moment ω) :
    ∃ deeds result after, (programmer.flash file).Performs before deeds result after ∧
      (exchanges deeds = [] ∨ ∃ image device, programmer.target? file before = some device ∧
        Encloses (device.Takes (programmer.Writing image)) deeds) := by
  obtain ⟨deeds, result, after, htransfer, hdeeds⟩ := transfer_encloses hdiscreet file before
  refine ⟨_, _, _, flash_performs htransfer, ?_⟩
  have hstart : exchanges [.started] = [] := rfl
  have hfinish : exchanges [.finished result.isOk] = [] := rfl
  rcases hdeeds with hnone | ⟨image, device, htarget, hencloses⟩
  · left
    rw [exchanges_cons_of_none _ rfl, exchanges_append, hnone, hfinish, List.append_nil]
  · right
    exact ⟨image, device, htarget, hencloses.pad hstart hfinish⟩

/-- All transfers of an upload belong to the work with a session of the device that is read. -/
theorem upload_encloses (limit : Option Nat) (before : Moment ω) :
    ∃ deeds result after, (programmer.upload limit).Performs before deeds result after ∧
      (exchanges deeds = [] ∨ ∃ device, programmer.origin? before = some device ∧
        Encloses (device.Takes (programmer.Retrieving limit)) deeds) := by
  obtain ⟨survey, chosen, middle, hchoose, hsurvey⟩ :=
    hdiscreet.choose programmer.options.criteria before
  cases chosen with
  | error fault => exact ⟨_, _, _, upload_unchosen hchoose, .inl hsurvey⟩
  | ok device =>
      obtain ⟨deeds, result, after, hrun, hencloses⟩ :=
        hdiscreet.withSession_encloses device
          (fun session _ => programmer.read_performs limit session) middle
      refine ⟨_, _, _, upload_performs hchoose hrun, .inr ⟨device, hchoose.outcome?_eq, ?_⟩⟩
      have hpadded := hencloses.pad hsurvey exchanges_nil
      rwa [List.append_nil] at hpadded

end Programmer

end FirmwareUpgrade
