import FirmwareUpgrade.Proofs.Custody

/-!
# Operations over the bus

Finding devices and connecting to one follow the order of events that `Custody` describes, and so
does the work with a session, which stays on the route to the claimed interface.  So every
operation over the bus keeps custody of the devices, wherever it fails.
-/

namespace FirmwareUpgrade

variable {α : Type}

namespace Bus

variable {timeout : Nat} {goal : Option (Device Nat)} {before after : Moment Bus}
  {deeds : List Event}

/-! ## Finding and connecting -/

theorem course_of_reads {device : Nat} {calls : List Event}
    (hcalls : ∀ event ∈ calls, event.Reads device) (attachments : List Attachment) :
    Course timeout goal ⟨.opened device, attachments⟩ calls ⟨.opened device, attachments⟩ := by
  induction calls with
  | nil => exact .nil
  | cons event calls ih =>
      have hrest := ih fun other hmem => hcalls other (List.mem_cons_of_mem event hmem)
      cases hcalls event List.mem_cons_self with
      | languages => exact .cons .languages hrest
      | string => exact .cons .string hrest

theorem step_of_refused {device : Nat} {world : Bus} {error : UsbError}
    (hopening : before.world.nextOpening device = (some error, world)) :
    Step timeout goal ⟨.free, before.world.attachments⟩ (.bus (.openDevice device))
      ⟨.free, world.attachments⟩ := by
  obtain ⟨herror, hafter⟩ := nextOpening_eq hopening
  rw [← hafter]
  exact .unopened (by rw [herror, Option.isSome_some])

theorem step_of_opened {device : Nat} {world : Bus}
    (hopening : before.world.nextOpening device = (none, world)) :
    Step timeout goal ⟨.free, before.world.attachments⟩ (.bus (.openDevice device))
      ⟨.opened device, world.attachments⟩ := by
  obtain ⟨hnone, hafter⟩ := nextOpening_eq hopening
  rw [← hafter]
  exact .opened hnone

theorem Examining.course {device : Nat} {examined : Except Fault (List (Device Nat))}
    (hexamining : Examining device before deeds examined after) :
    Course timeout goal ⟨.free, before.world.attachments⟩ deeds
      ⟨.free, after.world.attachments⟩ := by
  cases hexamining with
  | unopened hopening => exact .single (step_of_refused hopening)
  | examined hopening hcalls =>
      exact .cons (step_of_opened hopening) ((course_of_reads hcalls _).append (.single .closed))

theorem Surveying.course {found : List (Device Nat)}
    (hsurveying : Surveying before deeds found after) :
    Course timeout goal ⟨.free, before.world.attachments⟩ deeds
      ⟨.free, after.world.attachments⟩ := by
  induction hsurveying with
  | done => exact .nil
  | visited hexamining hrest ih => exact hexamining.course.append ih

theorem Finding.course {listed : Except Fault (List (Device Nat))}
    (hfinding : Finding before deeds listed after) :
    Course timeout goal ⟨.free, before.world.attachments⟩ deeds
      ⟨.free, after.world.attachments⟩ := by
  cases hfinding with
  | unlisted => exact .single .listed
  | surveyed hlist hsurveying => exact .cons .listed hsurveying.course

theorem Connecting.course_of_error {device : Device Nat} {fault : Fault}
    (hconnecting : Connecting timeout device before deeds (.error fault) after) :
    ∃ stop, Course timeout (some device) ⟨.free, before.world.attachments⟩ deeds stop ∧
      stop.phase.isRest := by
  cases hconnecting with
  | unopened hopening => exact ⟨_, .single (step_of_refused hopening), rfl⟩
  | unclaimed hopening hclaim =>
      have hrefused := Option.isSome_of_eq_some hclaim
      exact ⟨_, .cons (step_of_opened hopening) (.cons (.unclaimed rfl hrefused) (.single .left)),
        rfl⟩
  | unselected hopening hclaim halternate =>
      have hrefused := Option.isSome_of_eq_some halternate
      exact ⟨_, .cons (step_of_opened hopening) (.cons (.claimed rfl hclaim)
        (.cons (.unselected hrefused) (.cons .withdrawn (.single .left)))), rfl⟩

theorem Connecting.course_of_ok {device : Device Nat} {opened : PacedPipe Bus}
    (hconnecting : Connecting timeout device before deeds (.ok opened) after) :
    Course timeout (some device) ⟨.free, before.world.attachments⟩ deeds
        ⟨.ready device, after.world.attachments⟩ ∧
      opened.pipe.route = .bus device.handle device.interface timeout := by
  cases hconnecting with
  | connected hopening hclaim halternate =>
      exact ⟨.cons (step_of_opened hopening)
        (.cons (.claimed rfl hclaim) (.single (.selected halternate))), rfl⟩

theorem course_of_staysWithin {device : Device Nat}
    (hwithin : StaysWithin (.bus device.handle device.interface timeout) deeds)
    (attachments : List Attachment) :
    Course timeout (some device) ⟨.ready device, attachments⟩ deeds
      ⟨.ready device, attachments⟩ := by
  induction deeds with
  | nil => exact .nil
  | cons event deeds ih =>
      obtain ⟨hevent, hrest⟩ := staysWithin_cons.mp hwithin
      cases hevent with
      | transfer => exact .cons (.transferred rfl) (ih hrest)
      | host hhost => exact .cons (.host hhost) (ih hrest)

/-! ## The operations follow the order -/

/-- Whatever comes of the action, it follows the order and comes to rest. -/
def FollowsOrder (timeout : Nat) (goal : Option (Device Nat)) (action : Action Bus α)
    (before : Moment Bus) : Prop :=
  ∃ deeds result after stop, action.Performs before deeds result after ∧
    Course timeout goal ⟨.free, before.world.attachments⟩ deeds stop ∧ stop.phase.isRest

/-- The work stays on the route of the session that it is given. -/
def StaysOnSession (work : (session : Session Bus) → Pace session.pipe → Action Bus α) : Prop :=
  ∀ session pace before, ∃ deeds result after,
    (work session pace).Performs before deeds result after ∧ StaysWithin session.pipe.route deeds

variable (timeout : Nat)

theorem withSession_followsOrder (device : Device Nat)
    {work : (session : Session Bus) → Pace session.pipe → Action Bus α}
    (hwork : StaysOnSession work) (before : Moment Bus) :
    FollowsOrder timeout (some device) ((access timeout).withSession device work) before := by
  obtain ⟨opening, connected, middle, hconnecting, hconnect⟩ :=
    connect_performs timeout device before
  cases connected with
  | error fault =>
      obtain ⟨stop, hcourse, hrest⟩ := hconnecting.course_of_error
      exact ⟨_, _, _, stop, Access.withSession_unopened hconnect, hcourse, hrest⟩
  | ok opened =>
      obtain ⟨hopening, hroute⟩ := hconnecting.course_of_ok
      obtain ⟨deeds, result, after, hrun, hwithin⟩ :=
        hwork (device.session opened.pipe) opened.pace middle
      have hparting := (access_discreet timeout).parting_isDeed device
      refine ⟨_, _, _, ⟨.done, middle.world.attachments⟩,
        Access.withSession_performs hparting hconnect hrun, ?_, rfl⟩
      change StaysWithin opened.pipe.route deeds at hwithin
      rw [hroute] at hwithin
      exact hopening.append ((course_of_staysWithin hwithin _).append
        (.cons .released (.single .left)))

theorem choose_follows (criteria : Criteria) (before : Moment Bus) :
    ∃ deeds chosen after, ((access timeout).choose criteria).Performs before deeds chosen after ∧
      ∀ goal, Course timeout goal ⟨.free, before.world.attachments⟩ deeds
        ⟨.free, after.world.attachments⟩ := by
  obtain ⟨deeds, listed, after, hfinding, hfind⟩ := find_performs before
  exact ⟨deeds, _, after, Access.choose_performs (hfind criteria), fun goal => hfinding.course⟩

/-- An operation on the one device that meets some criteria. -/
theorem chosen_followsOrder (criteria : Criteria) {next : Device Nat → Action Bus α}
    (hnext : ∀ device middle, FollowsOrder timeout (some device) (next device) middle)
    (before : Moment Bus) :
    FollowsOrder timeout (((access timeout).choose criteria).outcome? before)
      ((access timeout).choose criteria >>= next) before := by
  obtain ⟨survey, chosen, middle, hchoose, hsurvey⟩ := choose_follows timeout criteria before
  rw [hchoose.outcome?_eq]
  cases chosen with
  | error fault => exact ⟨_, _, _, _, hchoose.bind_error, hsurvey _, rfl⟩
  | ok device =>
      obtain ⟨deeds, result, after, stop, hrun, hcourse, hrest⟩ := hnext device middle
      exact ⟨_, _, _, stop, hchoose.bind hrun, (hsurvey _).append hcourse, hrest⟩

theorem FollowsOrder.keepsCustody {timeout : Nat} {action : Action Bus α}
    (hfollows : FollowsOrder timeout goal action before) :
    ∃ deeds result after, action.Performs before deeds result after ∧
      KeepsCustody timeout goal before.world.attachments deeds := by
  obtain ⟨deeds, result, after, stop, hrun, hcourse, hrest⟩ := hfollows
  exact ⟨deeds, result, after, hrun, hcourse.keepsCustody hrest⟩

end Bus

namespace Programmer

open Bus

variable (timeout : Nat) (options : TransferOptions)

theorem transfer_followsOrder (file : ByteArray) (before : Moment Bus) :
    let programmer : Programmer Bus Nat := ⟨Bus.access timeout, options⟩
    FollowsOrder timeout (programmer.target? file before) (programmer.transfer file) before := by
  intro programmer
  cases hload : Image.load options.suffixUse file with
  | error fault => exact ⟨_, _, _, _, transfer_unreadable hload, .nil, rfl⟩
  | ok image =>
      obtain ⟨survey, chosen, middle, hchoose, hsurvey⟩ :=
        choose_follows timeout (programmer.criteriaFor image) before
      cases chosen with
      | error fault => exact ⟨_, _, _, _, transfer_unchosen hload hchoose, hsurvey _, rfl⟩
      | ok device =>
          have htarget : programmer.target? file before = some device := by
            simp only [target?, programmer, hload, Except.toOption, Option.bind_some]
            exact hchoose.outcome?_eq
          rw [htarget]
          cases hcheck : image.checkDevice device with
          | error fault =>
              exact ⟨_, _, _, _, transfer_mismatched hload hchoose hcheck, hsurvey _, rfl⟩
          | ok accepted =>
              have hwork : StaysOnSession (programmer.write image) := by
                intro session pace start
                obtain ⟨deeds, result, after, hwriting, hrun⟩ :=
                  programmer.write_performs image session pace start
                exact ⟨deeds, result, after, hrun, hwriting.staysWithin⟩
              obtain ⟨deeds, result, after, stop, hrun, hcourse, hrest⟩ :=
                withSession_followsOrder timeout device hwork middle
              exact ⟨_, _, _, stop, transfer_performs hload hchoose hcheck hrun,
                (hsurvey _).append hcourse, hrest⟩

theorem flash_followsOrder (file : ByteArray) (before : Moment Bus) :
    let programmer : Programmer Bus Nat := ⟨Bus.access timeout, options⟩
    FollowsOrder timeout (programmer.target? file before) (programmer.flash file) before := by
  obtain ⟨deeds, result, after, stop, hrun, hcourse, hrest⟩ :=
    transfer_followsOrder timeout options file before
  exact ⟨_, _, _, stop, flash_performs hrun, .cons (.host rfl) (hcourse.append
    (.single (.host rfl))), hrest⟩

theorem read_staysOnSession (programmer : Programmer Bus Nat) (limit : Option Nat) :
    StaysOnSession fun session _ => programmer.read limit session := by
  intro session pace before
  obtain ⟨deeds, result, after, hretrieving, hrun⟩ :=
    programmer.read_performs limit session before
  exact ⟨deeds, result, after, hrun, hretrieving.staysWithin⟩

theorem upload_followsOrder (limit : Option Nat) (before : Moment Bus) :
    let programmer : Programmer Bus Nat := ⟨Bus.access timeout, options⟩
    FollowsOrder timeout (programmer.origin? before) (programmer.upload limit) before := by
  intro programmer
  apply chosen_followsOrder timeout options.criteria
  intro device middle
  exact withSession_followsOrder timeout device (programmer.read_staysOnSession limit) middle

theorem detach_followsOrder (wait : UInt16) (before : Moment Bus) :
    let programmer : Programmer Bus Nat := ⟨Bus.access timeout, options⟩
    FollowsOrder timeout (programmer.origin? before) (programmer.detach wait) before := by
  refine chosen_followsOrder timeout options.criteria (fun device middle => ?_) before
  split
  · exact ⟨_, _, _, _, Action.performs_note _ middle, .nil, rfl⟩
  · refine withSession_followsOrder timeout device (fun session pace start => ?_) middle
    obtain ⟨deeds, result, after, hdetach, hwithin⟩ := session.detach_staysWithin wait start
    cases result with
    | error fault => exact ⟨_, _, _, hdetach.bind_error, hwithin⟩
    | ok done =>
        refine ⟨deeds, .ok (), after, hdetach.bind_silent ?_, hwithin⟩
        split
        · exact Action.performs_note _ after
        · exact Action.performs_pure () after

/-- Wherever an operation over the bus fails, it keeps custody of the devices. -/
theorem bus_operations_keep_custody :
    let programmer : Programmer Bus Nat := ⟨Bus.access timeout, options⟩
    (∀ criteria before, ∃ deeds result after,
      (Bus.find criteria).Performs before deeds result after ∧
        KeepsCustody timeout none before.world.attachments deeds) ∧
    (∀ file before, ∃ deeds result after,
      (programmer.flash file).Performs before deeds result after ∧
        KeepsCustody timeout (programmer.target? file before) before.world.attachments deeds) ∧
    (∀ limit before, ∃ deeds result after,
      (programmer.upload limit).Performs before deeds result after ∧
        KeepsCustody timeout (programmer.origin? before) before.world.attachments deeds) ∧
    (∀ wait before, ∃ deeds result after,
      (programmer.detach wait).Performs before deeds result after ∧
        KeepsCustody timeout (programmer.origin? before) before.world.attachments deeds) ∧
    ∀ before, ∃ deeds result after,
      programmer.status.Performs before deeds result after ∧
        KeepsCustody timeout (programmer.origin? before) before.world.attachments deeds := by
  intro programmer
  refine ⟨fun criteria before => ?_, fun file before => ?_, fun limit before => ?_,
    fun wait before => ?_, fun before => ?_⟩
  · obtain ⟨deeds, listed, after, hfinding, hfind⟩ := Bus.find_performs before
    exact ⟨deeds, _, after, hfind criteria, hfinding.course.keepsCustody rfl⟩
  · exact (flash_followsOrder timeout options file before).keepsCustody
  · exact (chosen_followsOrder timeout options.criteria (fun device middle =>
      withSession_followsOrder timeout device (programmer.read_staysOnSession limit) middle)
      before).keepsCustody
  · exact (detach_followsOrder timeout options wait before).keepsCustody
  · exact (chosen_followsOrder timeout options.criteria (fun device middle =>
      withSession_followsOrder timeout device
        (fun session _ start => session.getStatus_staysWithin start) middle) before).keepsCustody

end Programmer

end FirmwareUpgrade
