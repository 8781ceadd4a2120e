import FirmwareUpgrade.Bus.Access
import FirmwareUpgrade.Proofs.SessionRoute

/-!
# The course of the bus calls

What finding the devices on a bus and connecting to one of them can do, as relations like those for
the work of a session.  Finding is the same whatever the criteria are, which only decide what is
kept of the entries that were found.
-/

namespace FirmwareUpgrade

/-- The languages or a string of a device are read. -/
inductive Event.Reads (device : Nat) : Event → Prop
  | languages (timeout : Nat) : Reads device (.bus (.languages device timeout))
  | string (index : UInt8) (language : UInt16) (timeout : Nat) :
      Reads device (.bus (.string device index language timeout))

/-- The call serves to find devices. -/
def BusCall.probes : BusCall → Bool
  | .list | .openDevice _ | .languages _ _ | .string _ _ _ _ => true
  | .closeDevice _ | .claim _ _ | .selectAlternate _ _ _ | .release _ _ => false

/-- The event belongs to finding devices. -/
def Event.surveys : Event → Bool
  | .bus (.closeDevice _) => true
  | .bus call => call.probes
  | _ => false

theorem Event.exchange?_eq_none_of_surveys {event : Event} (hsurveys : event.surveys) :
    event.exchange? = none := by
  cases event <;> simp_all [surveys, exchange?]

namespace Bus

/-! ## The courses -/

inductive Examining (device : Nat) :
    Moment Bus → List Event → Except Fault (List (Device Nat)) → Moment Bus → Prop
  | unopened {before world error}
      (hopening : before.world.nextOpening device = (some error, world)) :
      Examining device before [.bus (.openDevice device)] (.error (.usb error))
        ⟨world, before.clock⟩
  | examined {before world calls entries}
      (hopening : before.world.nextOpening device = (none, world))
      (hcalls : ∀ event ∈ calls, event.Reads device) :
      Examining device before (.bus (.openDevice device) :: (calls ++ [.bus (.closeDevice device)]))
        (.ok entries) ⟨world, before.clock⟩

/-- One device is examined after the other; those that cannot be opened have no entries. -/
inductive Surveying : Moment Bus → List Event → List (Device Nat) → Moment Bus → Prop
  | done {moment} : Surveying moment [] [] moment
  | visited {device before middle after deeds more examined found}
      (hexamining : Examining device before deeds examined middle)
      (hrest : Surveying middle more found after) :
      Surveying before (deeds ++ more) (examined.toOption.getD [] ++ found) after

inductive Finding :
    Moment Bus → List Event → Except Fault (List (Device Nat)) → Moment Bus → Prop
  | unlisted {moment : Moment Bus} {error} (hlist : moment.world.listError = some error) :
      Finding moment [.bus .list] (.error (.usb error)) moment
  | surveyed {before after deeds found} (hlist : before.world.listError = none)
      (hsurveying : Surveying before deeds found after) :
      Finding before (.bus .list :: deeds) (.ok found) after

def claimError? (attachments : List Attachment) (device : Nat) : Option UsbError :=
  attachments[device]?.bind Attachment.claimError

def alternateError? (attachments : List Attachment) (device : Nat) : Option UsbError :=
  attachments[device]?.bind Attachment.alternateError

inductive Connecting (timeout : Nat) (device : Device Nat) :
    Moment Bus → List Event → Except Fault (PacedPipe Bus) → Moment Bus → Prop
  | unopened {before world error}
      (hopening : before.world.nextOpening device.handle = (some error, world)) :
      Connecting timeout device before [.bus (.openDevice device.handle)] (.error (.usb error))
        ⟨world, before.clock⟩
  | unclaimed {before world error}
      (hopening : before.world.nextOpening device.handle = (none, world))
      (hclaim : claimError? world.attachments device.handle = some error) :
      Connecting timeout device before
        [.bus (.openDevice device.handle), .bus (.claim device.handle device.interface),
          .bus (.closeDevice device.handle)]
        (.error (.usb error)) ⟨world, before.clock⟩
  | unselected {before world error}
      (hopening : before.world.nextOpening device.handle = (none, world))
      (hclaim : claimError? world.attachments device.handle = none)
      (halternate : alternateError? world.attachments device.handle = some error) :
      Connecting timeout device before
        [.bus (.openDevice device.handle), .bus (.claim device.handle device.interface),
          .bus (.selectAlternate device.handle device.interface device.alternate),
          .bus (.release device.handle device.interface), .bus (.closeDevice device.handle)]
        (.error (.usb error)) ⟨world, before.clock⟩
  | connected {before world}
      (hopening : before.world.nextOpening device.handle = (none, world))
      (hclaim : claimError? world.attachments device.handle = none)
      (halternate : alternateError? world.attachments device.handle = none) :
      Connecting timeout device before
        [.bus (.openDevice device.handle), .bus (.claim device.handle device.interface),
          .bus (.selectAlternate device.handle device.interface device.alternate)]
        (.ok ⟨pipe device.handle device.interface timeout,
          pace device.handle device.interface timeout⟩)
        ⟨world, before.clock⟩

/-! ## The bus takes these courses -/

section Calls

variable {ω : Type} {before : Moment Bus} {device : Nat} {interface alternate : UInt8}

def refusal (error : Option UsbError) : Except Fault Unit :=
  match error with
  | some error => .error (.usb error)
  | none => .ok ()

theorem raise_performs (error : Option UsbError) (moment : Moment ω) :
    (raise error : Action ω Unit).Performs moment [] (refusal error) moment := by
  cases error with
  | none => exact Action.performs_pure () moment
  | some error => exact Action.performs_fail _ moment

theorem call_performs (busCall : BusCall) (moment : Moment ω) :
    (call busCall : Action ω Unit).Performs moment [.bus busCall] (.ok ()) moment :=
  Action.performs_record (.bus busCall) rfl moment

theorem openDevice_performs {error : Option UsbError} {world : Bus}
    (hopening : before.world.nextOpening device = (error, world)) :
    (openDevice device).Performs before [.bus (.openDevice device)] (refusal error)
      ⟨world, before.clock⟩ := by
  have hlook := Action.performs_look (fun bus : Bus => bus.nextOpening device) before
  simp only [hopening] at hlook
  exact (call_performs _ before).bind_single (hlook.bind (raise_performs error _))

theorem attachment?_performs (device : Nat) (moment : Moment Bus) :
    (attachment? device).Performs moment [] (.ok moment.world.attachments[device]?) moment :=
  Action.performs_look (fun bus : Bus => (bus.attachments[device]?, bus)) moment

theorem claim_performs (device : Nat) (interface : UInt8) (moment : Moment Bus) :
    (claim device interface).Performs moment [.bus (.claim device interface)]
      (refusal (claimError? moment.world.attachments device)) moment :=
  (call_performs _ moment).bind_single
    ((attachment?_performs device moment).bind (raise_performs _ moment))

theorem selectAlternate_performs (device : Nat) (interface alternate : UInt8)
    (moment : Moment Bus) :
    (selectAlternate device interface alternate).Performs moment
      [.bus (.selectAlternate device interface alternate)]
      (refusal (alternateError? moment.world.attachments device)) moment :=
  (call_performs _ moment).bind_single
    ((attachment?_performs device moment).bind (raise_performs _ moment))

end Calls

theorem connected_performs {timeout : Nat} {device : Device Nat} {before : Moment Bus} {world : Bus}
    (hopening : before.world.nextOpening device.handle = (none, world))
    (hclaim : claimError? world.attachments device.handle = none)
    (halternate : alternateError? world.attachments device.handle = none) :
    (connect timeout device).Performs before
      [.bus (.openDevice device.handle), .bus (.claim device.handle device.interface),
        .bus (.selectAlternate device.handle device.interface device.alternate)]
      (.ok ⟨pipe device.handle device.interface timeout,
        pace device.handle device.interface timeout⟩)
      ⟨world, before.clock⟩ := by
  have hclaimed := claim_performs device.handle device.interface ⟨world, before.clock⟩
  have hselected := selectAlternate_performs device.handle device.interface device.alternate
    ⟨world, before.clock⟩
  simp only [hclaim] at hclaimed
  simp only [halternate] at hselected
  refine (openDevice_performs hopening).bind_single (hclaimed.attempt.bind_single ?_)
  exact hselected.attempt.bind_single (Action.performs_pure _ _)

theorem connect_performs (timeout : Nat) (device : Device Nat) (before : Moment Bus) :
    ∃ deeds result after, Connecting timeout device before deeds result after ∧
      (connect timeout device).Performs before deeds result after := by
  rcases hopening : before.world.nextOpening device.handle with ⟨error, world⟩
  have hopen := openDevice_performs hopening
  cases error with
  | some error => exact ⟨_, _, _, .unopened hopening, hopen.bind_error⟩
  | none =>
      have hclaimed := claim_performs device.handle device.interface ⟨world, before.clock⟩
      have hselected := selectAlternate_performs device.handle device.interface device.alternate
        ⟨world, before.clock⟩
      cases hclaim : claimError? world.attachments device.handle with
      | some error =>
          simp only [hclaim] at hclaimed
          refine ⟨_, _, _, .unclaimed hopening hclaim, hopen.bind_single ?_⟩
          refine hclaimed.attempt.bind_single ?_
          exact (call_performs _ _).bind_single (Action.performs_fail _ _)
      | none =>
          simp only [hclaim] at hclaimed
          cases halternate : alternateError? world.attachments device.handle with
          | some error =>
              simp only [halternate] at hselected
              refine ⟨_, _, _, .unselected hopening hclaim halternate, hopen.bind_single ?_⟩
              refine hclaimed.attempt.bind_single (hselected.attempt.bind_single ?_)
              refine (call_performs _ _).bind_single ?_
              exact (call_performs _ _).bind_single (Action.performs_fail _ _)
          | none =>
              exact ⟨_, _, _, .connected hopening hclaim halternate,
                connected_performs hopening hclaim halternate⟩

theorem readName_performs (device : Nat) (attachment : Attachment) (index : UInt8) :
    ∃ calls name, (∀ event ∈ calls, event.Reads device) ∧
      ∀ moment, (readName device attachment index).Performs moment calls (.ok name) moment := by
  unfold readName
  split
  · exact ⟨[], none, by simp, fun moment => Action.performs_pure none moment⟩
  · cases attachment.languages with
    | none =>
        refine ⟨[_], none, ?_, fun moment => (call_performs _ moment).bind_single
          (Action.performs_pure none moment)⟩
        simpa using Event.Reads.languages standardTimeout
    | some languages =>
        refine ⟨[_, _], _, ?_, fun moment => (call_performs _ moment).bind_single
          ((call_performs _ moment).bind_single (Action.performs_pure _ moment))⟩
        intro event hmem
        simp only [List.mem_cons, List.not_mem_nil, or_false] at hmem
        rcases hmem with rfl | rfl
        · exact .languages standardTimeout
        · exact .string index _ standardTimeout

theorem describe_performs (device : Nat) (attachment : Attachment) (configuration : UInt8)
    (setting : AlternateSetting) :
    ∃ calls entry, (∀ event ∈ calls, event.Reads device) ∧ ∀ moment,
      (describe device attachment configuration setting).Performs moment calls (.ok entry)
        moment := by
  obtain ⟨calls, name, hcalls, hname⟩ := readName_performs device attachment setting.nameIndex
  exact ⟨calls, _, hcalls, fun moment =>
    (hname moment).bind_silent (Action.performs_pure _ moment)⟩

theorem describeAll_performs (device : Nat) (attachment : Attachment)
    (settings : List (UInt8 × AlternateSetting)) :
    ∃ calls entries, (∀ event ∈ calls, event.Reads device) ∧ ∀ moment,
      (settings.mapM fun (configuration, setting) =>
        describe device attachment configuration setting).Performs moment calls (.ok entries)
          moment := by
  induction settings with
  | nil => exact ⟨[], [], by simp, fun moment => Action.performs_pure [] moment⟩
  | cons first settings ih =>
      obtain ⟨calls, entry, hcalls, hentry⟩ :=
        describe_performs device attachment first.1 first.2
      obtain ⟨more, entries, hmore, hrest⟩ := ih
      refine ⟨calls ++ more, entry :: entries, ?_, fun moment => ?_⟩
      · intro event hmem
        exact (List.mem_append.mp hmem).elim (hcalls event) (hmore event)
      · rw [List.mapM_cons]
        exact (hentry moment).bind
          ((hrest moment).bind_silent (Action.performs_pure _ moment))

theorem examine_performs (device : Nat) (attachment : Attachment) (before : Moment Bus) :
    ∃ deeds examined after, Examining device before deeds examined after ∧
      (examine device attachment).Performs before deeds examined after := by
  rcases hopening : before.world.nextOpening device with ⟨error, world⟩
  have hopen := openDevice_performs hopening
  cases error with
  | some error => exact ⟨_, _, _, .unopened hopening, hopen.bind_error⟩
  | none =>
      obtain ⟨calls, entries, hcalls, hdescribe⟩ :=
        describeAll_performs device attachment attachment.upgradeSettings
      have hclose : ∀ event ∈ [Event.bus (.closeDevice device)], event.isDeed := by
        simp [Event.isDeed]
      exact ⟨_, _, _, .examined hopening hcalls,
        hopen.bind_single ((hdescribe ⟨world, before.clock⟩).followedBy hclose)⟩

theorem examineOrSkip_performs {device : Nat} {attachment : Attachment} {before after : Moment Bus}
    {deeds : List Event} {examined : Except Fault (List (Device Nat))}
    (hexamine : (examine device attachment).Performs before deeds examined after)
    (criteria : Criteria) :
    (examineOrSkip criteria device attachment).Performs before deeds
      (.ok ((examined.toOption.getD []).filter criteria.matchesDevice)) after := by
  cases examined with
  | ok entries => exact hexamine.attempt.bind_silent (Action.performs_pure _ after)
  | error fault =>
      exact hexamine.attempt.bind_silent (.after_note (Action.performs_pure [] after))

theorem survey_performs (devices : List (Attachment × Nat)) (before : Moment Bus) :
    ∃ deeds found after, Surveying before deeds found after ∧ ∀ criteria : Criteria, ∃ lists,
      lists.flatten = found.filter criteria.matchesDevice ∧
      (devices.mapM fun (attachment, device) =>
        examineOrSkip criteria device attachment).Performs before deeds (.ok lists) after := by
  -- The criteria come after the events in the statement, as nothing that is done depends on them.
  induction devices generalizing before with
  | nil =>
      exact ⟨[], [], before, .done, fun criteria => ⟨[], rfl, Action.performs_pure [] before⟩⟩
  | cons first devices ih =>
      obtain ⟨deeds, examined, middle, hexamining, hexamine⟩ :=
        examine_performs first.2 first.1 before
      obtain ⟨more, found, after, hsurveying, hrest⟩ := ih middle
      refine ⟨_, _, after, .visited hexamining hsurveying, fun criteria => ?_⟩
      obtain ⟨lists, hlists, hrun⟩ := hrest criteria
      refine ⟨(examined.toOption.getD []).filter criteria.matchesDevice :: lists, ?_, ?_⟩
      · rw [List.flatten_cons, hlists, List.filter_append]
      · rw [List.mapM_cons]
        exact (examineOrSkip_performs hexamine criteria).bind
          (hrun.bind_silent (Action.performs_pure _ after))

theorem listDevices_performs (moment : Moment Bus) :
    listDevices.Performs moment [.bus .list]
      ((refusal moment.world.listError).map fun _ => moment.world.attachments.zipIdx) moment := by
  have hlook := Action.performs_look (fun bus : Bus => (bus, bus)) moment
  have hraise := raise_performs moment.world.listError moment
  refine (call_performs .list moment).bind_single (hlook.bind ?_)
  cases hlist : moment.world.listError with
  | some error =>
      rw [hlist] at hraise
      exact hraise.bind_error
  | none =>
      rw [hlist] at hraise
      exact hraise.bind_silent (Action.performs_pure _ moment)

theorem find_performs (before : Moment Bus) :
    ∃ deeds listed after, Finding before deeds listed after ∧ ∀ criteria : Criteria,
      (find criteria).Performs before deeds
        (listed.map fun found => found.filter criteria.matchesDevice) after := by
  have hdevices := listDevices_performs before
  cases hlist : before.world.listError with
  | some error =>
      rw [hlist] at hdevices
      exact ⟨_, _, _, .unlisted hlist, fun criteria => hdevices.bind_error⟩
  | none =>
      rw [hlist] at hdevices
      obtain ⟨deeds, found, after, hsurveying, hsurvey⟩ := survey_performs
        (before.world.attachments.zipIdx.filter fun entry => entry.1.seemsUpgradable) before
      refine ⟨_, _, after, .surveyed hlist hsurveying, fun criteria => ?_⟩
      obtain ⟨lists, hlists, hrun⟩ := hsurvey criteria
      refine hdevices.bind_single (hrun.bind_silent (.after_note ?_))
      rw [hlists]
      exact Action.performs_pure _ after

/-! ## What the courses leave alone -/

section Courses

variable {before after : Moment Bus} {deeds : List Event}

theorem Examining.surveys {device : Nat} {examined : Except Fault (List (Device Nat))}
    (hexamining : Examining device before deeds examined after) :
    ∀ event ∈ deeds, event.surveys := by
  intro event hmem
  cases hexamining with
  | unopened =>
      obtain rfl := List.mem_singleton.mp hmem
      rfl
  | examined hopening hcalls =>
      simp only [List.mem_cons, List.mem_append, List.not_mem_nil, or_false] at hmem
      rcases hmem with rfl | hmem | rfl
      · rfl
      · cases hcalls event hmem <;> rfl
      · rfl

theorem Surveying.surveys {found : List (Device Nat)}
    (hsurveying : Surveying before deeds found after) : ∀ event ∈ deeds, event.surveys := by
  induction hsurveying with
  | done => simp
  | visited hexamining hrest ih =>
      intro event hmem
      rcases List.mem_append.mp hmem with hmem | hmem
      · exact hexamining.surveys event hmem
      · exact ih event hmem

theorem Finding.surveys {listed : Except Fault (List (Device Nat))}
    (hfinding : Finding before deeds listed after) : ∀ event ∈ deeds, event.surveys := by
  cases hfinding with
  | unlisted => simp [Event.surveys, BusCall.probes]
  | surveyed hlist hsurveying => simpa [Event.surveys, BusCall.probes] using hsurveying.surveys

theorem Connecting.exchanges_eq_nil {timeout : Nat} {device : Device Nat}
    {result : Except Fault (PacedPipe Bus)}
    (hconnecting : Connecting timeout device before deeds result after) : exchanges deeds = [] := by
  cases hconnecting <;> rfl

theorem eq_of_mem_parting {timeout : Nat} {device : Device Nat} {event : Event}
    (hmem : event ∈ (access timeout).parting device) :
    event = .bus (.release device.handle device.interface) ∨
      event = .bus (.closeDevice device.handle) := by
  simpa [access] using hmem

theorem access_discreet (timeout : Nat) : (access timeout).Discreet where
  list criteria before := by
    obtain ⟨deeds, listed, after, hfinding, hfind⟩ := find_performs before
    refine ⟨deeds, _, after, hfind criteria, List.filterMap_eq_nil_iff.mpr fun event hmem => ?_⟩
    exact Event.exchange?_eq_none_of_surveys (hfinding.surveys event hmem)
  connect device before := by
    obtain ⟨deeds, result, after, hconnecting, hconnect⟩ := connect_performs timeout device before
    exact ⟨deeds, result, after, hconnect, hconnecting.exchanges_eq_nil⟩
  parting device event hmem := by
    rcases eq_of_mem_parting hmem with rfl | rfl
    · exact ⟨rfl, rfl⟩
    · exact ⟨rfl, rfl⟩

end Courses

end Bus

end FirmwareUpgrade
