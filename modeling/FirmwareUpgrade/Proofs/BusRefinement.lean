import FirmwareUpgrade.Proofs.BusOperations
import FirmwareUpgrade.Proofs.MirroredTransfers
import Mathlib.Data.List.Basic

/-!
# The bus without its calls

An operation over the bus is compared with the same operation on devices that are reached directly.
These are the devices that are found on the bus, a device can be opened if it can be opened, claimed
and given its alternate setting on the bus, and all of them answer from the script of the bus.  Both
operations act alike, and each transfer over the bus is one that is demanded of a device directly.
-/

namespace FirmwareUpgrade

variable {ω ω' H H' α : Type}

/-! ## Transfers on the bus -/

/-- The data that follows a transfer, or how many bytes of data are asked for. -/
inductive DataStage where
  | sent (data : ByteArray)
  | asked (length : UInt16)

/-- A control transfer with the fields of its setup packet (`bmRequestType`, `bRequest`, `wValue`,
`wIndex`). -/
structure UsbTransfer where
  device : Nat
  requestType : UInt8
  request : UInt8
  value : UInt16
  index : UInt16
  stage : DataStage
  timeout : Nat

def Exchange.value : Exchange → UInt16
  | .out _ value _ _ | .receive _ value _ _ => value

def Exchange.stage : Exchange → DataStage
  | .out _ _ data _ => .sent data
  | .receive _ _ length _ => .asked length

def Event.usbTransfer? : Event → Option UsbTransfer
  | .exchange (.bus device interface timeout) transfer _ =>
    some {
      device
      requestType := transfer.requestType
      request := transfer.request.code
      value := transfer.value
      index := interface.toUInt16
      stage := transfer.stage
      timeout }
  | _ => none

def usbTransfers (events : List Event) : List UsbTransfer :=
  events.filterMap Event.usbTransfer?

/-- What is demanded of a device, as a transfer over the bus to its interface. -/
def Demand.overBus (timeout : Nat) (device : Device Nat) : Demand → UsbTransfer
  | .send request value data =>
    ⟨device.handle, 0x21, request.code, value, device.interface.toUInt16, .sent data, timeout⟩
  | .receive request value length =>
    ⟨device.handle, 0xA1, request.code, value, device.interface.toUInt16, .asked length, timeout⟩

/-- All that is demanded is carried over the bus to the goal, and nothing else is. -/
def CarriesOut (timeout : Nat) (goal : Option (Device Nat)) (demanded : List Demand)
    (transfers : List UsbTransfer) : Prop :=
  match goal with
  | some device => transfers = demanded.map (Demand.overBus timeout device)
  | none => demanded = [] ∧ transfers = []

theorem Exchange.usbTransfer?_eq (transfer : Exchange) (device : Device Nat) (timeout delay : Nat) :
    (Event.exchange (.bus device.handle device.interface timeout) transfer delay).usbTransfer? =
      some (transfer.demand.overBus timeout device) := by
  cases transfer <;> rfl

theorem Event.usbTransfer?_eq_none {event : Event} (hnone : event.exchange? = none) :
    event.usbTransfer? = none := by
  cases event <;> simp_all [usbTransfer?, exchange?]

theorem Bus.KeepsCustody.carriesOut {timeout : Nat} {goal : Option (Device Nat)}
    {attachments : List Attachment} {deeds : List Event}
    (hcustody : KeepsCustody timeout goal attachments deeds) :
    CarriesOut timeout goal (demands deeds) (usbTransfers deeds) := by
  have hroute : ∀ route transfer delay, .exchange route transfer delay ∈ deeds →
      ∃ meant, goal = some meant ∧ route = .bus meant.handle meant.interface timeout := by
    intro route transfer delay hmem
    obtain ⟨earlier, later, hsplit⟩ := List.append_of_mem hmem
    obtain ⟨meant, hgoal, hroute, -⟩ := hcustody.transfers earlier route transfer delay later hsplit
    exact ⟨meant, hgoal, hroute⟩
  cases goal with
  | none =>
      have hnone : ∀ event ∈ deeds, event.exchange? = none := by
        intro event hmem
        cases event with
        | exchange route transfer delay =>
            obtain ⟨meant, hgoal, -⟩ := hroute route transfer delay hmem
            cases hgoal
        | _ => rfl
      constructor
      · rw [demands, exchanges, List.filterMap_eq_nil_iff.mpr hnone, List.map_nil]
      · exact List.filterMap_eq_nil_iff.mpr fun event hmem =>
          Event.usbTransfer?_eq_none (hnone event hmem)
  | some device =>
      change usbTransfers deeds = _
      rw [demands, exchanges, List.map_map, List.map_filterMap]
      apply List.filterMap_congr
      intro event hmem
      cases event with
      | exchange route transfer delay =>
          obtain ⟨meant, hgoal, rfl⟩ := hroute route transfer delay hmem
          cases hgoal
          exact transfer.usbTransfer?_eq device timeout delay
      | _ => rfl

/-! ## Work on both sides -/

theorem Image.inspect_mirrors {related : ω → ω' → Prop} (policy : SuffixUse) (file : ByteArray) :
    Action.Mirrors related Eq (Image.inspect policy file) (Image.inspect policy file) :=
  fun before before' hbefore =>
    .intro (Image.inspect_performs policy file before) (Image.inspect_performs policy file before')
      rfl (resultsAgree_eq_iff.mpr rfl) hbefore

namespace Programmer

variable {related : ω → ω' → Prop} {access : Access ω H} {access' : Access ω' H'}
  {session : Session ω} {session' : Session ω'} (options : TransferOptions)
  (hsession : session.Mirrors related session')

include hsession

theorem chunkSize_mirrors :
    Action.Mirrors related Eq ((⟨access, options⟩ : Programmer ω H).chunkSize session)
      ((⟨access', options⟩ : Programmer ω' H').chunkSize session') := by
  unfold chunkSize
  rw [hsession.descriptor, hsession.packetSize]
  exact Action.mirrors_ofExcept (resultsAgree_eq_iff.mpr rfl)

theorem write_mirrors (image : Image) (pace : Pace session.pipe) (pace' : Pace session'.pipe) :
    Action.Mirrors related Eq ((⟨access, options⟩ : Programmer ω H).write image session pace)
      ((⟨access', options⟩ : Programmer ω' H').write image session' pace') := by
  apply (Session.reachIdle_mirrors hsession).bind
  intro _ _ _
  apply (chunkSize_mirrors options hsession).bind
  rintro chunk _ rfl
  apply Action.Mirrors.after_note
  exact (Session.downloadPayload_mirrors hsession pace pace' chunk image.payload).mapFault .download

theorem read_mirrors (limit : Option Nat) :
    Action.Mirrors related Eq ((⟨access, options⟩ : Programmer ω H).read limit session)
      ((⟨access', options⟩ : Programmer ω' H').read limit session') := by
  apply (Session.reachIdle_mirrors hsession).bind
  intro _ _ _
  apply (chunkSize_mirrors options hsession).bind
  rintro chunk _ rfl
  exact Session.uploadWithin_mirrors hsession Upload.sizeBound chunk limit

end Programmer

namespace Bus

/-! ## The abstraction -/

/-- The first of the refusals of an opening, a claim and a selection. -/
def refusal? (bus : Bus) (device : Device Nat) : Option UsbError :=
  (openingError? bus.attachments device.handle).or
    ((claimError? bus.attachments device.handle).or
      (alternateError? bus.attachments device.handle))

/-- The moment after the bus has been searched for devices. -/
def surveyed (before : Moment Bus) : Moment Bus :=
  ((find .any).run before.host).2.moment

/-- The devices that are found on the bus, reached directly. -/
def abstraction (before : Moment Bus) : Access Script Nat where
  list criteria := Action.ofExcept ((find criteria).run before.host).1
  connect device := do
    Action.record (.opened device.handle)
    raise ((surveyed before).world.refusal? device)
    return Script.pacedPipe (.direct device.interface)
  parting _ := [.dropped]

/-- The moment as it is without the bus. -/
def scripted (moment : Moment Bus) : Moment Script :=
  ⟨moment.world.script, moment.clock⟩

/-- The script is the one of the bus. -/
abbrev SharesScript (bus : Bus) (script : Script) : Prop :=
  script = bus.script

theorem pipe_mirrors (device : Nat) (interface : UInt8) (timeout : Nat) (route : Route)
    (deviations : Deviations) :
    (pipe device interface timeout).Mirrors SharesScript deviations (Script.pipe route) where
  onOut := by
    rintro request value data bus _ rfl
    rcases hreaction : bus.script.take request data with ⟨⟨result, delay⟩, script⟩
    simp only [pipe, Script.pipe, hreaction]
    refine ⟨⟨?_, rfl⟩, trivial⟩
    cases result with
    | ok taken => exact .ok trivial
    | error error => exact .error error
  onIn := by
    rintro request value length bus _ rfl
    rcases hreaction : bus.script.answer length with ⟨⟨result, delay⟩, script⟩
    simp only [pipe, Script.pipe, hreaction]
    refine ⟨⟨?_, rfl⟩, trivial⟩
    cases result with
    | ok bytes => exact .ok (answersAgree_self deviations request bytes)
    | error error => exact .error error

theorem session_mirrors (device : Device Nat) (timeout : Nat) (route : Route) :
    (device.session (pipe device.handle device.interface timeout)).Mirrors SharesScript
      (device.session (Script.pipe route)) :=
  ⟨pipe_mirrors _ _ _ _ _, rfl, rfl, rfl⟩

/-! ## What the calls of the bus leave alone -/

section Calls

variable {before after : Moment Bus} {deeds : List Event}

theorem acts_eq_nil_of_surveys (hsurveys : ∀ event ∈ deeds, event.surveys) : acts deeds = [] := by
  apply List.filterMap_eq_nil_iff.mpr
  intro event hmem
  have hevent := hsurveys event hmem
  cases event <;> simp_all [Event.surveys, Event.act?]

theorem nextOpening_script {bus world : Bus} {device : Nat} {error : Option UsbError}
    (hopening : bus.nextOpening device = (error, world)) : world.script = bus.script := by
  unfold nextOpening at hopening
  split at hopening
  · obtain ⟨-, rfl⟩ := Prod.mk.inj hopening
    rfl
  · obtain ⟨-, rfl⟩ := Prod.mk.inj hopening
    rfl

theorem Surveying.script {found : List (Device Nat)}
    (hsurveying : Surveying before deeds found after) :
    after.world.script = before.world.script := by
  induction hsurveying with
  | done => rfl
  | visited hexamining hrest ih =>
      rw [ih]
      cases hexamining with
      | unopened hopening => exact nextOpening_script hopening
      | examined hopening => exact nextOpening_script hopening

theorem Finding.script {listed : Except Fault (List (Device Nat))}
    (hfinding : Finding before deeds listed after) : after.world.script = before.world.script := by
  cases hfinding with
  | unlisted => rfl
  | surveyed hlist hsurveying => exact hsurveying.script

/-- An opening changes only what comes of further openings. -/
theorem bind_afterOpening (attachments : List Attachment) (device : Nat)
    {view : Attachment → Option UsbError}
    (hview : ∀ attachment openings, view { attachment with openings } = view attachment) :
    (afterOpening attachments device)[device]?.bind view = attachments[device]?.bind view := by
  unfold afterOpening
  cases hattachment : attachments[device]? with
  | none =>
      dsimp only
      rw [hattachment]
  | some attachment =>
      obtain ⟨hinside, -⟩ := List.getElem?_eq_some_iff.mp hattachment
      dsimp only
      rw [List.getElem?_set_self hinside]
      exact hview attachment _

/-- A search performs no acts and leaves the script alone, whatever is searched for. -/
theorem find_surveys (before : Moment Bus) :
    ∃ deeds, acts deeds = [] ∧ (surveyed before).world.script = before.world.script ∧
      ∀ criteria : Criteria, (find criteria).Performs before deeds
        ((find criteria).run before.host).1 (surveyed before) := by
  obtain ⟨deeds, listed, after, hfinding, hfind⟩ := find_performs before
  have hafter : surveyed before = after := by
    obtain ⟨last, hrun, hmoment, -⟩ := (hfind .any).run before.host rfl
    rw [surveyed, hrun, hmoment]
  have hlisted : ∀ criteria, ((find criteria).run before.host).1 =
      listed.map fun found => found.filter criteria.matchesDevice := by
    intro criteria
    obtain ⟨last, hrun, -⟩ := (hfind criteria).run before.host rfl
    rw [hrun]
  refine ⟨deeds, acts_eq_nil_of_surveys hfinding.surveys, ?_, fun criteria => ?_⟩
  · rw [hafter, hfinding.script]
  · rw [hafter, hlisted]
    exact hfind criteria

theorem refusal?_eq {bus world : Bus} {device : Device Nat} {error : Option UsbError}
    (hopening : bus.nextOpening device.handle = (error, world)) :
    bus.refusal? device = error.or
      ((claimError? world.attachments device.handle).or
        (alternateError? world.attachments device.handle)) := by
  obtain ⟨rfl, hworld⟩ := nextOpening_eq hopening
  have hclaim : claimError? world.attachments device.handle =
      claimError? bus.attachments device.handle := by
    rw [← hworld]
    exact bind_afterOpening _ _ fun _ _ => rfl
  have halternate : alternateError? world.attachments device.handle =
      alternateError? bus.attachments device.handle := by
    rw [← hworld]
    exact bind_afterOpening _ _ fun _ _ => rfl
  rw [hclaim, halternate]
  rfl

/-- The bus refuses to connect exactly if one of the calls is refused. -/
theorem Connecting.refusal_eq {timeout : Nat} {device : Device Nat}
    {connected : Except Fault (PacedPipe Bus)}
    (hconnecting : Connecting timeout device before deeds connected after) :
    refusal (before.world.refusal? device) = connected.map fun _ => () := by
  cases hconnecting with
  | unopened hopening =>
      rw [refusal?_eq hopening]
      rfl
  | unclaimed hopening hclaim =>
      rw [refusal?_eq hopening, hclaim]
      rfl
  | unselected hopening hclaim halternate =>
      rw [refusal?_eq hopening, hclaim, halternate]
      rfl
  | connected hopening hclaim halternate =>
      rw [refusal?_eq hopening, hclaim, halternate]
      rfl

theorem Connecting.quiet {timeout : Nat} {device : Device Nat}
    {connected : Except Fault (PacedPipe Bus)}
    (hconnecting : Connecting timeout device before deeds connected after) :
    acts deeds = [] ∧ after.world.script = before.world.script ∧ after.clock = before.clock := by
  cases hconnecting with
  | unopened hopening => exact ⟨rfl, nextOpening_script hopening, rfl⟩
  | unclaimed hopening => exact ⟨rfl, nextOpening_script hopening, rfl⟩
  | unselected hopening => exact ⟨rfl, nextOpening_script hopening, rfl⟩
  | connected hopening => exact ⟨rfl, nextOpening_script hopening, rfl⟩

end Calls

/-! ## Both sides agree -/

variable {timeout : Nat} {before : Moment Bus} {moment' : Moment Script}

theorem connect_agree (device : Device Nat)
    (hmoment : (surveyed before).Agrees SharesScript moment') :
    Action.Agree SharesScript
      (fun opened opened' => (device.session opened.pipe).Mirrors SharesScript
        (device.session opened'.pipe))
      ((access timeout).connect device) ((abstraction before).connect device)
      (surveyed before) moment' := by
  obtain ⟨deeds, connected, after, hconnecting, hconnect⟩ :=
    connect_performs timeout device (surveyed before)
  obtain ⟨hacts, hscript, hclock⟩ := hconnecting.quiet
  have hafter : after.Agrees SharesScript moment' :=
    ⟨hmoment.world.trans hscript.symm, hmoment.clock.trans hclock.symm⟩
  have hopen := Action.performs_record (.opened device.handle) rfl moment'
  have hraise := raise_performs ((surveyed before).world.refusal? device) moment'
  rw [hconnecting.refusal_eq] at hraise
  cases connected with
  | error fault =>
      have hconnect' : ((abstraction before).connect device).Performs moment'
          [.opened device.handle] (.error fault) moment' := hopen.bind hraise.bind_error
      exact .intro hconnect hconnect' hacts.symm (.error fault) hafter
  | ok opened =>
      have hpipe := Action.performs_pure (Script.pacedPipe (.direct device.interface)) moment'
      have hconnect' : ((abstraction before).connect device).Performs moment'
          [.opened device.handle] (.ok (Script.pacedPipe (.direct device.interface))) moment' :=
        hopen.bind (hraise.bind hpipe)
      apply Action.Agree.intro hconnect hconnect' hacts.symm _ hafter
      cases hconnecting
      exact .ok (session_mirrors device timeout _)

theorem withSession_agree (device : Device Nat)
    {work : (session : Session Bus) → Pace session.pipe → Action Bus α}
    {work' : (session : Session Script) → Pace session.pipe → Action Script α}
    (hwork : ∀ {session session'}, session.Mirrors SharesScript session' → ∀ pace pace',
      Action.Mirrors SharesScript Eq (work session pace) (work' session' pace'))
    (hmoment : (surveyed before).Agrees SharesScript moment') :
    Action.Agree SharesScript Eq ((access timeout).withSession device work)
      ((abstraction before).withSession device work') (surveyed before) moment' := by
  apply (connect_agree device hmoment).bind
  intro deeds opened opened' middle middle' _ hsession hmiddle
  apply Action.Agree.followedBy
  · exact Action.Mirrors.after_note _ _ (hwork hsession opened.pace opened'.pace) hmiddle
  · exact (access_discreet timeout).parting_isDeed device
  · intro event hmem
    rw [List.mem_singleton.mp hmem]
    rfl
  · rfl

/-- An operation on the one device that meets some criteria. -/
theorem chosen_agree (criteria : Criteria) {next : Device Nat → Action Bus α}
    {next' : Device Nat → Action Script α}
    (hnext : ∀ device {moment'}, (surveyed before).Agrees SharesScript moment' →
      Action.Agree SharesScript Eq (next device) (next' device) (surveyed before) moment')
    (hmoment : before.Agrees SharesScript moment') :
    Action.Agree SharesScript Eq ((access timeout).choose criteria >>= next)
      ((abstraction before).choose criteria >>= next') before moment' := by
  obtain ⟨deeds, hacts, hscript, hfind⟩ := find_surveys before
  have hclock : (surveyed before).clock = before.clock := by
    rw [(hfind criteria).clock, elapsed_eq_foldr_acts, hacts]
    rfl
  have hchoose : ((access timeout).choose criteria).Performs before deeds
      (((find criteria).run before.host).1.bind Access.onlyOf) (surveyed before) :=
    Access.choose_performs (hfind criteria)
  have hchoose' : ((abstraction before).choose criteria).Performs moment' []
      (((find criteria).run before.host).1.bind Access.onlyOf) moment' :=
    Access.choose_performs (Action.performs_ofExcept _ moment')
  have hagree : Action.Agree SharesScript Eq ((access timeout).choose criteria)
      ((abstraction before).choose criteria) before moment' := by
    apply Action.Agree.intro hchoose hchoose' hacts.symm
    · exact resultsAgree_eq_iff.mpr rfl
    · exact ⟨hmoment.world.trans hscript.symm, hmoment.clock.trans hclock.symm⟩
  apply hagree.bind
  rintro found device _ middle middle' hchosen rfl hmiddle
  obtain ⟨-, -, rfl⟩ := hchoose.unique hchosen
  exact hnext device hmiddle

/-! ## Refinement -/

theorem eq_scripted {moment : Moment Bus} (hmoment : moment.Agrees SharesScript moment') :
    moment' = scripted moment := by
  cases moment'
  exact congr (congrArg Moment.mk hmoment.world) hmoment.clock

/-- Over the bus the action ends like its model without the bus, with the same result, at the same
time and with the same script left.  Until then both act alike and report the same, and what the
model demands of a device is carried over the bus to the goal. -/
def Refines (timeout : Nat) (goal : Option (Device Nat)) (action : Action Bus α)
    (model : Action Script α) (before : Moment Bus) : Prop :=
  ∃ deeds deeds' result after, action.Performs before deeds result after ∧
    model.Performs (scripted before) deeds' result (scripted after) ∧
    progressReports deeds' = progressReports deeds ∧
    (∀ report : Report, report.after deeds' = report.after deeds) ∧
    acts deeds' = acts deeds ∧ CarriesOut timeout goal (demands deeds') (usbTransfers deeds)

theorem FollowsOrder.refines {goal : Option (Device Nat)} {action : Action Bus α}
    {model : Action Script α} (hfollows : FollowsOrder timeout goal action before)
    (hagree : Action.Agree SharesScript Eq action model before (scripted before)) :
    Refines timeout goal action model before := by
  obtain ⟨deeds, result, after, hrun, hcustody⟩ := hfollows.keepsCustody
  cases hagree with
  | intro hfirst hsecond hacts hresult hafter =>
      obtain ⟨rfl, rfl, rfl⟩ := hfirst.unique hrun
      rw [resultsAgree_eq_iff.mp hresult, eq_scripted hafter] at hsecond
      refine ⟨deeds, _, result, after, hrun, hsecond, ?_, ?_, hacts, ?_⟩
      · rw [progressReports_eq, hacts, ← progressReports_eq]
      · intro report
        rw [report.after_eq_foldl_acts, hacts, ← report.after_eq_foldl_acts]
      · rw [demands_eq, hacts, ← demands_eq]
        exact hcustody.carriesOut

end Bus

namespace Programmer

open Bus

variable {timeout : Nat} {options : TransferOptions} {before : Moment Bus}
  {moment' : Moment Script}

/-! ## The operations agree -/

theorem transfer_agree (file : ByteArray) (hmoment : before.Agrees SharesScript moment') :
    let programmer : Programmer Bus Nat := ⟨Bus.access timeout, options⟩
    let model : Programmer Script Nat := ⟨abstraction before, options⟩
    Action.Agree SharesScript Eq (programmer.transfer file) (model.transfer file) before
      moment' := by
  intro programmer model
  apply (Image.inspect_mirrors options.suffixUse file hmoment).bind
  rintro loading image _ middle middle' hinspect rfl hmiddle
  obtain ⟨-, -, rfl⟩ := (Image.inspect_performs options.suffixUse file before).unique hinspect
  apply chosen_agree
  · intro device started hstarted
    apply (Action.mirrors_ofExcept (resultsAgree_eq_iff.mpr rfl) hstarted).bind
    intro checking _ _ checked checked' hcheck _ hchecked
    obtain ⟨-, -, rfl⟩ := (Action.performs_ofExcept _ _).unique hcheck
    exact withSession_agree device (fun hsession => write_mirrors options hsession image) hchecked
  · exact hmiddle

theorem flash_agree (file : ByteArray) (hmoment : before.Agrees SharesScript moment') :
    let programmer : Programmer Bus Nat := ⟨Bus.access timeout, options⟩
    let model : Programmer Script Nat := ⟨abstraction before, options⟩
    Action.Agree SharesScript Eq (programmer.flash file) (model.flash file) before moment' := by
  intro programmer model
  have hstarting : Action.Agree SharesScript Eq (Action.record .started) (Action.record .started)
      before moment' := Action.mirrors_record rfl hmoment
  apply hstarting.bind
  intro starting _ _ started started' hstart _ hstarted
  obtain ⟨-, -, rfl⟩ := (Action.performs_record .started rfl before).unique hstart
  apply (transfer_agree file hstarted).attempt.bind
  intro _ result result' _ _ _ hresult hlast
  cases hresult with
  | ok => exact Action.mirrors_record rfl hlast
  | error fault =>
      apply (Action.Mirrors.after_note _ _ _) hlast
      apply (Action.mirrors_record rfl).bind
      intro _ _ _
      exact Action.mirrors_fail fault

theorem upload_agree (limit : Option Nat) (hmoment : before.Agrees SharesScript moment') :
    let programmer : Programmer Bus Nat := ⟨Bus.access timeout, options⟩
    let model : Programmer Script Nat := ⟨abstraction before, options⟩
    Action.Agree SharesScript Eq (programmer.upload limit) (model.upload limit) before moment' := by
  intro programmer model
  apply chosen_agree
  · intro device started hstarted
    exact withSession_agree device (fun hsession _ _ => read_mirrors options hsession limit)
      hstarted
  · exact hmoment

/-- Over any bus a flash and an upload refine the same operation without the bus. -/
theorem bus_refines_abstraction (timeout : Nat) (options : TransferOptions) (before : Moment Bus) :
    let programmer : Programmer Bus Nat := ⟨Bus.access timeout, options⟩
    let model : Programmer Script Nat := ⟨abstraction before, options⟩
    (∀ file, Refines timeout (programmer.target? file before) (programmer.flash file)
      (model.flash file) before) ∧
    ∀ limit, Refines timeout (programmer.origin? before) (programmer.upload limit)
      (model.upload limit) before := by
  intro programmer model
  have hscripted : before.Agrees SharesScript (scripted before) := ⟨rfl, rfl⟩
  constructor
  · intro file
    exact (flash_followsOrder timeout options file before).refines (flash_agree file hscripted)
  · intro limit
    exact (upload_followsOrder timeout options limit before).refines (upload_agree limit hscripted)

end Programmer

end FirmwareUpgrade
