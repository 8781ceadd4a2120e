import FirmwareUpgrade.Proofs.BusOperations
import FirmwareUpgrade.Proofs.ReadyDevice

/-!
# The device that firmware is meant for

A flash opens a device only if the file could be read and exactly one of the devices that were found
meets the criteria of the user together with the identifiers in the file.  It opens no other one and
sends no firmware before the device is ready.  In every other case it ends with a fault that says
which of these conditions is not met, and nothing was done but to find the devices.
-/

namespace FirmwareUpgrade

variable {ω H : Type}

/-! ## Criteria and images -/

namespace Criteria

theorem effective_adoptId_of_some {wish special : Option UInt16} {asked : UInt16} {dfuMode : Bool}
    (hasked : effective dfuMode wish special = some asked) (id : UInt16) :
    effective dfuMode (adoptId wish id) special = some asked := by
  cases wish with
  | some wished => exact hasked
  | none =>
      cases dfuMode with
      | false => contradiction
      | true =>
          cases special with
          | none => contradiction
          | some wished => exact hasked

theorem effective_adoptId_of_none {wish special : Option UInt16} {dfuMode : Bool}
    (hopen : effective dfuMode wish special = none) (id : UInt16) :
    effective dfuMode (adoptId wish id) special = if id = wildcard then none else some id := by
  cases dfuMode with
  | false =>
      obtain rfl : wish = none := hopen
      rfl
  | true =>
      obtain ⟨rfl, rfl⟩ : special = none ∧ wish = none := Option.or_eq_none_iff.mp hopen
      rfl

/-- An identifier that is adopted counts only where none is asked for. -/
theorem admits_adoptId_iff {wish special : Option UInt16} {id value : UInt16} {dfuMode : Bool} :
    admits (effective dfuMode (adoptId wish id) special) value ↔
      admits (effective dfuMode wish special) value ∧
        (id = wildcard ∨ (effective dfuMode wish special).isSome ∨ value = id) := by
  cases heffective : effective dfuMode wish special with
  | some asked => simp [effective_adoptId_of_some heffective]
  | none =>
      rw [effective_adoptId_of_none heffective]
      by_cases hopen : id = wildcard
      · simp [hopen, admits]
      · simp [hopen, admits]

theorem matchesDevice_adopt_iff {criteria : Criteria} {vendor product : UInt16}
    {device : Device H} :
    (criteria.adopt vendor product).matchesDevice device ↔
      criteria.matchesDevice device ∧
      (vendor = wildcard ∨
        (effective device.dfuMode criteria.vendor criteria.dfuVendor).isSome ∨
        device.vendor = vendor) ∧
      (product = wildcard ∨
        (effective device.dfuMode criteria.product criteria.dfuProduct).isSome ∨
        device.product = product) := by
  simp only [matchesDevice, adopt, Bool.and_eq_true, admits_adoptId_iff]
  grind

end Criteria

/-- Each identifier that the image names is that of the device. -/
def Image.Suits (image : Image) (device : Device H) : Prop :=
  (image.vendor ≠ wildcard → image.vendor = device.vendor) ∧
    (image.product ≠ wildcard → image.product = device.product)

theorem Image.checkDevice_eq (image : Image) (device : Device H) :
    image.Suits device ∧ image.checkDevice device = .ok () ∨
      ¬ image.Suits device ∧ image.checkDevice device =
        .error (.idMismatch image.vendor image.product device.vendor device.product) := by
  have hsuits : image.Suits device ↔
      (image.vendor = wildcard ∨ image.vendor = device.vendor) ∧
        (image.product = wildcard ∨ image.product = device.product) :=
    and_congr Decidable.or_iff_not_imp_left.symm Decidable.or_iff_not_imp_left.symm
  unfold checkDevice
  split
  · next haccepted => exact .inl ⟨hsuits.mpr haccepted, rfl⟩
  · next hrefused => exact .inr ⟨fun h => hrefused (hsuits.mp h), rfl⟩

/-! ## Accesses that touch one device only -/

def Route.LeadsTo (device : Device Nat) : Route → Prop
  | .direct interface => interface = device.interface
  | .bus handle interface _ => handle = device.handle ∧ interface = device.interface

/-- Whatever device, interface and alternate setting the event names are those of the device. -/
def Event.Concerns (device : Device Nat) : Event → Prop
  | .exchange route _ _ => route.LeadsTo device
  | .opened handle => handle = device.handle
  | .bus (.openDevice handle) | .bus (.closeDevice handle) => handle = device.handle
  | .bus (.claim handle interface) | .bus (.release handle interface) =>
    handle = device.handle ∧ interface = device.interface
  | .bus (.selectAlternate handle interface alternate) =>
    handle = device.handle ∧ interface = device.interface ∧ alternate = device.alternate
  | .bus .list | .bus (.languages _ _) | .bus (.string _ _ _ _) => False
  | .sleep _ | .notice _ | .started | .finished _ | .downloaded _ _ | .uploaded _ _ | .dropped
  | .saved _ _ => True

def Event.Opens (device : Device Nat) : Event → Prop
  | .opened handle | .bus (.openDevice handle) => handle = device.handle
  | _ => False

theorem Event.concerns_of_within {device : Device Nat} {route : Route} (event : Event)
    (hroute : route.LeadsTo device) (hwithin : event.Within route) : event.Concerns device := by
  cases hwithin with
  | transfer => exact hroute
  | host hhost => cases event <;> simp_all [isHostOnly, Concerns]

/-- Whatever the criteria are, listing devices makes the same survey, and they only decide which of
the devices that were found are kept. -/
def Access.Surveys (access : Access ω H) (before : Moment ω) (survey : List Event)
    (listed : Except Fault (List (Device H))) (surveyed : Moment ω) : Prop :=
  (∀ event ∈ survey, event.surveys) ∧ ∀ criteria : Criteria,
    (access.list criteria).Performs before survey
      (listed.map fun found => found.filter criteria.matchesDevice) surveyed

/-- Listing makes a survey, and a device is opened and given up without touching any other one. -/
structure Access.Directed (access : Access ω Nat) : Prop where
  list : ∀ before, ∃ survey listed surveyed, access.Surveys before survey listed surveyed
  connect : ∀ device before, ∃ first deeds result after,
    (access.connect device).Performs before (first :: deeds) result after ∧
      first.Opens device ∧
      (∀ event ∈ first :: deeds, event.exchange? = none ∧ event.Concerns device) ∧
      ∀ opened, result = .ok opened → opened.pipe.route.LeadsTo device
  parting : ∀ device, ∀ event ∈ access.parting device,
    event.isDeed ∧ event.exchange? = none ∧ event.Concerns device

theorem Bench.access_directed (bench : Bench) : bench.access.Directed where
  list before := by
    cases hfault : bench.listFault with
    | some fault =>
        refine ⟨[], .error fault, before, by simp, fun criteria => ?_⟩
        simp only [access, hfault, raise]
        exact (Action.performs_fail fault before).bind_error
    | none =>
        refine ⟨[], .ok bench.devices, before, by simp, fun criteria => ?_⟩
        simp only [access, hfault, raise]
        exact (Action.performs_pure () before).bind (Action.performs_pure _ before)
  connect device before := by
    have hopen := Action.performs_record (.opened device.handle) rfl before
    have hconcerns : ∀ event ∈ [Event.opened device.handle],
        event.exchange? = none ∧ event.Concerns device := by
      simp [Event.exchange?, Event.Concerns]
    cases hfault : bench.openFault with
    | some fault =>
        refine ⟨.opened device.handle, [], .error fault, before, ?_, rfl, hconcerns, by simp⟩
        simp only [access, hfault, raise]
        exact hopen.bind_single (Action.performs_fail fault before).bind_error
    | none =>
        refine ⟨.opened device.handle, [], .ok (Script.pacedPipe (.direct device.interface)),
          before, ?_, rfl, hconcerns, ?_⟩
        · simp only [access, hfault, raise]
          exact hopen.bind_single
            ((Action.performs_pure () before).bind (Action.performs_pure _ before))
        · rintro opened ⟨⟩
          rfl
  parting device event hmem := by
    obtain rfl := List.mem_singleton.mp hmem
    exact ⟨rfl, rfl, trivial⟩

namespace Bus

theorem access_directed (timeout : Nat) : (access timeout).Directed where
  list before := by
    obtain ⟨deeds, listed, after, hfinding, hfind⟩ := find_performs before
    exact ⟨deeds, listed, after, hfinding.surveys, hfind⟩
  connect device before := by
    obtain ⟨deeds, result, after, hconnecting, hconnect⟩ := connect_performs timeout device before
    have hconcerns : ∀ event ∈ deeds, event.exchange? = none ∧ event.Concerns device := by
      cases hconnecting <;> simp [Event.exchange?, Event.Concerns]
    have hroute : ∀ opened, result = .ok opened → opened.pipe.route.LeadsTo device := by
      rintro opened rfl
      cases hconnecting with
      | connected => exact ⟨rfl, rfl⟩
    cases hconnecting <;> exact ⟨_, _, _, _, hconnect, rfl, hconcerns, hroute⟩
  parting device event hmem := by
    rcases eq_of_mem_parting hmem with rfl | rfl
    · exact ⟨rfl, rfl, rfl, rfl⟩
    · exact ⟨rfl, rfl, rfl⟩

end Bus

/-! ## What a flash does -/

namespace Programmer

/-- Of the devices that are listed only this one meets the criteria of the user and the image. -/
def SoleMatch (programmer : Programmer ω H) (image : Image)
    (listed : Except Fault (List (Device H))) (device : Device H) : Prop :=
  ∃ found, listed = .ok found ∧
    found.filter (programmer.criteriaFor image).matchesDevice = [device]

/-- Why an image is meant for no device.  `listed` are all devices that were found, or why none
could be. -/
inductive Refuses (programmer : Programmer ω H) (image : Image)
    (listed : Except Fault (List (Device H))) : Fault → Prop
  | unlisted {fault} (hlisted : listed = .error fault) : Refuses programmer image listed fault
  | absent {found} (hlisted : listed = .ok found)
      (hnone : found.filter (programmer.criteriaFor image).matchesDevice = []) :
      Refuses programmer image listed .noDevice
  | ambiguous {found} (hlisted : listed = .ok found)
      (hmany : 2 ≤ (found.filter (programmer.criteriaFor image).matchesDevice).length) :
      Refuses programmer image listed
        (.manyDevices (found.filter (programmer.criteriaFor image).matchesDevice).length)
  | mismatched {device} (hsole : programmer.SoleMatch image listed device)
      (hunsuited : ¬ image.Suits device) :
      Refuses programmer image listed
        (.idMismatch image.vendor image.product device.vendor device.product)

/-- The image is meant for the device, and there is no other one that it could be meant for. -/
structure Means (programmer : Programmer ω H) (image : Image)
    (listed : Except Fault (List (Device H))) (device : Device H) : Prop where
  sole : programmer.SoleMatch image listed device
  wanted : programmer.options.criteria.matchesDevice device
  suits : image.Suits device

theorem SoleMatch.wanted {programmer : Programmer ω H} {image : Image}
    {listed : Except Fault (List (Device H))} {device : Device H}
    (hsole : programmer.SoleMatch image listed device) :
    programmer.options.criteria.matchesDevice device := by
  obtain ⟨found, -, hmatches⟩ := hsole
  have hmem : device ∈ found.filter (programmer.criteriaFor image).matchesDevice := by
    rw [hmatches]
    exact List.mem_singleton_self device
  exact (Criteria.matchesDevice_adopt_iff.mp (List.mem_filter.mp hmem).2).1

/-- The choice from the devices that are listed: the only one that matches, or a refusal. -/
theorem chosen_or_refused (programmer : Programmer ω H) (image : Image)
    (listed : Except Fault (List (Device H))) :
    let chosen := (listed.map fun found =>
      found.filter (programmer.criteriaFor image).matchesDevice).bind Access.onlyOf
    (∃ device, programmer.SoleMatch image listed device ∧ chosen = .ok device) ∨
    ∃ fault, programmer.Refuses image listed fault ∧ chosen = .error fault := by
  cases listed with
  | error fault => exact .inr ⟨fault, .unlisted rfl, rfl⟩
  | ok found =>
      change (∃ device, _ ∧ Access.onlyOf (found.filter _) = .ok device) ∨
        ∃ fault, _ ∧ Access.onlyOf (found.filter _) = .error fault
      match hmatches : found.filter (programmer.criteriaFor image).matchesDevice with
      | [] => exact .inr ⟨.noDevice, .absent rfl hmatches, rfl⟩
      | [device] => exact .inl ⟨device, ⟨found, rfl, hmatches⟩, rfl⟩
      | first :: second :: rest =>
          have hmany : 2 ≤ (found.filter
              (programmer.criteriaFor image).matchesDevice).length := by
            simp [hmatches]
          have hrefuses : programmer.Refuses image (.ok found) _ := .ambiguous rfl hmany
          rw [hmatches] at hrefuses
          exact .inr ⟨_, hrefuses, rfl⟩

/-- If firmware is sent in some work with the device, it has been opened, brought to its idle state
and given a block size before. -/
def SendsWhenReady (programmer : Programmer ω H) (device : Device H) (before : Moment ω)
    (work : List Event) : Prop :=
  (∃ transfer ∈ exchanges work, transfer.request = .download) →
    ∃ opened start ready opening recovery rest reply chunk,
      work = opening ++ recovery ++ rest ∧
      (∀ transfer ∈ exchanges (opening ++ recovery), transfer.request ≠ .download) ∧
      (programmer.access.connect device).Performs before opening (.ok opened) start ∧
      (device.session opened.pipe).reachIdle.Performs start recovery (.ok reply) ready ∧
      blockSize device.descriptor.transferSize programmer.options.transferSize
        device.packetSize = .ok chunk

/-- The device is opened and no other one is touched. -/
structure WorksWith (programmer : Programmer ω Nat) (device : Device Nat) (before : Moment ω)
    (work : List Event) : Prop where
  opens : ∃ first, work.head? = some first ∧ first.Opens device
  concerns : ∀ event ∈ work, event.Concerns device
  sends : programmer.SendsWhenReady device before work

/-- What a flash comes to, if a survey of the devices would show those that are listed.  A file that
cannot be read is refused without it.  An image is refused after it, or sent to the one device that
it is meant for. -/
inductive Flashes (programmer : Programmer ω Nat) (file : ByteArray) (survey : List Event)
    (listed : Except Fault (List (Device Nat))) (surveyed : Moment ω) :
    List Event → Except Fault Unit → Prop
  | unread {fault} (hload : Image.load programmer.options.suffixUse file = .error fault) :
      Flashes programmer file survey listed surveyed [.started, .finished false]
        (.error (.image fault))
  | refused {image fault} (hload : Image.load programmer.options.suffixUse file = .ok image)
      (hrefuses : programmer.Refuses image listed fault) :
      Flashes programmer file survey listed surveyed (.started :: (survey ++ [.finished false]))
        (.error fault)
  | works {image device work result}
      (hload : Image.load programmer.options.suffixUse file = .ok image)
      (hmeans : programmer.Means image listed device)
      (hworks : programmer.WorksWith device surveyed work) :
      Flashes programmer file survey listed surveyed
        (.started :: (survey ++ work ++ [.finished result.isOk])) result

def OpensMeant (programmer : Programmer ω Nat) (file : ByteArray) (before : Moment ω) : Prop :=
  ∃ survey listed surveyed deeds result after,
    programmer.access.Surveys before survey listed surveyed ∧
    (programmer.flash file).Performs before deeds result after ∧
    programmer.Flashes file survey listed surveyed deeds result

variable {programmer : Programmer ω Nat}

theorem Writing.sends {image : Image} {session : Session ω} {before after : Moment ω}
    {deeds : List Event} {result : Except Fault Unit}
    (hwriting : programmer.Writing image session before deeds result after)
    (hsent : ∃ transfer ∈ exchanges deeds, transfer.request = .download) :
    ∃ recovery rest reply ready chunk, deeds = recovery ++ rest ∧
      (∀ transfer ∈ exchanges recovery, transfer.request ≠ .download) ∧
      session.reachIdle.Performs before recovery (.ok reply) ready ∧
      blockSize session.descriptor.transferSize programmer.options.transferSize
        session.packetSize = .ok chunk := by
  have hrecovery {transfer : Exchange} (hserves : transfer.request.ServesRecovery) :
      transfer.request ≠ .download := by
    intro hdownload
    rw [hdownload] at hserves
    simp [Request.ServesRecovery] at hserves
  obtain ⟨transfer, hmem, hdownload⟩ := hsent
  cases hwriting with
  | unready hsettling => exact absurd hdownload (hrecovery (hsettling.requests transfer hmem))
  | sizeless hsettling hsize =>
      exact absurd hdownload (hrecovery (hsettling.requests transfer hmem))
  | sent hsettling hready hsize hsending =>
      exact ⟨_, _, _, _, _, rfl, fun other hother => hrecovery (hsettling.requests other hother),
        hready, hsize⟩

variable (hdirected : programmer.access.Directed)

include hdirected

theorem withSession_works (image : Image) (device : Device Nat) (before : Moment ω) :
    ∃ work result after, (programmer.access.withSession device (programmer.write image)).Performs
      before work result after ∧ programmer.WorksWith device before work := by
  obtain ⟨first, opening, connected, middle, hconnect, hfirst, hopening, hroute⟩ :=
    hdirected.connect device before
  have hsilent : exchanges (first :: opening) = [] :=
    List.filterMap_eq_nil_iff.mpr fun event hmem => (hopening event hmem).1
  cases connected with
  | error fault =>
      refine ⟨first :: opening, _, _, Access.withSession_unopened hconnect, ?_⟩
      refine ⟨⟨first, rfl, hfirst⟩, fun event hmem => (hopening event hmem).2, ?_⟩
      rintro ⟨transfer, hmem, -⟩
      simp [hsilent] at hmem
  | ok opened =>
      obtain ⟨deeds, result, after, hwriting, hrun⟩ :=
        programmer.write_performs image (device.session opened.pipe) opened.pace middle
      have hparting := hdirected.parting device
      have hquiet : exchanges (programmer.access.parting device) = [] :=
        List.filterMap_eq_nil_iff.mpr fun event hmem => (hparting event hmem).2.1
      refine ⟨first :: opening ++ (deeds ++ programmer.access.parting device), _, _,
        Access.withSession_performs (fun event hmem => (hparting event hmem).1) hconnect hrun, ?_⟩
      refine ⟨⟨first, rfl, hfirst⟩, fun event hmem => ?_, fun hsent => ?_⟩
      · rcases List.mem_append.mp hmem with hmem | hmem
        · exact (hopening event hmem).2
        rcases List.mem_append.mp hmem with hmem | hmem
        · exact event.concerns_of_within (hroute opened rfl) (hwriting.staysWithin event hmem)
        · exact (hparting event hmem).2.2
      · rw [exchanges_append, exchanges_append, hsilent, hquiet, List.nil_append,
          List.append_nil] at hsent
        obtain ⟨recovery, rest, reply, ready, chunk, rfl, hunsent, hready, hsize⟩ :=
          hwriting.sends hsent
        refine ⟨opened, middle, ready, first :: opening, recovery,
          rest ++ programmer.access.parting device, reply, chunk, by simp, ?_, hconnect, hready,
          hsize⟩
        rwa [exchanges_append, hsilent, List.nil_append]

theorem opensMeant_of_directed (file : ByteArray) (before : Moment ω) :
    programmer.OpensMeant file before := by
  -- The survey is the same for all criteria, so it can be fixed before the file is read.
  obtain ⟨survey, listed, surveyed, hsurvey⟩ := hdirected.list before
  cases hload : Image.load programmer.options.suffixUse file with
  | error fault =>
      have hrun : (programmer.flash file).Performs before _ _ before :=
        flash_performs (transfer_unreadable hload)
      exact ⟨survey, listed, surveyed, _, _, _, hsurvey, hrun, .unread hload⟩
  | ok image =>
      have hchoose := Access.choose_performs (hsurvey.2 (programmer.criteriaFor image))
      rcases programmer.chosen_or_refused image listed with
        ⟨device, hsole, hchosen⟩ | ⟨fault, hrefuses, hchosen⟩
      · rw [hchosen] at hchoose
        rcases image.checkDevice_eq device with ⟨hsuits, hcheck⟩ | ⟨hunsuited, hcheck⟩
        · obtain ⟨work, result, after, hsession, hworks⟩ :=
            withSession_works hdirected image device surveyed
          have hrun := flash_performs (transfer_performs hload hchoose hcheck hsession)
          have hmeans : programmer.Means image listed device :=
            ⟨hsole, hsole.wanted, hsuits⟩
          exact ⟨survey, listed, surveyed, _, _, _, hsurvey, hrun, .works hload hmeans hworks⟩
        · have hrun := flash_performs (transfer_mismatched hload hchoose hcheck)
          have hrefuses := Refuses.mismatched hsole hunsuited
          exact ⟨survey, listed, surveyed, _, _, _, hsurvey, hrun, .refused hload hrefuses⟩
      · rw [hchosen] at hchoose
        have hrun := flash_performs (transfer_unchosen hload hchoose)
        exact ⟨survey, listed, surveyed, _, _, _, hsurvey, hrun, .refused hload hrefuses⟩

end Programmer

/-- Over a bus, with a bench, and however else devices are reached, a flash opens no device but the
one that its file and its options mean, and is refused if there is no such device. -/
theorem flash_opens_meant_device (options : TransferOptions) (file : ByteArray) :
    (∀ timeout before,
      (⟨Bus.access timeout, options⟩ : Programmer Bus Nat).OpensMeant file before) ∧
    (∀ bench before,
      (⟨Bench.access bench, options⟩ : Programmer Script Nat).OpensMeant file before) ∧
    ∀ (world : Type) (access : Access world Nat), access.Directed → ∀ before,
      (⟨access, options⟩ : Programmer world Nat).OpensMeant file before := by
  have hgeneral (world : Type) (access : Access world Nat) (hdirected : access.Directed)
      (before : Moment world) : (⟨access, options⟩ : Programmer world Nat).OpensMeant file before :=
    Programmer.opensMeant_of_directed hdirected file before
  exact ⟨fun timeout => hgeneral _ _ (Bus.access_directed timeout),
    fun bench => hgeneral _ _ bench.access_directed, hgeneral⟩

/-- A bench with one device is such an access. -/
theorem flash_opens_meant_device_bench :
    let access := Bench.access ⟨[default], none, none⟩
    access.Directed ∧ ∀ before,
      (⟨access, .standard⟩ : Programmer Script Nat).OpensMeant ⟨#[1, 2, 3]⟩ before := by
  have hdirected := Bench.access_directed ⟨[default], none, none⟩
  obtain ⟨-, -, hgeneral⟩ := flash_opens_meant_device .standard ⟨#[1, 2, 3]⟩
  exact ⟨hdirected, hgeneral Script _ hdirected⟩

end FirmwareUpgrade
