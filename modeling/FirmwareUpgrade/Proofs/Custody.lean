import FirmwareUpgrade.Proofs.BusCourse

/-!
# Custody of devices

A device on a bus is held from a successful opening until it is closed, and its interface from a
successful claim until it is released.  `Holdings` keeps account of this for any list of events.
The operations keep to an order of events that is given by the steps between a few phases.  The
phase that is reached tells what is held, so what is required of the events is shown once for the
order, and of each operation only that it follows the order.
-/

namespace FirmwareUpgrade

def Event.opensOrCloses : Event → Bool
  | .bus (.openDevice _) | .bus (.closeDevice _) => true
  | _ => false

def Event.claimsOrReleases : Event → Bool
  | .bus (.claim _ _) | .bus (.release _ _) => true
  | _ => false

theorem Event.not_opensOrCloses (event : Event) (hhost : event.isHostOnly) :
    event.opensOrCloses = false := by
  cases event <;> simp_all [isHostOnly, opensOrCloses]

theorem Event.not_claimsOrReleases (event : Event) (hhost : event.isHostOnly) :
    event.claimsOrReleases = false := by
  cases event <;> simp_all [isHostOnly, claimsOrReleases]

theorem Event.exchange?_eq_none (event : Event) (hhost : event.isHostOnly) :
    event.exchange? = none := by
  cases event <;> simp_all [isHostOnly, exchange?]

namespace Bus

/-! ## What is held -/

/-- Why the next opening of a device fails, if it does. -/
def openingError? (attachments : List Attachment) (device : Nat) : Option UsbError :=
  attachments[device]?.bind fun attachment => attachment.openings.head?.join

/-- The attachments after the next opening of a device. -/
def afterOpening (attachments : List Attachment) (device : Nat) : List Attachment :=
  match attachments[device]? with
  | none => attachments
  | some attachment =>
    attachments.set device { attachment with openings := attachment.openings.tail }

theorem nextOpening_eq {bus world : Bus} {device : Nat} {error : Option UsbError}
    (hopening : bus.nextOpening device = (error, world)) :
    openingError? bus.attachments device = error ∧
      afterOpening bus.attachments device = world.attachments := by
  unfold nextOpening at hopening
  unfold openingError? afterOpening
  cases hattachment : bus.attachments[device]? with
  | none =>
      simp only [hattachment, Prod.mk.injEq] at hopening
      obtain ⟨rfl, rfl⟩ := hopening
      exact ⟨rfl, rfl⟩
  | some attachment =>
      simp only [hattachment, Prod.mk.injEq] at hopening
      obtain ⟨rfl, rfl⟩ := hopening
      exact ⟨rfl, rfl⟩

/-- The devices that are open, the claimed interfaces, and the alternate settings selected on them,
with the attachments that decide what comes of the next calls. -/
structure Holdings where
  attachments : List Attachment
  devices : List Nat
  interfaces : List (Nat × UInt8)
  settings : List (Nat × UInt8 × UInt8)

def Holdings.after (holdings : Holdings) : Event → Holdings
  | .bus (.openDevice device) =>
    { holdings with
      attachments := afterOpening holdings.attachments device
      devices :=
        if (openingError? holdings.attachments device).isNone then device :: holdings.devices
        else holdings.devices }
  | .bus (.closeDevice device) => { holdings with devices := holdings.devices.erase device }
  | .bus (.claim device interface) =>
    if (claimError? holdings.attachments device).isNone then
      { holdings with interfaces := (device, interface) :: holdings.interfaces }
    else holdings
  | .bus (.selectAlternate device interface alternate) =>
    if (device, interface) ∈ holdings.interfaces
        ∧ (alternateError? holdings.attachments device).isNone then
      { holdings with settings := (device, interface, alternate) :: holdings.settings }
    else holdings
  | .bus (.release device interface) =>
    { holdings with
      interfaces := holdings.interfaces.erase (device, interface)
      settings := holdings.settings.filter fun setting =>
        (setting.1, setting.2.1) ≠ (device, interface) }
  | _ => holdings

/-- What is held after some events, if nothing was before. -/
def held (attachments : List Attachment) (events : List Event) : Holdings :=
  events.foldl Holdings.after ⟨attachments, [], [], []⟩

theorem Holdings.after_of_isHostOnly {event : Event} (hhost : event.isHostOnly)
    (holdings : Holdings) : holdings.after event = holdings := by
  cases event <;> simp_all [Event.isHostOnly, Holdings.after]

/-- The events keep to what a host may do with the devices on a bus.  Only the interface of the goal
is claimed, so none if there is no goal. -/
structure KeepsCustody (timeout : Nat) (goal : Option (Device Nat)) (attachments : List Attachment)
    (events : List Event) : Prop where
  single : ∀ earlier later, events = earlier ++ later →
    (held attachments earlier).devices.length ≤ 1 ∧
      (held attachments earlier).interfaces.length ≤ 1
  settled : (held attachments events).devices = [] ∧ (held attachments events).interfaces = []
  /-- A device that was opened is closed before any device is opened. -/
  closes : ∀ earlier device later, events = earlier ++ .bus (.openDevice device) :: later →
    openingError? (held attachments earlier).attachments device = none →
    ∃ inner rest, later = inner ++ .bus (.closeDevice device) :: rest ∧
      ∀ event ∈ inner, event.opensOrCloses = false
  /-- Only an open device is closed, so none is closed twice. -/
  closesHeld : ∀ earlier device later, events = earlier ++ .bus (.closeDevice device) :: later →
    (held attachments earlier).devices = [device] ∧ (held attachments earlier).interfaces = []
  /-- After the release nothing is done with any device, except that this one is closed. -/
  releases : ∀ earlier device interface later,
    events = earlier ++ .bus (.claim device interface) :: later →
    claimError? (held attachments earlier).attachments device = none →
    ∃ inner pause rest,
      later = inner ++ .bus (.release device interface) ::
        (pause ++ .bus (.closeDevice device) :: rest) ∧
      (∀ event ∈ inner, event.opensOrCloses = false ∧ event.claimsOrReleases = false) ∧
      (∀ event ∈ pause, event.isHostOnly) ∧ ∀ event ∈ rest, event.isHostOnly
  releasesHeld : ∀ earlier device interface later,
    events = earlier ++ .bus (.release device interface) :: later →
    (held attachments earlier).interfaces = [(device, interface)]
  claims : ∀ earlier device interface later,
    events = earlier ++ .bus (.claim device interface) :: later →
    (held attachments earlier).devices = [device] ∧ (held attachments earlier).interfaces = [] ∧
      ∃ meant, goal = some meant ∧ meant.handle = device ∧ meant.interface = interface
  probes : ∀ earlier call later, events = earlier ++ .bus call :: later → call.probes →
    (held attachments earlier).interfaces = []
  /-- The alternate setting has been selected on the claimed interface. -/
  transfers : ∀ earlier route transfer delay later,
    events = earlier ++ .exchange route transfer delay :: later →
    ∃ meant, goal = some meant ∧ route = .bus meant.handle meant.interface timeout ∧
      (held attachments earlier).devices = [meant.handle] ∧
      (held attachments earlier).interfaces = [(meant.handle, meant.interface)] ∧
      (held attachments earlier).settings = [(meant.handle, meant.interface, meant.alternate)]
  unclaimed : ∀ earlier device interface later,
    events = earlier ++ .bus (.claim device interface) :: later →
    (claimError? (held attachments earlier).attachments device).isSome → exchanges events = []
  unselected : ∀ earlier device interface alternate later,
    events = earlier ++ .bus (.selectAlternate device interface alternate) :: later →
    (alternateError? (held attachments earlier).attachments device).isSome → exchanges events = []

/-! ## The order of events -/

inductive Phase where
  | free
  | opened (device : Nat)
  | claimed (device : Device Nat)
  | ready (device : Device Nat)
  /-- The alternate setting was refused. -/
  | spoiled (device : Device Nat)
  /-- Only closing is left, because the interface was refused or has been released. -/
  | leaving (device : Device Nat)
  | done

structure Standing where
  phase : Phase
  attachments : List Attachment

def Standing.holdings : Standing → Holdings
  | ⟨.free, attachments⟩ | ⟨.done, attachments⟩ => ⟨attachments, [], [], []⟩
  | ⟨.opened device, attachments⟩ => ⟨attachments, [device], [], []⟩
  | ⟨.claimed device, attachments⟩ | ⟨.spoiled device, attachments⟩ =>
    ⟨attachments, [device.handle], [(device.handle, device.interface)], []⟩
  | ⟨.ready device, attachments⟩ =>
    ⟨attachments, [device.handle], [(device.handle, device.interface)],
      [(device.handle, device.interface, device.alternate)]⟩
  | ⟨.leaving device, attachments⟩ => ⟨attachments, [device.handle], [], []⟩

@[simp]
theorem Standing.holdings_attachments (standing : Standing) :
    standing.holdings.attachments = standing.attachments := by
  rcases standing with ⟨_ | _ | _ | _ | _ | _ | _, attachments⟩ <;> rfl

def Phase.isRest : Phase → Bool
  | .free | .done => true
  | _ => false

/-- No transfer has been possible yet. -/
def Phase.isEarly : Phase → Bool
  | .free | .opened _ | .claimed _ => true
  | _ => false

/-- No transfer will be possible any more. -/
def Phase.isLate : Phase → Bool
  | .spoiled _ | .leaving _ | .done => true
  | _ => false

def Phase.device? : Phase → Option Nat
  | .free | .done => none
  | .opened device => some device
  | .claimed device | .ready device | .spoiled device | .leaving device => some device.handle

def Phase.claimed? : Phase → Option (Device Nat)
  | .claimed device | .ready device | .spoiled device => some device
  | .free | .opened _ | .leaving _ | .done => none

inductive Step (timeout : Nat) (goal : Option (Device Nat)) : Standing → Event → Standing → Prop
  | host {standing event} (hhost : event.isHostOnly) : Step timeout goal standing event standing
  | listed {attachments} : Step timeout goal ⟨.free, attachments⟩ (.bus .list) ⟨.free, attachments⟩
  | unopened {attachments device} (hopening : (openingError? attachments device).isSome) :
      Step timeout goal ⟨.free, attachments⟩ (.bus (.openDevice device))
        ⟨.free, afterOpening attachments device⟩
  | opened {attachments device} (hopening : openingError? attachments device = none) :
      Step timeout goal ⟨.free, attachments⟩ (.bus (.openDevice device))
        ⟨.opened device, afterOpening attachments device⟩
  | languages {attachments device limit} :
      Step timeout goal ⟨.opened device, attachments⟩ (.bus (.languages device limit))
        ⟨.opened device, attachments⟩
  | string {attachments device index language limit} :
      Step timeout goal ⟨.opened device, attachments⟩ (.bus (.string device index language limit))
        ⟨.opened device, attachments⟩
  | closed {attachments device} :
      Step timeout goal ⟨.opened device, attachments⟩ (.bus (.closeDevice device))
        ⟨.free, attachments⟩
  | unclaimed {attachments device} (hgoal : goal = some device)
      (hclaim : (claimError? attachments device.handle).isSome) :
      Step timeout goal ⟨.opened device.handle, attachments⟩
        (.bus (.claim device.handle device.interface)) ⟨.leaving device, attachments⟩
  | claimed {attachments device} (hgoal : goal = some device)
      (hclaim : claimError? attachments device.handle = none) :
      Step timeout goal ⟨.opened device.handle, attachments⟩
        (.bus (.claim device.handle device.interface)) ⟨.claimed device, attachments⟩
  | unselected {attachments device}
      (halternate : (alternateError? attachments device.handle).isSome) :
      Step timeout goal ⟨.claimed device, attachments⟩
        (.bus (.selectAlternate device.handle device.interface device.alternate))
        ⟨.spoiled device, attachments⟩
  | selected {attachments device} (halternate : alternateError? attachments device.handle = none) :
      Step timeout goal ⟨.claimed device, attachments⟩
        (.bus (.selectAlternate device.handle device.interface device.alternate))
        ⟨.ready device, attachments⟩
  | transferred {attachments device transfer delay} (hgoal : goal = some device) :
      Step timeout goal ⟨.ready device, attachments⟩
        (.exchange (.bus device.handle device.interface timeout) transfer delay)
        ⟨.ready device, attachments⟩
  | released {attachments device} :
      Step timeout goal ⟨.ready device, attachments⟩
        (.bus (.release device.handle device.interface)) ⟨.leaving device, attachments⟩
  | withdrawn {attachments device} :
      Step timeout goal ⟨.spoiled device, attachments⟩
        (.bus (.release device.handle device.interface)) ⟨.leaving device, attachments⟩
  | left {attachments device} :
      Step timeout goal ⟨.leaving device, attachments⟩ (.bus (.closeDevice device.handle))
        ⟨.done, attachments⟩

inductive Course (timeout : Nat) (goal : Option (Device Nat)) :
    Standing → List Event → Standing → Prop
  | nil {standing} : Course timeout goal standing [] standing
  | cons {start middle stop event events} (hstep : Step timeout goal start event middle)
      (hrest : Course timeout goal middle events stop) :
      Course timeout goal start (event :: events) stop

section Order

variable {timeout : Nat} {goal : Option (Device Nat)} {start middle stop : Standing}
  {event : Event} {events more : List Event}

theorem Course.single (hstep : Step timeout goal start event stop) :
    Course timeout goal start [event] stop :=
  .cons hstep .nil

theorem Course.append (hfirst : Course timeout goal start events middle)
    (hsecond : Course timeout goal middle more stop) :
    Course timeout goal start (events ++ more) stop := by
  induction hfirst with
  | nil => exact hsecond
  | cons hstep hrest ih => exact .cons hstep (ih hsecond)

theorem Course.split (hcourse : Course timeout goal start (events ++ more) stop) :
    ∃ middle, Course timeout goal start events middle ∧ Course timeout goal middle more stop := by
  induction events generalizing start with
  | nil => exact ⟨start, .nil, hcourse⟩
  | cons event events ih =>
      cases hcourse with
      | cons hstep hrest =>
          obtain ⟨middle, hfirst, hsecond⟩ := ih hrest
          exact ⟨middle, .cons hstep hfirst, hsecond⟩

theorem Course.split_cons (hcourse : Course timeout goal start (events ++ event :: more) stop) :
    ∃ reached next, Course timeout goal start events reached ∧
      Step timeout goal reached event next ∧ Course timeout goal next more stop := by
  obtain ⟨reached, hearlier, hlater⟩ := hcourse.split
  cases hlater with
  | cons hstep hrest => exact ⟨reached, _, hearlier, hstep, hrest⟩

/-! ## What is held in each phase -/

theorem Step.holdings (hstep : Step timeout goal start event stop) :
    start.holdings.after event = stop.holdings := by
  cases hstep with
  | host hhost => exact Holdings.after_of_isHostOnly hhost _
  | unopened hopening =>
      have hsome := Option.isNone_eq_false_iff.mpr hopening
      simp [Standing.holdings, Holdings.after, hsome]
  | opened hopening => simp [Standing.holdings, Holdings.after, hopening]
  | unclaimed hgoal hclaim =>
      have hsome := Option.isNone_eq_false_iff.mpr hclaim
      simp [Standing.holdings, Holdings.after, hsome]
  | claimed hgoal hclaim => simp [Standing.holdings, Holdings.after, hclaim]
  | unselected halternate =>
      have hsome := Option.isNone_eq_false_iff.mpr halternate
      simp [Standing.holdings, Holdings.after, hsome]
  | selected halternate => simp [Standing.holdings, Holdings.after, halternate]
  | _ => simp [Standing.holdings, Holdings.after]

theorem Course.holdings (hcourse : Course timeout goal start events stop) :
    events.foldl Holdings.after start.holdings = stop.holdings := by
  induction hcourse with
  | nil => rfl
  | cons hstep hrest ih => rw [List.foldl_cons, hstep.holdings, ih]

theorem Course.held_eq {attachments : List Attachment}
    (hcourse : Course timeout goal ⟨.free, attachments⟩ events stop) :
    held attachments events = stop.holdings :=
  hcourse.holdings

/-! ## The way back -/

theorem Step.device? {device : Nat} (hstep : Step timeout goal start event stop)
    (hdevice : start.phase.device? = some device) :
    event = .bus (.closeDevice device) ∨
      stop.phase.device? = some device ∧ event.opensOrCloses = false := by
  cases hstep with
  | host hhost => exact .inr ⟨hdevice, event.not_opensOrCloses hhost⟩
  | _ => simp_all [Phase.device?, Event.opensOrCloses]

/-- An open device stays open until it is closed. -/
theorem Course.closes {device : Nat} (hcourse : Course timeout goal start events stop)
    (hdevice : start.phase.device? = some device) (hrest : stop.phase.isRest) :
    ∃ inner rest, events = inner ++ .bus (.closeDevice device) :: rest ∧
      ∀ event ∈ inner, event.opensOrCloses = false := by
  -- Every step away from a phase with this device, except the one that closes it, leads to another.
  induction hcourse with
  | @nil standing =>
      rcases standing with ⟨_ | _ | _ | _ | _ | _ | _, _⟩ <;>
        simp_all [Phase.device?, Phase.isRest]
  | @cons _ _ _ event events hstep hlater ih =>
      rcases hstep.device? hdevice with rfl | ⟨hnext, hquiet⟩
      · exact ⟨[], events, rfl, by simp⟩
      · obtain ⟨inner, rest, rfl, hinner⟩ := ih hnext hrest
        exact ⟨event :: inner, rest, rfl, by simpa [hquiet] using hinner⟩

theorem Course.isHostOnly_of_done {attachments : List Attachment}
    (hcourse : Course timeout goal ⟨.done, attachments⟩ events stop) :
    ∀ event ∈ events, event.isHostOnly := by
  generalize hstart : (⟨.done, attachments⟩ : Standing) = start at hcourse
  induction hcourse with
  | nil => simp
  | cons hstep hrest ih =>
      subst hstart
      cases hstep with
      | host hhost => simpa [hhost] using ih rfl

theorem Course.leaves {device : Device Nat} {attachments : List Attachment}
    (hcourse : Course timeout goal ⟨.leaving device, attachments⟩ events stop)
    (hrest : stop.phase.isRest) :
    ∃ pause rest, events = pause ++ .bus (.closeDevice device.handle) :: rest ∧
      (∀ event ∈ pause, event.isHostOnly) ∧ ∀ event ∈ rest, event.isHostOnly := by
  generalize hstart : (⟨.leaving device, attachments⟩ : Standing) = start at hcourse
  induction hcourse with
  | nil =>
      subst hstart
      simp [Phase.isRest] at hrest
  | @cons _ _ _ event events hstep hlater ih =>
      subst hstart
      cases hstep with
      | host hhost =>
          obtain ⟨pause, rest, rfl, hpause, hdone⟩ := ih hrest rfl
          exact ⟨event :: pause, rest, rfl, by simpa [hhost] using hpause, hdone⟩
      | left => exact ⟨[], events, rfl, by simp, hlater.isHostOnly_of_done⟩

theorem Step.claimed? {device : Device Nat} (hstep : Step timeout goal start event stop)
    (hclaimed : start.phase.claimed? = some device) :
    event = .bus (.release device.handle device.interface) ∧ stop.phase = .leaving device ∨
      stop.phase.claimed? = some device ∧ event.opensOrCloses = false ∧
        event.claimsOrReleases = false := by
  cases hstep with
  | host hhost =>
      exact .inr ⟨hclaimed, event.not_opensOrCloses hhost, event.not_claimsOrReleases hhost⟩
  | _ => simp_all [Phase.claimed?, Event.opensOrCloses, Event.claimsOrReleases]

/-- A claimed interface stays claimed until it is released, and then only closing is left. -/
theorem Course.releases {device : Device Nat} (hcourse : Course timeout goal start events stop)
    (hclaimed : start.phase.claimed? = some device) (hrest : stop.phase.isRest) :
    ∃ inner pause rest,
      events = inner ++ .bus (.release device.handle device.interface) ::
        (pause ++ .bus (.closeDevice device.handle) :: rest) ∧
      (∀ event ∈ inner, event.opensOrCloses = false ∧ event.claimsOrReleases = false) ∧
      (∀ event ∈ pause, event.isHostOnly) ∧ ∀ event ∈ rest, event.isHostOnly := by
  -- As long as the interface is claimed only the release leads out, and it leads to `leaving`.
  induction hcourse with
  | @nil standing =>
      rcases standing with ⟨_ | _ | _ | _ | _ | _ | _, _⟩ <;>
        simp_all [Phase.claimed?, Phase.isRest]
  | @cons _ middle _ event events hstep hlater ih =>
      rcases hstep.claimed? hclaimed with ⟨rfl, hleaving⟩ | ⟨hnext, hquiet⟩
      · rcases middle with ⟨phase, attachments⟩
        subst hleaving
        obtain ⟨pause, rest, rfl, hpause, hdone⟩ := hlater.leaves hrest
        exact ⟨[], pause, rest, rfl, by simp, hpause, hdone⟩
      · obtain ⟨inner, pause, rest, rfl, hinner, hdone⟩ := ih hnext hrest
        exact ⟨event :: inner, pause, rest, rfl, by simpa [hquiet] using hinner, hdone⟩

/-! ## Where transfers are possible -/

theorem Step.isEarly (hstep : Step timeout goal start event stop) (hearly : stop.phase.isEarly) :
    start.phase.isEarly ∧ event.exchange? = none := by
  cases hstep with
  | host hhost => exact ⟨hearly, event.exchange?_eq_none hhost⟩
  | _ => simp_all [Phase.isEarly, Event.exchange?]

theorem Course.silent_of_isEarly (hcourse : Course timeout goal start events stop)
    (hearly : stop.phase.isEarly) : start.phase.isEarly ∧ exchanges events = [] := by
  induction hcourse with
  | nil => exact ⟨hearly, rfl⟩
  | cons hstep hrest ih =>
      obtain ⟨hmiddle, hevents⟩ := ih hearly
      obtain ⟨hstart, hevent⟩ := hstep.isEarly hmiddle
      exact ⟨hstart, by rw [exchanges_cons_of_none _ hevent, hevents]⟩

theorem Step.isLate (hstep : Step timeout goal start event stop) (hlate : start.phase.isLate) :
    stop.phase.isLate ∧ event.exchange? = none := by
  cases hstep with
  | host hhost => exact ⟨hlate, event.exchange?_eq_none hhost⟩
  | _ => simp_all [Phase.isLate, Event.exchange?]

theorem Course.silent_of_isLate (hcourse : Course timeout goal start events stop)
    (hlate : start.phase.isLate) : exchanges events = [] := by
  induction hcourse with
  | nil => rfl
  | cons hstep hrest ih =>
      obtain ⟨hmiddle, hevent⟩ := hstep.isLate hlate
      rw [exchanges_cons_of_none _ hevent, ih hmiddle]

/-! ## Whoever follows the order keeps custody -/

theorem Course.keepsCustody {attachments : List Attachment}
    (hcourse : Course timeout goal ⟨.free, attachments⟩ events stop) (hrest : stop.phase.isRest) :
    KeepsCustody timeout goal attachments events where
  single := by
    rintro earlier later rfl
    obtain ⟨⟨phase, reached⟩, hearlier, -⟩ := hcourse.split
    rw [hearlier.held_eq]
    cases phase <;> simp [Standing.holdings]
  settled := by
    rw [hcourse.held_eq]
    rcases stop with ⟨phase, reached⟩
    cases phase <;> simp_all [Standing.holdings, Phase.isRest]
  closes := by
    rintro earlier device later rfl hopening
    obtain ⟨reached, next, hearlier, hstep, hlater⟩ := hcourse.split_cons
    rw [hearlier.held_eq, Standing.holdings_attachments] at hopening
    cases hstep with
    | host hhost => simp [Event.isHostOnly] at hhost
    | unopened herror => simp [hopening] at herror
    | opened hnone => exact hlater.closes rfl hrest
  closesHeld := by
    rintro earlier device later rfl
    obtain ⟨reached, next, hearlier, hstep, hlater⟩ := hcourse.split_cons
    rw [hearlier.held_eq]
    cases hstep with
    | host hhost => simp [Event.isHostOnly] at hhost
    | closed => exact ⟨rfl, rfl⟩
    | left => exact ⟨rfl, rfl⟩
  releases := by
    rintro earlier device interface later rfl hclaim
    obtain ⟨reached, next, hearlier, hstep, hlater⟩ := hcourse.split_cons
    rw [hearlier.held_eq, Standing.holdings_attachments] at hclaim
    cases hstep with
    | host hhost => simp [Event.isHostOnly] at hhost
    | unclaimed hgoal herror => simp [hclaim] at herror
    | claimed hgoal hnone => exact hlater.releases rfl hrest
  releasesHeld := by
    rintro earlier device interface later rfl
    obtain ⟨reached, next, hearlier, hstep, hlater⟩ := hcourse.split_cons
    rw [hearlier.held_eq]
    cases hstep with
    | host hhost => simp [Event.isHostOnly] at hhost
    | released => rfl
    | withdrawn => rfl
  claims := by
    rintro earlier device interface later rfl
    obtain ⟨reached, next, hearlier, hstep, hlater⟩ := hcourse.split_cons
    rw [hearlier.held_eq]
    cases hstep with
    | host hhost => simp [Event.isHostOnly] at hhost
    | unclaimed hgoal herror => exact ⟨rfl, rfl, _, hgoal, rfl, rfl⟩
    | claimed hgoal hnone => exact ⟨rfl, rfl, _, hgoal, rfl, rfl⟩
  probes := by
    rintro earlier call later rfl hprobes
    obtain ⟨reached, next, hearlier, hstep, hlater⟩ := hcourse.split_cons
    rw [hearlier.held_eq]
    cases hstep <;> simp_all [Event.isHostOnly, BusCall.probes, Standing.holdings]
  transfers := by
    rintro earlier route transfer delay later rfl
    obtain ⟨reached, next, hearlier, hstep, hlater⟩ := hcourse.split_cons
    rw [hearlier.held_eq]
    cases hstep with
    | host hhost => simp [Event.isHostOnly] at hhost
    | transferred hgoal => exact ⟨_, hgoal, rfl, rfl, rfl, rfl⟩
  unclaimed := by
    rintro earlier device interface later rfl hclaim
    obtain ⟨reached, next, hearlier, hstep, hlater⟩ := hcourse.split_cons
    rw [hearlier.held_eq, Standing.holdings_attachments] at hclaim
    cases hstep with
    | host hhost => simp [Event.isHostOnly] at hhost
    | unclaimed hgoal herror =>
        rw [exchanges_append, (hearlier.silent_of_isEarly rfl).2,
          exchanges_cons_of_none _ rfl, hlater.silent_of_isLate rfl, List.append_nil]
    | claimed hgoal hnone => simp [hnone] at hclaim
  unselected := by
    rintro earlier device interface alternate later rfl halternate
    obtain ⟨reached, next, hearlier, hstep, hlater⟩ := hcourse.split_cons
    rw [hearlier.held_eq, Standing.holdings_attachments] at halternate
    cases hstep with
    | host hhost => simp [Event.isHostOnly] at hhost
    | unselected herror =>
        rw [exchanges_append, (hearlier.silent_of_isEarly rfl).2,
          exchanges_cons_of_none _ rfl, hlater.silent_of_isLate rfl, List.append_nil]
    | selected hnone => simp [hnone] at halternate

end Order

end Bus

end FirmwareUpgrade
