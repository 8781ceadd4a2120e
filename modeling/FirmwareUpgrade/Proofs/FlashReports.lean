import FirmwareUpgrade.Job
import FirmwareUpgrade.Proofs.BusCourse
import FirmwareUpgrade.Proofs.SessionDeeds

/-!
# Reports of a flash

A report may be asked for at any moment of a flash, and several flashes in a row may be followed by
the same report.  `Climbs` says how the percentage of a report goes up in a list of events while the
flash is pending, and every flash is a start, a climb and the event that ends it.  What a report can
show during the flash and after it is read off this form.
-/

namespace FirmwareUpgrade

variable {ω H α β : Type}

/-! ## Shares and reports -/

namespace Report

theorem share_le (done total : Nat) : share done total ≤ 100 := by
  unfold share
  split
  · exact Nat.le_refl 100
  · exact Nat.min_le_left ..

theorem share_mono {done more : Nat} (hmore : done ≤ more) (total : Nat) :
    share done total ≤ share more total := by
  unfold share
  split
  · exact Nat.le_refl 100
  · have hquotient : done * 100 / total ≤ more * 100 / total :=
      Nat.div_le_div_right (Nat.mul_le_mul_right 100 hmore)
    omega

theorem share_eq {done total : Nat} (hdone : done ≤ total) :
    share done total = if total = 0 then 100 else 100 * done / total := by
  unfold share
  split
  · rfl
  · next hpositive =>
      have hquotient : 100 * done / total ≤ 100 :=
        Nat.div_le_of_le_mul (by rw [Nat.mul_comm total]; exact Nat.mul_le_mul_left 100 hdone)
      rw [Nat.mul_comm done, Nat.min_eq_right hquotient]

theorem share_all (total : Nat) : share total total = 100 := by
  rw [share_eq (Nat.le_refl total)]
  split
  · rfl
  · next hpositive => exact Nat.mul_div_cancel 100 (Nat.pos_of_ne_zero hpositive)

theorem after_append (report : Report) (first second : List Event) :
    report.after (first ++ second) = (report.after first).after second :=
  List.foldl_append

theorem percent_advance_le {report : Report} (hreport : report.percent ≤ 100) (event : Event) :
    (report.advance event).percent ≤ 100 := by
  unfold advance
  split
  · exact Nat.zero_le 100
  · exact hreport
  · exact hreport
  · exact share_le ..
  · exact hreport

/-- Whatever happens, no more than all is done. -/
theorem percent_after_le {report : Report} (hreport : report.percent ≤ 100)
    (events : List Event) : (report.after events).percent ≤ 100 := by
  induction events generalizing report with
  | nil => exact hreport
  | cons event events ih => exact ih (percent_advance_le hreport event)

end Report

/-- The event changes a report. -/
def Event.isReported : Event → Bool
  | .started | .finished _ | .downloaded _ _ => true
  | _ => false

/-- No event changes a report. -/
def Unnoticed (events : List Event) : Prop :=
  ∀ event ∈ events, event.isReported = false

theorem Report.advance_unnoticed (report : Report) {event : Event}
    (hevent : event.isReported = false) : report.advance event = report := by
  cases event <;> simp_all [advance, Event.isReported]

/-! ## Climbing -/

open Report (share)

/-- A pending flash is at a percentage and goes on to another one in the events.  It may be started
once more while nothing has been done. -/
inductive Climbs : Nat → List Event → Nat → Prop
  | stays {low} : Climbs low [] low
  | unnoticed {low high event events} (hevent : event.isReported = false)
      (hrest : Climbs low events high) : Climbs low (event :: events) high
  | starts {high events} (hrest : Climbs 0 events high) : Climbs 0 (.started :: events) high
  | rises {low high done total events} (hdone : done ≤ total) (hrises : low ≤ share done total)
      (hrest : Climbs (share done total) events high) :
      Climbs low (.downloaded done total :: events) high

namespace Climbs

variable {low middle high : Nat} {events first second : List Event}

theorem append (hfirst : Climbs low first middle) (hsecond : Climbs middle second high) :
    Climbs low (first ++ second) high := by
  induction hfirst with
  | stays => exact hsecond
  | unnoticed hevent _ ih => exact .unnoticed hevent (ih hsecond)
  | starts _ ih => exact .starts (ih hsecond)
  | rises hdone hrises _ ih => exact .rises hdone hrises (ih hsecond)

theorem split (hclimbs : Climbs low (first ++ second) high) :
    ∃ middle, Climbs low first middle ∧ Climbs middle second high := by
  induction first generalizing low with
  | nil => exact ⟨low, .stays, hclimbs⟩
  | cons event first ih =>
      cases hclimbs with
      | unnoticed hevent hrest =>
          obtain ⟨middle, hfirst, hsecond⟩ := ih hrest
          exact ⟨middle, .unnoticed hevent hfirst, hsecond⟩
      | starts hrest =>
          obtain ⟨middle, hfirst, hsecond⟩ := ih hrest
          exact ⟨middle, .starts hfirst, hsecond⟩
      | rises hdone hrises hrest =>
          obtain ⟨middle, hfirst, hsecond⟩ := ih hrest
          exact ⟨middle, .rises hdone hrises hfirst, hsecond⟩

theorem le (hclimbs : Climbs low events high) : low ≤ high := by
  induction hclimbs with
  | stays => exact Nat.le_refl _
  | unnoticed _ _ ih => exact ih
  | starts _ ih => exact ih
  | rises _ hrises _ ih => exact Nat.le_trans hrises ih

theorem of_unnoticed (hevents : Unnoticed events) : Climbs low events low := by
  induction events with
  | nil => exact .stays
  | cons event events ih =>
      exact .unnoticed (hevents event List.mem_cons_self)
        (ih fun other hmem => hevents other (List.mem_cons_of_mem event hmem))

/-- A report follows the climb and stays pending. -/
theorem after_eq (hclimbs : Climbs low events high) :
    Report.after ⟨low, .pending⟩ events = ⟨high, .pending⟩ := by
  induction hclimbs with
  | stays => rfl
  | unnoticed hevent _ ih =>
      rw [Report.after, List.foldl_cons, Report.advance_unnoticed _ hevent]
      exact ih
  | starts _ ih => exact ih
  | rises _ _ _ ih => exact ih

/-- Without progress there is no climb. -/
theorem eq_of_not_downloaded (hclimbs : Climbs low events high)
    (hnone : ∀ done total, .downloaded done total ∉ events) : high = low := by
  induction hclimbs with
  | stays => rfl
  | unnoticed _ _ ih =>
      exact ih fun done total hmem => hnone done total (List.mem_cons_of_mem _ hmem)
  | starts _ ih =>
      exact ih fun done total hmem => hnone done total (List.mem_cons_of_mem _ hmem)
  | rises => exact absurd List.mem_cons_self (hnone _ _)

end Climbs

/-! ## The work with a session -/

namespace Session

open Download

variable {session : Session ω} {allowed : Demand → Prop} {before after : Moment ω}
  {deeds : List Event}

theorem Does.unnoticed (hdoes : session.Does allowed False deeds) : Unnoticed deeds := by
  intro event hmem
  cases hdoes event hmem with
  | transfer | sleep => rfl
  | downloaded _ _ hreporting => exact hreporting.elim
  | uploaded => rfl

/-- The blocks from a position on lead from the share before them to all. -/
theorem Sending.climbs {payload : ByteArray} {chunk position : Nat} {result : Except Fault Unit}
    (hsending : session.Sending payload chunk position before deeds result after) :
    ∃ high, Climbs (share (min (position * chunk) payload.size) payload.size) deeds high ∧
      (result = .ok () → high = 100) := by
  induction hsending with
  | failed hinside hstoring => exact ⟨_, .of_unnoticed hstoring.does.unnoticed, by simp⟩
  | @stored position _ _ _ deeds more _ hinside hstoring hrest ih =>
      obtain ⟨high, hclimbs, hall⟩ := ih
      have hreached := planned_end hinside
      have hgrown : min (position * chunk) payload.size ≤
          min ((position + 1) * chunk) payload.size := by
        omega
      refine ⟨high, (Climbs.of_unnoticed hstoring.does.unnoticed).append ?_, hall⟩
      rw [hreached]
      exact .rises (Nat.min_le_right ..) (Report.share_mono hgrown _) hclimbs
  | endUnsent => exact ⟨_, .unnoticed rfl .stays, by simp⟩
  | ended houtside htold hmanifesting =>
      refine ⟨_, .unnoticed rfl (.of_unnoticed hmanifesting.does.unnoticed), fun _ => ?_⟩
      rw [Nat.min_eq_right houtside, Report.share_all]

end Session

namespace Programmer

variable {programmer : Programmer ω H} {session : Session ω} {before after : Moment ω}
  {deeds : List Event}

theorem Writing.climbs {image : Image} {result : Except Fault Unit}
    (hwriting : programmer.Writing image session before deeds result after) :
    ∃ high, Climbs 0 deeds high ∧ (result = .ok () → high = 100) := by
  cases hwriting with
  | unready hsettling => exact ⟨0, .of_unnoticed hsettling.does.unnoticed, by simp⟩
  | sizeless hsettling hsize => exact ⟨0, .of_unnoticed hsettling.does.unnoticed, by simp⟩
  | @sent _ _ _ _ _ _ result hsettling hready hsize hsending =>
      obtain ⟨high, hclimbs, hall⟩ := hsending.climbs
      rw [Nat.zero_mul, Nat.zero_min] at hclimbs
      have hrest := Climbs.rises (Nat.zero_le _) (Nat.zero_le _) hclimbs
      refine ⟨high, (Climbs.of_unnoticed hsettling.does.unnoticed).append hrest, fun hok => ?_⟩
      cases result with
      | ok value => exact hall rfl
      | error fault => cases hok

end Programmer

/-- Whatever the moment, the deeds of the action climb, and to the top if it succeeds. -/
def Action.Climbing (action : Action ω Unit) : Prop :=
  ∀ before, ∃ deeds result after high, action.Performs before deeds result after ∧
    Climbs 0 deeds high ∧ (result = .ok () → high = 100)

theorem Programmer.write_climbing (programmer : Programmer ω H) (image : Image)
    (session : Session ω) (pace : Pace session.pipe) :
    (programmer.write image session pace).Climbing := by
  intro before
  obtain ⟨deeds, result, after, hwriting, hrun⟩ :=
    programmer.write_performs image session pace before
  obtain ⟨high, hclimbs, hall⟩ := hwriting.climbs
  exact ⟨deeds, result, after, high, hrun, hclimbs, hall⟩

/-! ## Accesses that leave the report alone -/

namespace Action

/-- Whatever the moment, nothing that the action does changes a report. -/
def Unnoticed (action : Action ω α) : Prop :=
  ∀ before, ∃ deeds result after, action.Performs before deeds result after ∧
    FirmwareUpgrade.Unnoticed deeds

theorem Unnoticed.bind {action : Action ω α} {next : α → Action ω β} (haction : action.Unnoticed)
    (hnext : ∀ value, (next value).Unnoticed) : (action >>= next).Unnoticed := by
  intro before
  obtain ⟨deeds, result, middle, hrun, hdeeds⟩ := haction before
  cases result with
  | error fault => exact ⟨deeds, _, middle, hrun.bind_error, hdeeds⟩
  | ok value =>
      obtain ⟨more, result, after, hrest, hmore⟩ := hnext value middle
      refine ⟨_, result, after, hrun.bind hrest, fun event hmem => ?_⟩
      exact (List.mem_append.mp hmem).elim (hdeeds event) (hmore event)

theorem unnoticed_ofExcept (result : Except Fault α) : (ofExcept result : Action ω α).Unnoticed :=
  fun before =>
    ⟨[], _, before, performs_ofExcept result before, by simp [FirmwareUpgrade.Unnoticed]⟩

end Action

/-- Listing devices, opening one and giving it up do not change a report. -/
structure Access.Unnoticed (access : Access ω H) : Prop where
  list : ∀ criteria, (access.list criteria).Unnoticed
  connect : ∀ device, (access.connect device).Unnoticed
  parting : ∀ device, ∀ event ∈ access.parting device, event.isDeed ∧ event.isReported = false

theorem Bench.raise_unnoticed (fault : Option Fault) : (Bench.raise fault).Unnoticed := by
  cases fault with
  | none => exact Action.unnoticed_ofExcept (.ok ())
  | some fault => exact Action.unnoticed_ofExcept (.error fault)

theorem Bench.access_unnoticed (bench : Bench) : bench.access.Unnoticed where
  list criteria := (raise_unnoticed _).bind fun _ => Action.unnoticed_ofExcept (.ok _)
  connect device := by
    have hopened : (Action.record (.opened device.handle) : Action Script Unit).Unnoticed :=
      fun before => ⟨[.opened device.handle], _, _, Action.performs_record _ rfl before,
        by simp [Unnoticed, Event.isReported]⟩
    exact hopened.bind fun _ => (raise_unnoticed _).bind fun _ => Action.unnoticed_ofExcept (.ok _)
  parting device event hmem := by
    obtain rfl := List.mem_singleton.mp hmem
    exact ⟨rfl, rfl⟩

theorem Event.not_isReported_of_surveys {event : Event} (hsurveys : event.surveys) :
    event.isReported = false := by
  cases event <;> simp_all [surveys, isReported]

theorem Bus.access_unnoticed (timeout : Nat) : (Bus.access timeout).Unnoticed where
  list criteria before := by
    obtain ⟨deeds, listed, after, hfinding, hfind⟩ := find_performs before
    exact ⟨deeds, _, after, hfind criteria,
      fun event hmem => event.not_isReported_of_surveys (hfinding.surveys event hmem)⟩
  connect device before := by
    obtain ⟨deeds, result, after, hconnecting, hconnect⟩ := connect_performs timeout device before
    refine ⟨deeds, result, after, hconnect, ?_⟩
    cases hconnecting <;> simp [Unnoticed, Event.isReported]
  parting device event hmem := by
    rcases Bus.eq_of_mem_parting hmem with rfl | rfl
    · exact ⟨rfl, rfl⟩
    · exact ⟨rfl, rfl⟩

namespace Access.Unnoticed

variable {access : Access ω H}

theorem choose (hunnoticed : access.Unnoticed) (criteria : Criteria) :
    (access.choose criteria).Unnoticed := by
  intro before
  obtain ⟨deeds, listed, after, hlist, hdeeds⟩ := hunnoticed.list criteria before
  exact ⟨deeds, _, after, choose_performs hlist, hdeeds⟩

/-- Work that climbs still does with the opening before it and the parting after it. -/
theorem withSession (hunnoticed : access.Unnoticed) (device : Device H)
    {work : (session : Session ω) → Pace session.pipe → Action ω Unit}
    (hwork : ∀ session pace, (work session pace).Climbing) :
    (access.withSession device work).Climbing := by
  intro before
  obtain ⟨opening, connected, middle, hconnect, hopening⟩ := hunnoticed.connect device before
  cases connected with
  | error fault =>
      exact ⟨_, _, _, 0, withSession_unopened hconnect, .of_unnoticed hopening, by simp⟩
  | ok opened =>
      obtain ⟨deeds, result, after, high, hrun, hclimbs, hall⟩ :=
        hwork (device.session opened.pipe) opened.pace middle
      have hisDeed : ∀ event ∈ access.parting device, event.isDeed :=
        fun event hmem => (hunnoticed.parting device event hmem).1
      have hparting : FirmwareUpgrade.Unnoticed (access.parting device) :=
        fun event hmem => (hunnoticed.parting device event hmem).2
      exact ⟨_, result, _, high, withSession_performs hisDeed hconnect hrun,
        (Climbs.of_unnoticed hopening).append (hclimbs.append (.of_unnoticed hparting)), hall⟩

end Access.Unnoticed

/-! ## One flash -/

/-- The events of a flash: it is started, climbs, and ends with the event that tells how.  It has
climbed to the top if it succeeds. -/
def FollowsClimb (events : List Event) (result : Except Fault Unit) : Prop :=
  ∃ climb high, events = .started :: (climb ++ [.finished result.isOk]) ∧ Climbs 0 climb high ∧
    (result = .ok () → high = 100)

namespace Programmer

variable {programmer : Programmer ω H} (hunnoticed : programmer.access.Unnoticed)

include hunnoticed

theorem transfer_climbing (file : ByteArray) : (programmer.transfer file).Climbing := by
  intro before
  cases hload : Image.load programmer.options.suffixUse file with
  | error fault => exact ⟨_, _, _, 0, transfer_unreadable hload, .stays, by simp⟩
  | ok image =>
      obtain ⟨survey, chosen, middle, hchoose, hsurvey⟩ :=
        hunnoticed.choose (programmer.criteriaFor image) before
      have hsearch : Climbs 0 survey 0 := .of_unnoticed hsurvey
      cases chosen with
      | error fault =>
          exact ⟨_, _, _, 0, transfer_unchosen hload hchoose, hsearch, by simp⟩
      | ok device =>
          cases hcheck : image.checkDevice device with
          | error fault =>
              exact ⟨_, _, _, 0, transfer_mismatched hload hchoose hcheck, hsearch, by simp⟩
          | ok accepted =>
              obtain ⟨deeds, result, after, high, hrun, hclimbs, hall⟩ :=
                hunnoticed.withSession device (programmer.write_climbing image) middle
              exact ⟨_, result, after, high, transfer_performs hload hchoose hcheck hrun,
                hsearch.append hclimbs, hall⟩

theorem flash_followsClimb (file : ByteArray) (before : Moment ω) :
    ∃ deeds result after, (programmer.flash file).Performs before deeds result after ∧
      FollowsClimb deeds result := by
  obtain ⟨deeds, result, after, high, htransfer, hclimbs, hall⟩ :=
    transfer_climbing hunnoticed file before
  exact ⟨_, result, after, flash_performs htransfer, deeds, high, rfl, hclimbs, hall⟩

theorem flashFrom_followsClimb (path : String) (host : Host ω) :
    ∃ deeds result, (programmer.flashFrom path).Runs host deeds result ∧
      FollowsClimb deeds result := by
  cases hread : host.files.read path with
  | error error => exact ⟨_, _, flashFrom_unreadable hread, [], 0, rfl, .stays, by simp⟩
  | ok file =>
      obtain ⟨deeds, result, after, hflash, climb, high, rfl, hclimbs, hall⟩ :=
        flash_followsClimb hunnoticed file host.moment
      exact ⟨_, result, flashFrom_runs hread hflash, .started :: climb, high, rfl, .starts hclimbs,
        hall⟩

end Programmer

/-! ## What a report shows of a flash -/

/-- A moment after a flash has been started and before it has ended. -/
structure Midway (start : Report) (events earlier later : List Event) (result : Except Fault Unit)
    (percent high : Nat) : Prop where
  climbs : ∃ rest, later = rest ++ [.finished result.isOk] ∧ Climbs percent rest high
  shown : start.after earlier = ⟨percent, .pending⟩
  outcome : start.after events = ⟨high, if result.isOk then .success else .failure⟩

namespace FollowsClimb

variable {events earlier later : List Event} {result : Except Fault Unit}

theorem after_eq (hfollows : FollowsClimb events result) (start : Report) :
    ∃ climb high, events = .started :: (climb ++ [.finished result.isOk]) ∧
      Climbs 0 climb high ∧ (result = .ok () → high = 100) ∧
      start.after events = ⟨high, if result.isOk then .success else .failure⟩ := by
  obtain ⟨climb, high, rfl, hclimbs, hall⟩ := hfollows
  refine ⟨climb, high, rfl, hclimbs, hall, ?_⟩
  have hstart : start.after (.started :: (climb ++ [.finished result.isOk])) =
      (Report.after ⟨0, .pending⟩ climb).after [.finished result.isOk] :=
    Report.after_append _ climb _
  rw [hstart, hclimbs.after_eq]
  cases result with
  | ok value => rfl
  | error fault => rfl

theorem midway (hfollows : FollowsClimb events result) (start : Report)
    (hsplit : events = earlier ++ later) (hbegun : earlier ≠ []) (hunended : later ≠ []) :
    ∃ percent high, Midway start events earlier later result percent high := by
  obtain ⟨climb, high, hevents, hclimbs, -, houtcome⟩ := hfollows.after_eq start
  obtain ⟨first, inner, rfl⟩ := List.exists_cons_of_ne_nil hbegun
  obtain ⟨rest, last, rfl⟩ : ∃ rest last, later = rest ++ [last] :=
    ⟨_, _, (List.dropLast_concat_getLast hunended).symm⟩
  rw [hsplit, List.cons_append, List.cons.injEq, ← List.append_assoc] at hevents
  obtain ⟨rfl, htail⟩ := hevents
  obtain ⟨rfl, hlast⟩ := List.append_inj' htail rfl
  obtain ⟨percent, hinner, hrest⟩ := hclimbs.split
  exact ⟨percent, high, ⟨rest, by rw [hlast], hrest⟩, hinner.after_eq, houtcome⟩

end FollowsClimb

/-! ## Flashes in a row -/

/-- Where the firmware of a flash comes from. -/
inductive FirmwareSource where
  | contents (file : ByteArray)
  | path (path : String)

/-- A flash and all that it meets. -/
structure FlashRun (ω H : Type) where
  programmer : Programmer ω H
  unnoticed : programmer.access.Unnoticed
  source : FirmwareSource
  host : Host ω

namespace FlashRun

def action (run : FlashRun ω H) : Action ω Unit :=
  match run.source with
  | .contents file => run.programmer.flash file
  | .path path => run.programmer.flashFrom path

def result (run : FlashRun ω H) : Except Fault Unit :=
  (run.action.run run.host).1

def last (run : FlashRun ω H) : Host ω :=
  (run.action.run run.host).2

/-- The deeds that are on record after the run and were not before it. -/
def deeds (run : FlashRun ω H) : List Event :=
  run.last.deeds.drop run.host.deeds.length

/-- What a report shows of a run that starts when the report is `start`. -/
structure ShownBy (run : FlashRun ω H) (start : Report) : Prop where
  recorded : run.last.deeds = run.host.deeds ++ run.deeds
  begins : run.deeds.head? = some .started
  /-- The end of the run is shown only after everything else has been done. -/
  ends : run.deeds.getLast? = some (.finished run.result.isOk)
  pending : ∀ earlier later, run.deeds = earlier ++ later → earlier ≠ [] → later ≠ [] →
    (start.after earlier).completion = .pending
  completed : (start.after run.deeds).completion =
    if run.result.isOk then .success else .failure
  bounded : ∀ earlier later, run.deeds = earlier ++ later → (start.after earlier).percent ≤ 100
  /-- The product fits into 64 bits if the payload is smaller than a 128th of what they count. -/
  counted : ∀ earlier done total later,
    run.deeds = earlier ++ .downloaded done total :: later →
    done ≤ total ∧ (total < UInt64.size / 128 → 100 * done < UInt64.size) ∧
      (start.after (earlier ++ [.downloaded done total])).percent =
        if total = 0 then 100 else 100 * done / total
  rising : ∀ earlier inner later, run.deeds = earlier ++ (inner ++ later) → earlier ≠ [] →
    (start.after earlier).percent ≤ (start.after (earlier ++ inner)).percent
  untouched : run.result.isOk = false → (∀ done total, .downloaded done total ∉ run.deeds) →
    (start.after run.deeds).percent = 0
  full : run.result.isOk → (start.after run.deeds).percent = 100

theorem deeds_of_runs {run : FlashRun ω H} {events : List Event} {result : Except Fault Unit}
    (hruns : run.action.Runs run.host events result) : run.deeds = events := by
  rw [deeds, last, hruns.last_deeds, List.drop_left]

theorem followsClimb (run : FlashRun ω H) :
    run.last.deeds = run.host.deeds ++ run.deeds ∧ FollowsClimb run.deeds run.result := by
  have hruns : ∃ events result, run.action.Runs run.host events result ∧
      FollowsClimb events result := by
    cases hsource : run.source with
    | contents file =>
        obtain ⟨events, result, after, hflash, hfollows⟩ :=
          Programmer.flash_followsClimb run.unnoticed file run.host.moment
        refine ⟨events, result, ?_, hfollows⟩
        rw [action, hsource]
        exact hflash.runs
    | path path =>
        obtain ⟨events, result, hflash, hfollows⟩ :=
          Programmer.flashFrom_followsClimb run.unnoticed path run.host
        refine ⟨events, result, ?_, hfollows⟩
        rw [action, hsource]
        exact hflash
  obtain ⟨events, result, hrun, hfollows⟩ := hruns
  rw [deeds_of_runs hrun]
  exact ⟨hrun.last_deeds, (congrArg (FollowsClimb events) hrun.result_eq).mpr hfollows⟩

theorem shownBy (run : FlashRun ω H) {start : Report} (hstart : start.percent ≤ 100) :
    run.ShownBy start := by
  obtain ⟨hlast, hfollows⟩ := run.followsClimb
  obtain ⟨climb, high, hevents, hclimbs, hall, houtcome⟩ := hfollows.after_eq start
  constructor
  case recorded => exact hlast
  case begins => rw [hevents, List.head?_cons]
  case ends => rw [hevents, ← List.cons_append, List.getLast?_concat]
  case pending =>
    intro earlier later hsplit hbegun hunended
    obtain ⟨percent, high, hmidway⟩ := hfollows.midway start hsplit hbegun hunended
    rw [hmidway.shown]
  case completed => rw [houtcome]
  case bounded => exact fun earlier later _ => Report.percent_after_le hstart earlier
  case counted =>
    intro earlier done total later hsplit
    have hbegun : earlier ≠ [] := by
      rintro rfl
      rw [hevents] at hsplit
      cases hsplit
    obtain ⟨percent, high, hmidway⟩ := hfollows.midway start hsplit hbegun (List.cons_ne_nil _ _)
    obtain ⟨rest, hrest, hclimbs⟩ := hmidway.climbs
    have hdone : done ≤ total := by
      cases rest with
      | nil => cases hrest
      | cons event rest =>
          cases hrest
          cases hclimbs with
          | unnoticed hevent => cases hevent
          | rises hdone => exact hdone
    have hfits : total < UInt64.size / 128 → 100 * done < UInt64.size := by
      simp only [UInt64.size]
      omega
    refine ⟨hdone, hfits, ?_⟩
    rw [Report.after_append]
    exact Report.share_eq hdone
  case rising =>
    intro earlier inner later hsplit hbegun
    by_cases hinner : inner = []
    · simp [hinner]
    have hunended : inner ++ later ≠ [] := fun hnone => hinner (List.append_eq_nil_iff.mp hnone).1
    obtain ⟨percent, high, hmidway⟩ := hfollows.midway start hsplit hbegun hunended
    obtain ⟨rest, hrest, hclimbs⟩ := hmidway.climbs
    by_cases hlater : later = []
    · rw [hlater, List.append_nil] at hsplit
      rw [← hsplit, hmidway.shown, hmidway.outcome]
      exact hclimbs.le
    · obtain ⟨back, final, rfl⟩ : ∃ back final, later = back ++ [final] :=
        ⟨_, _, (List.dropLast_concat_getLast hlater).symm⟩
      rw [← List.append_assoc] at hrest
      obtain ⟨rfl, -⟩ := List.append_inj' hrest rfl
      obtain ⟨reached, hinner, -⟩ := hclimbs.split
      rw [Report.after_append, hmidway.shown, hinner.after_eq]
      exact hinner.le
  case untouched =>
    intro hfailed hnone
    rw [houtcome]
    refine hclimbs.eq_of_not_downloaded fun done total hmem => hnone done total ?_
    rw [hevents]
    exact List.mem_cons_of_mem _ (List.mem_append_left _ hmem)
  case full =>
    intro hok
    rw [houtcome]
    cases hresult : run.result with
    | ok value => exact hall hresult
    | error fault => simp [hresult, Except.isOk, Except.toBool] at hok

end FlashRun

/-! ## Jobs -/

theorem Fault.code_mem (fault : Fault) : fault.code ∈ [5, 14, 19, 22] := by
  cases fault with
  | file error =>
      cases hmissing : error.isNotFound with
      | true => simp [code, hmissing]
      | false => simp [code, hmissing]
  | _ => simp [code]

namespace Job

/-- The flash of a job. -/
def run (filter : Criteria) (path : String) (host : Host Bus) : FlashRun Bus Nat where
  programmer := programmer filter
  unnoticed := Bus.access_unnoticed Bus.standardTimeout
  source := .path path
  host

/-- The number that a job returns is zero exactly if the report shows a success, and else it is one
of the error numbers and the report shows a failure. -/
def Tells (code : Nat) (report : Report) : Prop :=
  (code = 0 ↔ report.completion.code = 1) ∧
    (code ≠ 0 → code ∈ [5, 14, 19, 22] ∧ report.completion.code = -1)

theorem flash_tells (filter : Criteria) (path : String) (host : Host Bus) {report : Report}
    (hreport : report.completion =
      if (run filter path host).result.isOk then .success else .failure) :
    ∃ code, (flash filter path).run host = (.ok code, (run filter path host).last) ∧
      Tells code report := by
  rcases hrun : ((programmer filter).flashFrom path).run host with ⟨result, last⟩
  have hresult : (run filter path host).result = result := congrArg Prod.fst hrun
  have hlast : (run filter path host).last = last := congrArg Prod.snd hrun
  rw [hresult] at hreport
  rw [hlast]
  cases result with
  | ok value =>
      have hsuccess : report.completion = .success := hreport
      refine ⟨0, by simp only [flash, Action.run_bind, Action.attempt, hrun]; rfl, ?_, by simp⟩
      simp [hsuccess, Completion.code]
  | error fault =>
      have hcode := fault.code_mem
      have hpositive : fault.code ≠ 0 := fun hzero => by simp [hzero] at hcode
      have hfailure : report.completion = .failure := hreport
      refine ⟨fault.code, by simp only [flash, Action.run_bind, Action.attempt, hrun]; rfl, ?_,
        fun _ => ⟨hcode, ?_⟩⟩
      · simp [hfailure, Completion.code, hpositive]
      · simp [hfailure, Completion.code]

end Job

/-- Whatever flashes the same report has followed before, it is pending from the start of a flash
until everything else is done, shows the share of the payload that has been sent, which never
goes back, and shows at the end how the flash ended.  A job returns the number that goes with what
the report then shows. -/
theorem flash_shown_by_report :
    (∀ (ω H : Type) (past : List (FlashRun ω H)) (run : FlashRun ω H),
      run.ShownBy (Report.initial.after (past.flatMap FlashRun.deeds))) ∧
    ∀ (past : List (FlashRun Bus Nat)) (filter : Criteria) (path : String) (host : Host Bus),
      ∃ code, (Job.flash filter path).run host = (.ok code, (Job.run filter path host).last) ∧
        Job.Tells code
          (Report.initial.after ((past ++ [Job.run filter path host]).flatMap FlashRun.deeds)) := by
  have hbounded : ∀ {ω H : Type} (past : List (FlashRun ω H)),
      (Report.initial.after (past.flatMap FlashRun.deeds)).percent ≤ 100 :=
    fun past => Report.percent_after_le (Nat.zero_le 100) _
  constructor
  · intro ω H past run
    exact run.shownBy (hbounded past)
  · intro past filter path host
    have hshown := (Job.run filter path host).shownBy (hbounded past)
    have hcompleted := hshown.completed
    rw [← Report.after_append] at hcompleted
    apply Job.flash_tells filter path host
    simpa using hcompleted

end FirmwareUpgrade
