import FirmwareUpgrade.Proofs.SessionRequests
import FirmwareUpgrade.Report

/-!
# Agreement of two programs

Two programs may work in different worlds, where devices are reached in different ways.  They agree
if both demand the same of a device and sleep and report the same, in the same order and at the same
time, and come to the same end.  Agreement of actions composes along binds like `Action.Performs`,
with a relation between the worlds and one between the results.
-/

namespace FirmwareUpgrade

variable {ω ω' α α' β β' ε : Type}

/-! ## Acts -/

/-- What a device is asked to do. -/
inductive Demand where
  | send (request : Request) (value : UInt16) (data : ByteArray)
  | receive (request : Request) (value length : UInt16)

def Exchange.demand : Exchange → Demand
  | .out request value data _ => .send request value data
  | .receive request value length _ => .receive request value length

/-- A step of a program as far as it does not depend on how devices are reached. -/
inductive Act where
  | demand (demand : Demand) (delay : Nat)
  | host (event : Event)

def Act.duration : Act → Nat
  | demand _ delay => delay
  | host event => event.duration

def Event.act? : Event → Option Act
  | .exchange _ transfer delay => some (.demand transfer.demand delay)
  | .notice _ | .opened _ | .dropped | .bus _ => none
  | event => some (.host event)

def acts (events : List Event) : List Act :=
  events.filterMap Event.act?

@[simp]
theorem acts_append (first second : List Event) :
    acts (first ++ second) = acts first ++ acts second := by
  simp [acts]

theorem acts_cons (event : Event) (events : List Event) :
    acts (event :: events) = event.act?.toList ++ acts events := by
  unfold acts
  cases hact : event.act? with
  | none => rw [List.filterMap_cons_none hact, Option.toList_none, List.nil_append]
  | some act => rw [List.filterMap_cons_some hact, Option.toList_some, List.singleton_append]

theorem elapsed_eq_foldr_acts (events : List Event) :
    elapsed events = (acts events).foldr (fun act total => act.duration + total) 0 := by
  induction events with
  | nil => rfl
  | cons event events ih =>
      rw [acts_cons, List.foldr_append, ← ih, elapsed_cons]
      cases event with
      | notice | opened | dropped | bus => exact Nat.zero_add _
      | _ => rfl

def demands (events : List Event) : List Demand :=
  (exchanges events).map Exchange.demand

def Act.demand? : Act → Option Demand
  | .demand made _ => some made
  | .host _ => none

theorem demands_eq (events : List Event) :
    demands events = (acts events).filterMap Act.demand? := by
  rw [demands, exchanges, acts, List.map_filterMap, List.filterMap_filterMap]
  congr
  funext event
  cases event <;> rfl

/-- The progress that is reported: how much is done, and of how much. -/
def Event.progress? : Event → Option (Nat × Nat)
  | .downloaded done total | .uploaded done total => some (done, total)
  | _ => none

def progressReports (events : List Event) : List (Nat × Nat) :=
  events.filterMap Event.progress?

def Act.progress? : Act → Option (Nat × Nat)
  | .demand _ _ => none
  | .host event => event.progress?

theorem progressReports_eq (events : List Event) :
    progressReports events = (acts events).filterMap Act.progress? := by
  rw [progressReports, acts, List.filterMap_filterMap]
  congr
  funext event
  cases event <;> rfl

def Report.follow (report : Report) : Act → Report
  | .demand _ _ => report
  | .host event => report.advance event

theorem Report.after_eq_foldl_acts (report : Report) (events : List Event) :
    report.after events = (acts events).foldl follow report := by
  induction events generalizing report with
  | nil => rfl
  | cons event events ih =>
      have hevent : report.advance event = event.act?.toList.foldl follow report := by
        cases event <;> rfl
      rw [acts_cons, List.foldl_append, ← hevent, ← ih]
      rfl

/-! ## Agreement -/

/-- Both end with the same fault, or with results that are the same in some sense. -/
inductive ResultsAgree (same : α → β → Prop) : Except ε α → Except ε β → Prop
  | ok {value value'} (hsame : same value value') : ResultsAgree same (.ok value) (.ok value')
  | error (fault : ε) : ResultsAgree same (.error fault) (.error fault)

theorem resultsAgree_eq_iff {result result' : Except ε α} :
    ResultsAgree Eq result result' ↔ result' = result := by
  constructor
  · rintro (⟨⟨⟩⟩ | _)
    · rfl
    · rfl
  · rintro rfl
    cases result' with
    | ok value => exact .ok rfl
    | error fault => exact .error fault

theorem ResultsAgree.mapError {same : α → β → Prop} {result : Except ε α} {result' : Except ε β}
    {δ : Type} (hagree : ResultsAgree same result result') (change : ε → δ) :
    ResultsAgree same (result.mapError change) (result'.mapError change) := by
  cases hagree with
  | ok hsame => exact .ok hsame
  | error fault => exact .error (change fault)

structure Moment.Agrees (related : ω → ω' → Prop) (moment : Moment ω) (moment' : Moment ω') :
    Prop where
  world : related moment.world moment'.world
  clock : moment'.clock = moment.clock

namespace Action

/-- Started at these moments, the two actions do the same acts and end alike. -/
inductive Agree (related : ω → ω' → Prop) (same : α → α' → Prop) (first : Action ω α)
    (second : Action ω' α') (before : Moment ω) (before' : Moment ω') : Prop
  | intro {deeds deeds' result result' after after'}
      (hfirst : first.Performs before deeds result after)
      (hsecond : second.Performs before' deeds' result' after')
      (hacts : acts deeds' = acts deeds) (hresult : ResultsAgree same result result')
      (hafter : after.Agrees related after')

/-- The two actions agree wherever the moments do at which they start. -/
def Mirrors (related : ω → ω' → Prop) (same : α → α' → Prop) (first : Action ω α)
    (second : Action ω' α') : Prop :=
  ∀ ⦃before before'⦄, before.Agrees related before' → Agree related same first second before before'

section

variable {related : ω → ω' → Prop} {same : α → α' → Prop} {same' : β → β' → Prop}
  {first : Action ω α} {second : Action ω' α'} {next : α → Action ω β} {next' : α' → Action ω' β'}
  {before : Moment ω} {before' : Moment ω'}

theorem Agree.bind (hagree : Agree related same first second before before')
    (hnext : ∀ {deeds value value' middle middle'},
      first.Performs before deeds (.ok value) middle → same value value' →
        middle.Agrees related middle' →
          Agree related same' (next value) (next' value') middle middle') :
    Agree related same' (first >>= next) (second >>= next') before before' := by
  cases hagree with
  | intro hfirst hsecond hacts hresult hafter =>
      cases hresult with
      | error fault =>
          exact .intro hfirst.bind_error hsecond.bind_error hacts (.error fault) hafter
      | ok hsame =>
          cases hnext hfirst hsame hafter with
          | intro hrest hrest' hmore hresult hlast =>
              refine .intro (hfirst.bind hrest) (hsecond.bind hrest') ?_ hresult hlast
              rw [acts_append, acts_append, hacts, hmore]

theorem Agree.attempt (hagree : Agree related same first second before before') :
    Agree related (ResultsAgree same) first.attempt second.attempt before before' := by
  cases hagree with
  | intro hfirst hsecond hacts hresult hafter =>
      exact .intro hfirst.attempt hsecond.attempt hacts (.ok hresult) hafter

theorem Agree.mapFault (hagree : Agree related same first second before before')
    (change : Fault → Fault) :
    Agree related same (first.mapFault change) (second.mapFault change) before before' := by
  cases hagree with
  | intro hfirst hsecond hacts hresult hafter =>
      exact .intro (hfirst.mapFault change) (hsecond.mapFault change) hacts
        (hresult.mapError change) hafter

theorem foldl_pass_world (events : List Event) (moment : Moment ω) :
    (events.foldl Moment.pass moment).world = moment.world := by
  induction events generalizing moment with
  | nil => rfl
  | cons event events ih => exact ih (moment.pass event)

theorem Agree.followedBy {events events' : List Event}
    (hagree : Agree related same first second before before')
    (hdeeds : ∀ event ∈ events, event.isDeed) (hdeeds' : ∀ event ∈ events', event.isDeed)
    (hevents : acts events' = acts events) :
    Agree related same (first.followedBy events) (second.followedBy events') before before' := by
  cases hagree with
  | intro hfirst hsecond hacts hresult hafter =>
      refine .intro (hfirst.followedBy hdeeds) (hsecond.followedBy hdeeds') ?_ hresult ?_
      · rw [acts_append, acts_append, hacts, hevents]
      · constructor
        · rw [foldl_pass_world, foldl_pass_world]
          exact hafter.world
        · rw [Moment.foldl_pass_clock, Moment.foldl_pass_clock, elapsed_eq_foldr_acts events',
            hevents, ← elapsed_eq_foldr_acts, hafter.clock]

theorem Mirrors.bind (hmirrors : Mirrors related same first second)
    (hnext : ∀ value value', same value value' →
      Mirrors related same' (next value) (next' value')) :
    Mirrors related same' (first >>= next) (second >>= next') :=
  fun _ _ hbefore => (hmirrors hbefore).bind fun _ hsame hmiddle => hnext _ _ hsame hmiddle

theorem Mirrors.attempt (hmirrors : Mirrors related same first second) :
    Mirrors related (ResultsAgree same) first.attempt second.attempt :=
  fun _ _ hbefore => (hmirrors hbefore).attempt

theorem Mirrors.mapFault (hmirrors : Mirrors related same first second)
    (change : Fault → Fault) :
    Mirrors related same (first.mapFault change) (second.mapFault change) :=
  fun _ _ hbefore => (hmirrors hbefore).mapFault change

theorem mirrors_ofExcept {result : Except Fault α} {result' : Except Fault α'}
    (hresult : ResultsAgree same result result') :
    Mirrors related same (ofExcept result) (ofExcept result') :=
  fun before before' hbefore =>
    .intro (performs_ofExcept result before) (performs_ofExcept result' before') rfl hresult hbefore

theorem mirrors_pure {value : α} {value' : α'} (hsame : same value value') :
    Mirrors related same (pure value) (pure value') :=
  mirrors_ofExcept (.ok hsame)

theorem mirrors_fail (fault : Fault) : Mirrors related same (fail fault) (fail fault) :=
  mirrors_ofExcept (.error fault)

/-- Notices are no acts, so they need not be the same. -/
theorem mirrors_note (notice notice' : Notice) :
    Mirrors related Eq (note notice) (note notice') :=
  fun before before' hbefore =>
    .intro (performs_note notice before) (performs_note notice' before') rfl (.ok rfl) hbefore

theorem mirrors_record {event : Event} (hdeed : event.isDeed) :
    Mirrors related Eq (record event) (record event) :=
  fun before before' hbefore =>
    .intro (performs_record event hdeed before) (performs_record event hdeed before') rfl (.ok rfl)
      ⟨hbefore.world, by rw [Moment.pass_clock, Moment.pass_clock, hbefore.clock]⟩

theorem mirrors_now : Mirrors related Eq now now := by
  intro before before' hbefore
  have hsecond := performs_now before'
  rw [hbefore.clock] at hsecond
  exact .intro (performs_now before) hsecond rfl (.ok rfl) hbefore

/-- Actions that are told the time at which they start. -/
theorem mirrors_of_clock (first : Nat → Action ω α) (second : Nat → Action ω' α')
    (hagree : ∀ ⦃before before'⦄, before.Agrees related before' →
      Agree related same (first before.clock) (second before.clock) before before') :
    Mirrors related same ⟨fun host => (first host.clock).run host⟩
      ⟨fun host => (second host.clock).run host⟩ := by
  intro before before' hbefore
  cases hagree hbefore with
  | intro hfirst hsecond hacts hresult hafter =>
      refine .intro ⟨?_, hfirst.clock⟩ ⟨?_, hsecond.clock⟩ hacts hresult hafter
      · rintro host rfl
        exact hfirst.run host rfl
      · rintro host rfl
        have hrun := hsecond.run host rfl
        rw [← hbefore.clock] at hrun
        exact hrun

theorem Mirrors.after_note {next next' : Unit → Action _ _} (notice notice' : Notice)
    (hnext : Mirrors related same' (next ()) (next' ())) :
    Mirrors related same' (note notice >>= next : Action ω β)
      (note notice' >>= next' : Action ω' β') :=
  (mirrors_note notice notice').bind fun _ _ _ => hnext

end

end Action

end FirmwareUpgrade
