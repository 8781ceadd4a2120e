import FirmwareUpgrade.Bench
import FirmwareUpgrade.Proofs.SessionRequests

/-!
# Accesses that leave the devices alone

Listing devices, opening one and giving it up is no conversation with it: an access is discreet if
none of this does a control transfer.  With such an access the control transfers of an operation are
those of its session.
-/

namespace FirmwareUpgrade

variable {ω H α β : Type}

/-! ## The control transfers of an action -/

namespace Action

/-- Whatever the moment, the control transfers of the action have a property. -/
def Conducts (property : List Exchange → Prop) (action : Action ω α) : Prop :=
  ∀ before, ∃ deeds result after,
    action.Performs before deeds result after ∧ property (exchanges deeds)

def Discreet (action : Action ω α) : Prop :=
  action.Conducts (· = [])

variable {property : List Exchange → Prop} {action : Action ω α} {next : α → Action ω β}

theorem Conducts.bind_discreet (haction : action.Conducts property)
    (hnext : ∀ value, (next value).Discreet) : (action >>= next).Conducts property := by
  intro before
  obtain ⟨deeds, result, middle, hrun, htransfers⟩ := haction before
  cases result with
  | error fault => exact ⟨deeds, _, middle, hrun.bind_error, htransfers⟩
  | ok value =>
      obtain ⟨more, result, after, hrest, hnone⟩ := hnext value middle
      refine ⟨_, result, after, hrun.bind hrest, ?_⟩
      rwa [exchanges_append, hnone, List.append_nil]

theorem Discreet.bind_conducts (haction : action.Discreet) (hempty : property [])
    (hnext : ∀ value, (next value).Conducts property) : (action >>= next).Conducts property := by
  intro before
  obtain ⟨deeds, result, middle, hrun, hnone⟩ := haction before
  cases result with
  | error fault => exact ⟨deeds, _, middle, hrun.bind_error, by rwa [hnone]⟩
  | ok value =>
      obtain ⟨more, result, after, hrest, htransfers⟩ := hnext value middle
      refine ⟨_, result, after, hrun.bind hrest, ?_⟩
      rwa [exchanges_append, hnone, List.nil_append]

theorem Discreet.bind (haction : action.Discreet) (hnext : ∀ value, (next value).Discreet) :
    (action >>= next).Discreet :=
  haction.bind_discreet hnext

theorem Conducts.attempt (haction : action.Conducts property) :
    action.attempt.Conducts property := by
  intro before
  obtain ⟨deeds, result, after, hrun, htransfers⟩ := haction before
  exact ⟨deeds, _, after, hrun.attempt, htransfers⟩

theorem Conducts.mapFault (haction : action.Conducts property) (change : Fault → Fault) :
    (action.mapFault change).Conducts property := by
  intro before
  obtain ⟨deeds, result, after, hrun, htransfers⟩ := haction before
  exact ⟨deeds, _, after, hrun.mapFault change, htransfers⟩

theorem Conducts.followedBy (haction : action.Conducts property) {events : List Event}
    (hevents : ∀ event ∈ events, event.isDeed ∧ event.exchange? = none) :
    (action.followedBy events).Conducts property := by
  intro before
  obtain ⟨deeds, result, after, hrun, htransfers⟩ := haction before
  refine ⟨_, result, _, hrun.followedBy fun event hmem => (hevents event hmem).1, ?_⟩
  have hnone : exchanges events = [] :=
    List.filterMap_eq_nil_iff.mpr fun event hmem => (hevents event hmem).2
  rwa [exchanges_append, hnone, List.append_nil]

theorem discreet_pure (value : α) : (pure value : Action ω α).Discreet :=
  fun before => ⟨[], _, before, performs_pure value before, rfl⟩

theorem discreet_ofExcept (result : Except Fault α) : (ofExcept result : Action ω α).Discreet :=
  fun before => ⟨[], _, before, performs_ofExcept result before, rfl⟩

theorem discreet_fail (fault : Fault) : (fail fault : Action ω α).Discreet :=
  fun before => ⟨[], _, before, performs_fail fault before, rfl⟩

theorem discreet_note (notice : Notice) : (note notice : Action ω Unit).Discreet :=
  fun before => ⟨[], _, before, performs_note notice before, rfl⟩

theorem discreet_record {event : Event} (hdeed : event.isDeed) (hnone : event.exchange? = none) :
    (record event : Action ω Unit).Discreet :=
  fun before => ⟨[event], _, _, performs_record event hdeed before,
    exchanges_cons_of_none [] hnone⟩

end Action

/-! ## Accesses -/

structure Access.Discreet (access : Access ω H) : Prop where
  list : ∀ criteria, (access.list criteria).Discreet
  connect : ∀ device, (access.connect device).Discreet
  parting : ∀ device, ∀ event ∈ access.parting device, event.isDeed ∧ event.exchange? = none

theorem Access.Discreet.choose {access : Access ω H} (hdiscreet : access.Discreet)
    (criteria : Criteria) : (access.choose criteria).Discreet := by
  refine (hdiscreet.list criteria).bind fun devices => ?_
  split
  · exact Action.discreet_fail _
  · exact Action.discreet_pure _
  · exact Action.discreet_fail _

/-- With a discreet access all control transfers belong to the session. -/
theorem Access.Discreet.withSession {access : Access ω H} (hdiscreet : access.Discreet)
    {property : List Exchange → Prop} (hempty : property []) (device : Device H)
    {work : (session : Session ω) → Pace session.pipe → Action ω α}
    (hwork : ∀ session pace, (work session pace).Conducts property) :
    (access.withSession device work).Conducts property := by
  refine (hdiscreet.connect device).bind_conducts hempty fun opened => ?_
  refine Action.Conducts.followedBy ?_ (hdiscreet.parting device)
  exact (Action.discreet_note _).bind_conducts hempty fun _ => hwork _ _

theorem Bench.raise_discreet (fault : Option Fault) : (Bench.raise fault).Discreet := by
  cases fault with
  | none => exact Action.discreet_pure ()
  | some fault => exact Action.discreet_fail fault

theorem Bench.access_discreet (bench : Bench) : bench.access.Discreet where
  list criteria := (raise_discreet _).bind fun _ => Action.discreet_pure _
  connect device :=
    (Action.discreet_record rfl rfl).bind fun _ =>
      (raise_discreet _).bind fun _ => Action.discreet_pure _
  parting device event hmem := by
    obtain rfl := List.mem_singleton.mp hmem
    exact ⟨rfl, rfl⟩

end FirmwareUpgrade
