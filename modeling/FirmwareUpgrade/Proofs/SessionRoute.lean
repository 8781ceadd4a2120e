import FirmwareUpgrade.Proofs.SessionDeeds

/-!
# The route of a session

Whatever is done with a session, all transfers go over the route of its control pipe, and everything
else that happens meanwhile concerns the host alone.
-/

namespace FirmwareUpgrade

variable {ω H : Type}

/-- No device is concerned. -/
def Event.isHostOnly : Event → Bool
  | .sleep _ | .notice _ | .started | .finished _ | .downloaded _ _ | .uploaded _ _
  | .saved _ _ => true
  | .exchange _ _ _ | .opened _ | .dropped | .bus _ => false

inductive Event.Within (route : Route) : Event → Prop
  | transfer (transfer : Exchange) (delay : Nat) : Within route (.exchange route transfer delay)
  | host {event : Event} (hhost : event.isHostOnly) : Within route event

def StaysWithin (route : Route) (events : List Event) : Prop :=
  ∀ event ∈ events, event.Within route

section Events

variable {route : Route}

@[simp]
theorem staysWithin_nil (route : Route) : StaysWithin route [] := by
  simp [StaysWithin]

@[simp]
theorem staysWithin_cons {event : Event} {events : List Event} :
    StaysWithin route (event :: events) ↔ event.Within route ∧ StaysWithin route events := by
  simp [StaysWithin]

@[simp]
theorem staysWithin_append {first second : List Event} :
    StaysWithin route (first ++ second) ↔ StaysWithin route first ∧ StaysWithin route second := by
  simp [StaysWithin, or_imp, forall_and]

end Events

namespace Session

variable {session : Session ω} {allowed : Demand → Prop} {reporting : Prop}

theorem Deed.within {event : Event} (hdeed : session.Deed allowed reporting event) :
    event.Within session.pipe.route := by
  cases hdeed with
  | transfer delay => exact .transfer _ delay
  | sleep | downloaded | uploaded => exact .host rfl

theorem Does.staysWithin {events : List Event} (hdoes : session.Does allowed reporting events) :
    StaysWithin session.pipe.route events :=
  fun event hmem => (hdoes event hmem).within

theorem detach_staysWithin (session : Session ω) (timeout : UInt16) (before : Moment ω) :
    ∃ deeds result after, (session.detach timeout).Performs before deeds result after ∧
      StaysWithin session.pipe.route deeds := by
  rcases htold : session.pipe.told .detach timeout .empty before with ⟨⟨taken, delay⟩, after⟩
  refine ⟨_, _, _, detach_performs htold, ?_⟩
  exact staysWithin_cons.mpr ⟨.transfer _ delay, staysWithin_nil _⟩

theorem getStatus_staysWithin (session : Session ω) (before : Moment ω) :
    ∃ deeds result after, session.getStatus.Performs before deeds result after ∧
      StaysWithin session.pipe.route deeds := by
  rcases hasked : session.pipe.asked .getStatus 0 6 before with ⟨⟨answer, delay⟩, after⟩
  refine ⟨_, _, _, getStatus_performs hasked, ?_⟩
  exact staysWithin_cons.mpr ⟨.transfer _ delay, staysWithin_nil _⟩

end Session

namespace Programmer

variable {programmer : Programmer ω H} {session : Session ω} {before after : Moment ω}
  {deeds : List Event}

theorem Writing.staysWithin {image : Image} {result : Except Fault Unit}
    (hwriting : programmer.Writing image session before deeds result after) :
    StaysWithin session.pipe.route deeds := by
  obtain ⟨recovery, rest, rfl, hrecovery, hrest, -⟩ := hwriting.does
  exact staysWithin_append.mpr ⟨hrecovery.staysWithin, hrest.staysWithin⟩

theorem Retrieving.staysWithin {limit : Option Nat} {result : Except Fault ByteArray}
    (hretrieving : programmer.Retrieving limit session before deeds result after) :
    StaysWithin session.pipe.route deeds :=
  hretrieving.does.staysWithin

end Programmer

end FirmwareUpgrade
