import FirmwareUpgrade.Proofs.Agreement
import FirmwareUpgrade.Proofs.Operations

/-!
# The deeds of a session

The work with a session makes demands of its device, sleeps, and may report progress; it does
nothing else.  `Session.Does` says this of a list of events, with the demands that the work may make
as a parameter.  Each course gets one lemma with its own demands, and what is common to all events
of a course is read off there.
-/

namespace FirmwareUpgrade

variable {ω H : Type}

/-! ## Demands -/

namespace Demand

/-- What a device is asked while it is waited for. -/
inductive Polls : Demand → Prop
  | getStatus : Polls (.receive .getStatus 0 6)

/-- What brings a device to its idle state. -/
inductive Recovers : Demand → Prop
  | getStatus : Recovers (.receive .getStatus 0 6)
  | clearStatus : Recovers (.send .clearStatus 0 .empty)
  | abort : Recovers (.send .abort 0 .empty)

/-- What writes firmware to a device. -/
inductive Writes : Demand → Prop
  | getStatus : Writes (.receive .getStatus 0 6)
  | block (number : UInt16) (data : ByteArray) : Writes (.send .download number data)

/-- What reads the firmware of a device. -/
inductive Reads : Demand → Prop
  | getStatus : Reads (.receive .getStatus 0 6)
  | abort : Reads (.send .abort 0 .empty)
  | block (number length : UInt16) : Reads (.receive .upload number length)

/-- What an upload asks of a device, from the recovery on. -/
def Retrieves (demand : Demand) : Prop :=
  demand.Recovers ∨ demand.Reads

variable {demand : Demand}

theorem Polls.writes (hpolls : demand.Polls) : demand.Writes := by
  cases hpolls
  exact .getStatus

end Demand

namespace Session

/-! ## Lists of deeds -/

/-- An event of the work with a session, which makes only allowed demands and may be reporting its
progress. -/
inductive Deed (session : Session ω) (allowed : Demand → Prop) (reporting : Prop) : Event → Prop
  | transfer {transfer : Exchange} (delay : Nat) (hallowed : allowed transfer.demand) :
      Deed session allowed reporting (.exchange session.pipe.route transfer delay)
  | sleep (milliseconds : Nat) : Deed session allowed reporting (.sleep milliseconds)
  | downloaded (done total : Nat) (hreporting : reporting) :
      Deed session allowed reporting (.downloaded done total)
  | uploaded (done limit : Nat) (hreporting : reporting) :
      Deed session allowed reporting (.uploaded done limit)

def Does (session : Session ω) (allowed : Demand → Prop) (reporting : Prop)
    (events : List Event) : Prop :=
  ∀ event ∈ events, session.Deed allowed reporting event

section Events

variable {session : Session ω} {allowed wider : Demand → Prop} {reporting louder : Prop}
  {events : List Event}

@[simp]
theorem does_nil : session.Does allowed reporting [] := by
  simp [Does]

@[simp]
theorem does_cons {event : Event} :
    session.Does allowed reporting (event :: events) ↔
      session.Deed allowed reporting event ∧ session.Does allowed reporting events := by
  simp [Does]

@[simp]
theorem does_append {more : List Event} :
    session.Does allowed reporting (events ++ more) ↔
      session.Does allowed reporting events ∧ session.Does allowed reporting more := by
  simp [Does, or_imp, forall_and]

@[simp]
theorem deed_sleep (milliseconds : Nat) : session.Deed allowed reporting (.sleep milliseconds) :=
  .sleep milliseconds

@[simp]
theorem deed_downloaded_iff {done total : Nat} :
    session.Deed allowed reporting (.downloaded done total) ↔ reporting :=
  ⟨fun hdeed => by cases hdeed; assumption, .downloaded done total⟩

@[simp]
theorem deed_uploaded_iff {done limit : Nat} :
    session.Deed allowed reporting (.uploaded done limit) ↔ reporting :=
  ⟨fun hdeed => by cases hdeed; assumption, .uploaded done limit⟩

theorem deed_exchange_iff {transfer : Exchange} {delay : Nat} :
    session.Deed allowed reporting (.exchange session.pipe.route transfer delay) ↔
      allowed transfer.demand :=
  ⟨fun hdeed => by cases hdeed; assumption, .transfer delay⟩

@[simp]
theorem deed_statusDeed_iff {answer : Except TransferError ByteArray} {delay : Nat} :
    session.Deed allowed reporting (session.statusDeed answer delay) ↔
      allowed (.receive .getStatus 0 6) :=
  deed_exchange_iff

@[simp]
theorem deed_orderDeed_iff {request : Request} {value : UInt16} {data : ByteArray}
    {taken : Except TransferError Nat} {delay : Nat} :
    session.Deed allowed reporting (session.orderDeed request value data taken delay) ↔
      allowed (.send request value data) :=
  deed_exchange_iff

@[simp]
theorem deed_blockDeed_iff {block length : UInt16} {answer : Except TransferError ByteArray}
    {delay : Nat} :
    session.Deed allowed reporting (session.blockDeed block length answer delay) ↔
      allowed (.receive .upload block length) :=
  deed_exchange_iff

@[simp]
theorem does_sleeps (reply : StatusReply) : session.Does allowed reporting reply.sleeps := by
  unfold StatusReply.sleeps
  split <;> simp

theorem Does.mono (hdoes : session.Does allowed reporting events)
    (hallowed : ∀ demand, allowed demand → wider demand) (hreporting : reporting → louder) :
    session.Does wider louder events := by
  intro event hmem
  cases hdoes event hmem with
  | transfer delay hdemand => exact .transfer delay (hallowed _ hdemand)
  | sleep milliseconds => exact .sleep milliseconds
  | downloaded done total hreports => exact .downloaded done total (hreporting hreports)
  | uploaded done limit hreports => exact .uploaded done limit (hreporting hreports)

/-- All that is demanded is allowed. -/
theorem Does.demands (hdoes : session.Does allowed reporting events) :
    ∀ transfer ∈ exchanges events, allowed transfer.demand := by
  intro transfer hmem
  obtain ⟨event, hevent, htransfer⟩ := List.mem_filterMap.mp hmem
  cases hdoes event hevent with
  | transfer delay hallowed =>
      cases htransfer
      exact hallowed
  | sleep | downloaded | uploaded => cases htransfer

end Events

/-! ## The courses of the work -/

section Courses

variable {session : Session ω} {before after : Moment ω} {deeds : List Event} {start : Nat}

theorem Clearing.does {reply : StatusReply} {result : Except Fault StatusReply}
    (hclearing : session.Clearing reply before deeds result after) :
    session.Does Demand.Recovers False deeds := by
  cases hclearing with
  | unneeded => simp
  | refused => simp [Demand.Recovers.clearStatus]
  | unanswered => simp [Demand.Recovers.clearStatus, Demand.Recovers.getStatus]
  | answered => simp [Demand.Recovers.clearStatus, Demand.Recovers.getStatus]

theorem Settling.does {polls : Nat} {last : State} {result : Except Fault StatusReply}
    (hsettling : session.Settling polls last before deeds result after) :
    session.Does Demand.Recovers False deeds := by
  induction hsettling with
  | exhausted => simp
  | lost => simp [Demand.Recovers.getStatus]
  | runtime => simp [Demand.Recovers.getStatus]
  | idle hasked hremedy hclearing => simp [Demand.Recovers.getStatus, hclearing.does]
  | @ordered _ _ _ _ _ _ bytes _ request _ _ _ _ hasked hrequest htold hrest ih =>
      have hdemand : Demand.Recovers (.send request 0 .empty) := by
        cases hremedy : (session.replyTo bytes).state.remedy with
        | clearStatus =>
            rw [hremedy] at hrequest
            cases hrequest
            exact .clearStatus
        | abort =>
            rw [hremedy] at hrequest
            cases hrequest
            exact .abort
        | ready | askAgain | giveUp => simp [hremedy, Remedy.request?] at hrequest
      simp [Demand.Recovers.getStatus, hdemand, ih]
  | asked hasked hremedy hrest ih => simp [Demand.Recovers.getStatus, ih]

theorem Busy.does {result : Except Fault StatusReply}
    (hbusy : session.Busy start before deeds result after) :
    session.Does Demand.Polls False deeds := by
  induction hbusy with
  | lost => simp [Demand.Polls.getStatus]
  | settled => simp [Demand.Polls.getStatus]
  | late => simp [Demand.Polls.getStatus]
  | again hasked hsettled hinTime hrest ih => simp [Demand.Polls.getStatus, ih]

theorem Manifesting.does {result : Except Fault Unit}
    (hmanifesting : session.Manifesting start before deeds result after) :
    session.Does Demand.Polls False deeds := by
  induction hmanifesting with
  | left => simp [Demand.Polls.getStatus]
  | lost => simp [Demand.Polls.getStatus]
  | concluded => simp [Demand.Polls.getStatus]
  | late => simp [Demand.Polls.getStatus]
  | again hasked hwork hnext hinTime hrest ih => simp [Demand.Polls.getStatus, ih]

theorem Does.writes (hdoes : session.Does Demand.Polls False deeds) :
    session.Does Demand.Writes False deeds :=
  hdoes.mono (fun _ => Demand.Polls.writes) id

theorem Storing.does {block : UInt16} {data : ByteArray} {result : Except Fault Unit}
    (hstoring : session.Storing block data before deeds result after) :
    session.Does Demand.Writes False deeds := by
  cases hstoring with
  | unsent => simp [Demand.Writes.block]
  | unsettled htold hbusy => simp [Demand.Writes.block, hbusy.does.writes]
  | refused htold hbusy hbad => simp [Demand.Writes.block, hbusy.does.writes]
  | stored htold hbusy hok => simp [Demand.Writes.block, hbusy.does.writes]

theorem Does.louder {allowed : Demand → Prop} (hdoes : session.Does allowed False deeds) :
    session.Does allowed True deeds :=
  hdoes.mono (fun _ => id) fun _ => trivial

theorem Sending.does {payload : ByteArray} {chunk position : Nat} {result : Except Fault Unit}
    (hsending : session.Sending payload chunk position before deeds result after) :
    session.Does Demand.Writes True deeds := by
  induction hsending with
  | failed hinside hstoring => exact hstoring.does.louder
  | stored hinside hstoring hrest ih => simp [hstoring.does.louder, ih]
  | endUnsent => simp [Demand.Writes.block]
  | ended houtside htold hmanifesting =>
      simp [Demand.Writes.block, hmanifesting.does.writes.louder]

theorem Cancelling.does {result : Except Fault StatusReply}
    (hcancelling : session.Cancelling before deeds result after) :
    session.Does Demand.Reads False deeds := by
  cases hcancelling with
  | unsent => simp [Demand.Reads.abort]
  | unconfirmed => simp [Demand.Reads.abort, Demand.Reads.getStatus]
  | ignored => simp [Demand.Reads.abort, Demand.Reads.getStatus]
  | cancelled => simp [Demand.Reads.abort, Demand.Reads.getStatus]

theorem Reading.does {chunk bound position : Nat} {limit : Option Nat} {received : ByteArray}
    {result : Except Fault ByteArray}
    (hreading : session.Reading chunk limit bound position received before deeds result after) :
    session.Does Demand.Reads True deeds := by
  induction hreading with
  | failed => simp [Demand.Reads.block]
  | short => simp [Demand.Reads.block]
  | full hmore hasked hfull hrest ih => simp [Demand.Reads.block, ih]
  | stuck hdone hcancelling => exact hcancelling.does.louder
  | complete hlimit hdone hcancelling => exact hcancelling.does.louder
  | tooLarge hlimit hdone hcancelling => exact hcancelling.does.louder

theorem Fetching.does {chunk bound : Nat} {limit : Option Nat} {result : Except Fault ByteArray}
    (hfetching : session.Fetching chunk limit bound before deeds result after) :
    session.Does Demand.Reads True deeds := by
  cases hfetching with
  | unready hcancelling => exact hcancelling.does.louder
  | ready hcancelling hreading => simp [hcancelling.does.louder, hreading.does]

end Courses

end Session

/-! ## The work of a flash and of an upload -/

namespace Programmer

variable {programmer : Programmer ω H} {session : Session ω} {before after : Moment ω}
  {deeds : List Event}

/-- A flash recovers the device and may then write to it, from the first block on. -/
theorem Writing.does {image : Image} {result : Except Fault Unit}
    (hwriting : programmer.Writing image session before deeds result after) :
    ∃ recovery rest, deeds = recovery ++ rest ∧ session.Does Demand.Recovers False recovery ∧
      session.Does Demand.Writes True rest ∧ (rest = [] ∨
        (exchanges rest).head?.map Exchange.request = some .download) := by
  cases hwriting with
  | unready hsettling => exact ⟨_, [], (List.append_nil _).symm, hsettling.does, by simp⟩
  | sizeless hsettling hsize => exact ⟨_, [], (List.append_nil _).symm, hsettling.does, by simp⟩
  | sent hsettling hready hsize hsending =>
      refine ⟨_, _, rfl, hsettling.does, by simp [hsending.does], .inr ?_⟩
      rw [exchanges_cons_downloaded]
      exact hsending.first_request

theorem Retrieving.does {limit : Option Nat} {result : Except Fault ByteArray}
    (hretrieving : programmer.Retrieving limit session before deeds result after) :
    session.Does Demand.Retrieves True deeds := by
  have hrecovers : ∀ {events : List Event}, session.Does Demand.Recovers False events →
      session.Does Demand.Retrieves True events :=
    fun hdoes => hdoes.mono (fun _ => .inl) fun _ => trivial
  cases hretrieving with
  | unready hsettling => exact hrecovers hsettling.does
  | sizeless hsettling hsize => exact hrecovers hsettling.does
  | fetched hsettling hsize hfetching =>
      refine Session.does_append.mpr ⟨hrecovers hsettling.does, ?_⟩
      exact hfetching.does.mono (fun _ => .inr) id

end Programmer

end FirmwareUpgrade
