import FirmwareUpgrade.Proofs.RequestSets
import FirmwareUpgrade.Proofs.TransferFaults

/-!
# Lost devices

A device is lost if it is told to give up a transfer and does not confirm that it is idle then.
Only an upload tells it so after the recovery, and at each place where it does, a missing
confirmation ends the upload at once.  Nothing else makes the fault of an operation fatal.
-/

namespace FirmwareUpgrade

variable {ω H α β : Type}

/-! ## Failed cancellations -/

def Event.aborts : Event → Bool
  | .exchange _ (.out .abort _ _ _) _ => true
  | _ => false

def Abortless (events : List Event) : Prop :=
  ∀ event ∈ events, event.aborts = false

/-- A device is told to give up its transfer and does not confirm that it is idle. -/
inductive FailedCancel : List Event → Prop
  | unsent (route : Route) (error : TransferError) (delay : Nat) :
      FailedCancel [.exchange route (.out .abort 0 .empty (.error error)) delay]
  | unanswered (route : Route) (count delay : Nat) (error : TransferError) (wait : Nat) :
      FailedCancel [.exchange route (.out .abort 0 .empty (.ok count)) delay,
        .exchange route (.receive .getStatus 0 6 (.error error)) wait]
  | busy (route : Route) (count delay : Nat) (bytes : ByteArray) (wait : Nat)
      (hstate : (reportOf bytes).2 ≠ .dfuIdle) :
      FailedCancel [.exchange route (.out .abort 0 .empty (.ok count)) delay,
        .exchange route (.receive .getStatus 0 6 (.ok bytes)) wait]

/-- One of the events is a failed cancellation, and these others are all that happens after it. -/
def LostBefore (later events : List Event) : Prop :=
  ∃ earlier attempt, events = earlier ++ (attempt ++ later) ∧ FailedCancel attempt

section Events

variable {attempt events later rest : List Event} {event : Event}

theorem FailedCancel.starts (hfailed : FailedCancel attempt) :
    ∃ first others, attempt = first :: others ∧ first.aborts ∧ Abortless others := by
  cases hfailed <;> exact ⟨_, _, rfl, rfl, by simp [Abortless, Event.aborts]⟩

/-- Where one failed cancellation starts, it also ends in only one way. -/
theorem FailedCancel.unique {attempt' : List Event} (hfirst : FailedCancel attempt)
    (hsecond : FailedCancel attempt') (heq : attempt ++ later = attempt' ++ rest) :
    later = rest := by
  cases hfirst <;> cases hsecond <;> simp_all

theorem lostBefore_cons :
    LostBefore later (event :: events) ↔
      (∃ attempt, event :: events = attempt ++ later ∧ FailedCancel attempt) ∨
        LostBefore later events := by
  constructor
  · intro ⟨earlier, attempt, hsplit, hfailed⟩
    cases earlier with
    | nil => exact .inl ⟨attempt, hsplit, hfailed⟩
    | cons first earlier =>
        obtain ⟨-, hrest⟩ := List.cons.inj hsplit
        exact .inr ⟨earlier, attempt, hrest, hfailed⟩
  · intro hlost
    rcases hlost with ⟨attempt, hsplit, hfailed⟩ | ⟨earlier, attempt, hsplit, hfailed⟩
    · exact ⟨[], attempt, hsplit, hfailed⟩
    · exact ⟨event :: earlier, attempt, by rw [hsplit, List.cons_append], hfailed⟩

theorem lostBefore_cons_of_not_aborts (hquiet : event.aborts = false) :
    LostBefore later (event :: events) ↔ LostBefore later events := by
  rw [lostBefore_cons]
  constructor
  · intro hlost
    rcases hlost with ⟨attempt, hsplit, hfailed⟩ | hlost
    · obtain ⟨first, others, rfl, haborts, -⟩ := hfailed.starts
      obtain ⟨rfl, -⟩ := List.cons.inj hsplit
      rw [hquiet] at haborts
      cases haborts
    · exact hlost
  · exact .inr

theorem lostBefore_append_of_abortless (hquiet : Abortless events) :
    LostBefore later (events ++ rest) ↔ LostBefore later rest := by
  induction events with
  | nil => rfl
  | cons event events ih =>
      have hevents : Abortless events :=
        fun other hmem => hquiet other (List.mem_cons_of_mem event hmem)
      rw [List.cons_append, lostBefore_cons_of_not_aborts (hquiet event List.mem_cons_self)]
      exact ih hevents

theorem not_lostBefore_of_abortless (hquiet : Abortless events) : ¬ LostBefore later events := by
  intro ⟨earlier, attempt, hsplit, hfailed⟩
  obtain ⟨first, others, rfl, haborts, -⟩ := hfailed.starts
  have hfirst := hquiet first (by simp [hsplit])
  rw [haborts] at hfirst
  cases hfirst

/-- After a failed cancellation that is the only one, there is no other way to lose the device. -/
theorem FailedCancel.lostBefore_append (hfailed : FailedCancel attempt) (hrest : Abortless rest) :
    LostBefore later (attempt ++ rest) ↔ later = rest := by
  constructor
  · intro hlost
    obtain ⟨first, others, rfl, -, hothers⟩ := hfailed.starts
    rw [List.cons_append, lostBefore_cons, lostBefore_append_of_abortless hothers] at hlost
    rcases hlost with ⟨attempt, hsplit, hagain⟩ | hlost
    · exact hagain.unique hfailed hsplit.symm
    · exact absurd hlost (not_lostBefore_of_abortless hrest)
  · intro heq
    exact ⟨[], _, by rw [heq, List.nil_append], hfailed⟩

end Events

/-! ## Losing the device in an upload -/

/-- The operation ends with a fault after which the device can no longer be relied on. -/
def EndsFatally (result : Except Fault α) : Prop :=
  ∃ fault, result = .error fault ∧ fault.isFatal

@[simp]
theorem not_endsFatally_ok (value : α) : ¬ EndsFatally (.ok value) := by
  simp [EndsFatally]

@[simp]
theorem endsFatally_error {fault : Fault} :
    EndsFatally (.error fault : Except Fault α) ↔ fault.isFatal := by
  simp [EndsFatally]

@[simp]
theorem endsFatally_map {result : Except Fault α} {change : α → β} :
    EndsFatally (result.map change) ↔ EndsFatally result := by
  cases result <;> simp [Except.map]

theorem not_endsFatally_of_endsPlainly {result : Except Fault α} (hplain : EndsPlainly result) :
    ¬ EndsFatally result := by
  intro ⟨fault, hfault, hfatal⟩
  simp [Fault.isFatal_of_isPlain (hplain fault hfault)] at hfatal

namespace Session

variable {session : Session ω} {before after : Moment ω} {deeds later rest : List Event}
  {limit : Option Nat} {chunk bound : Nat}

theorem abortless_sleeps (reply : StatusReply) : Abortless reply.sleeps := by
  unfold StatusReply.sleeps
  split <;> simp [Abortless, Event.aborts]

theorem Cancelling.failedCancel {fault : Fault}
    (hcancelling : session.Cancelling before deeds (.error fault) after) :
    FailedCancel deeds ∧ fault.isFatal := by
  cases hcancelling with
  | unsent htold => exact ⟨.unsent _ _ _, rfl⟩
  | unconfirmed htold hasked => exact ⟨.unanswered _ _ _ _ _, rfl⟩
  | ignored htold hasked hbusy =>
      rw [replyTo_state] at hbusy
      exact ⟨.busy _ _ _ _ _ hbusy, rfl⟩

theorem Cancelling.lost_iff_of_ok {reply : StatusReply}
    (hcancelling : session.Cancelling before deeds (.ok reply) after) :
    LostBefore later (deeds ++ rest) ↔ LostBefore later rest := by
  cases hcancelling with
  | cancelled htold hasked hidle =>
      rw [replyTo_state] at hidle
      rw [List.cons_append, List.cons_append, lostBefore_cons,
        lostBefore_cons_of_not_aborts rfl,
        lostBefore_append_of_abortless (abortless_sleeps _)]
      constructor
      · intro hlost
        rcases hlost with ⟨attempt, hsplit, hfailed⟩ | hlost
        · -- The device took the request and confirmed it.
          cases hfailed <;> simp_all [orderDeed, statusDeed]
        · exact hlost
      · exact .inr

theorem Cancelling.lost_iff {result : Except Fault StatusReply}
    (hcancelling : session.Cancelling before deeds result after) (hrest : Abortless rest) :
    LostBefore later (deeds ++ rest) ↔ EndsFatally result ∧ later = rest := by
  cases result with
  | error fault =>
      obtain ⟨hfailed, hfatal⟩ := hcancelling.failedCancel
      simp [hfailed.lostBefore_append hrest, hfatal]
  | ok reply => simp [hcancelling.lost_iff_of_ok, not_lostBefore_of_abortless hrest]

theorem Reading.lost_iff {position : Nat} {received : ByteArray} {result : Except Fault ByteArray}
    (hreading : session.Reading chunk limit bound position received before deeds result after)
    (hrest : Abortless rest) :
    LostBefore later (deeds ++ rest) ↔ EndsFatally result ∧ later = rest := by
  have hnone : ¬ LostBefore later rest := not_lostBefore_of_abortless hrest
  -- Blocks never tell the device to give up; only the cancellation that may follow them does.
  induction hreading with
  | failed hmore hasked =>
      rw [List.cons_append, lostBefore_cons_of_not_aborts rfl]
      simp [hnone, Fault.isFatal]
  | short hmore hasked hshort =>
      rw [List.cons_append, lostBefore_cons_of_not_aborts rfl, List.cons_append,
        lostBefore_cons_of_not_aborts rfl]
      simp [hnone]
  | full hmore hasked hfull hreading ih =>
      rw [List.cons_append, lostBefore_cons_of_not_aborts rfl, List.cons_append,
        lostBefore_cons_of_not_aborts rfl]
      exact ih
  | stuck hdone hcancelling =>
      rw [hcancelling.lost_iff hrest]
      simp
  | complete hlimit hdone hcancelling =>
      rw [hcancelling.lost_iff hrest]
      simp
  | tooLarge hlimit hdone hcancelling =>
      rw [hcancelling.lost_iff hrest]
      simp [Fault.isFatal]

theorem Fetching.lost_iff {result : Except Fault ByteArray}
    (hfetching : session.Fetching chunk limit bound before deeds result after)
    (hrest : Abortless rest) :
    LostBefore later (deeds ++ rest) ↔ EndsFatally result ∧ later = rest := by
  cases hfetching with
  | unready hcancelling =>
      rw [hcancelling.lost_iff hrest]
      simp
  | ready hcancelling hreading =>
      rw [List.append_assoc, hcancelling.lost_iff_of_ok]
      exact hreading.lost_iff hrest

end Session

namespace Programmer

variable {programmer : Programmer ω H} {limit : Option Nat} {before after : Moment ω}
  {deeds later : List Event} {result : Except Fault ByteArray}
  (hdiscreet : programmer.access.Discreet)

/-- Once a device that meets the criteria has been prepared, it is lost; `later` happens then. -/
def Loses (programmer : Programmer ω H) (before : Moment ω) (deeds : List Event)
    (device : Device H) (later : List Event) : Prop :=
  ∃ session prepared ready rest,
    programmer.Prepares programmer.options.criteria (fun _ => .ok ()) before device session prepared
      ready ∧
    deeds = prepared ++ rest ∧ LostBefore later rest

include hdiscreet

theorem abortless_parting (device : Device H) : Abortless (programmer.access.parting device) := by
  intro event hmem
  obtain ⟨-, hnone⟩ := hdiscreet.parting device event hmem
  cases event with
  | exchange => cases hnone
  | _ => rfl

/-- When a device is lost, the upload ends fatally and only the device is given up. -/
theorem Uploading.ends_of_loses {device : Device H}
    (huploading : programmer.Uploading limit before deeds result after)
    (hloses : programmer.Loses before deeds device later) :
    EndsFatally result ∧ later = programmer.access.parting device := by
  -- The prepared device is the one that the upload works with, so `rest` is its own work.
  obtain ⟨session, prepared, ready, rest, hprepares, hdeeds, hlost⟩ := hloses
  have hparting := abortless_parting hdiscreet device
  rcases huploading.of_prepares hprepares with ⟨fault, -, -, hsplit⟩ | ⟨chunk, work, done, -,
    hfetching, hsplit⟩
  · rw [hsplit] at hdeeds
    obtain rfl := List.append_cancel_left hdeeds
    exact absurd hlost (not_lostBefore_of_abortless hparting)
  · rw [hsplit] at hdeeds
    obtain rfl := List.append_cancel_left hdeeds
    exact (hfetching.lost_iff hparting).mp hlost

theorem Uploading.loses_of_endsFatally (hplain : programmer.access.Plain)
    (huploading : programmer.Uploading limit before deeds result after)
    (hfatal : EndsFatally result) :
    ∃ device, programmer.Loses before deeds device (programmer.access.parting device) := by
  cases huploading with
  | hindered hhindered =>
      have hfault := hhindered.isPlain hplain (by simp [EndsPlainly])
      simp [Fault.isFatal_of_isPlain hfault] at hfatal
  | transferred hprepares hsize hfetching =>
      refine ⟨_, _, _, _, _, hprepares, rfl, ?_⟩
      exact (hfetching.lost_iff (abortless_parting hdiscreet _)).mpr ⟨hfatal, rfl⟩

end Programmer

/-! ## The other operations -/

namespace Action

theorem plain_note (notice : Notice) : (note notice : Action ω Unit).Plain :=
  fun before => ⟨[], _, before, performs_note notice before, by simp [EndsPlainly]⟩

theorem Plain.followedBy {action : Action ω α} {events : List Event} (hplain : action.Plain)
    (hdeeds : ∀ event ∈ events, event.isDeed) : (action.followedBy events).Plain := by
  intro before
  obtain ⟨deeds, result, after, hrun, hends⟩ := hplain before
  exact ⟨_, result, _, hrun.followedBy hdeeds, hends⟩

end Action

theorem Access.Plain.withSession {access : Access ω H} (hplain : access.Plain)
    (hdiscreet : access.Discreet) (device : Device H)
    {work : (session : Session ω) → Pace session.pipe → Action ω α}
    (hwork : ∀ session pace, (work session pace).Plain) :
    (access.withSession device work).Plain := by
  refine (hplain.connect device).bind fun opened => ?_
  refine Action.Plain.followedBy ?_ (hdiscreet.parting_isDeed device)
  exact (Action.plain_note _).bind fun _ => hwork _ _

namespace Session

theorem getStatus_plain (session : Session ω) : session.getStatus.Plain := by
  intro before
  rcases hasked : session.pipe.asked .getStatus 0 6 before with ⟨⟨answer, delay⟩, after⟩
  refine ⟨_, _, _, getStatus_performs hasked, ?_⟩
  cases answer <;> simp [EndsPlainly, Fault.isPlain]

theorem detach_plain (session : Session ω) (timeout : UInt16) : (session.detach timeout).Plain := by
  intro before
  rcases htold : session.pipe.told .detach timeout .empty before with ⟨⟨taken, delay⟩, after⟩
  refine ⟨_, _, _, detach_performs htold, ?_⟩
  cases taken <;> simp [EndsPlainly, Except.mapError, Except.map, Fault.isPlain]

end Session

namespace Programmer

variable {programmer : Programmer ω H} (hdiscreet : programmer.access.Discreet)
  (hplain : programmer.access.Plain)

include hdiscreet hplain

theorem status_plain : programmer.status.Plain :=
  (hplain.choose _).bind fun device =>
    hplain.withSession hdiscreet device fun session _ => session.getStatus_plain

theorem detach_plain (timeout : UInt16) : (programmer.detach timeout).Plain := by
  refine (hplain.choose _).bind fun device => ?_
  split
  · exact Action.plain_note _
  · refine hplain.withSession hdiscreet device fun session _ => ?_
    refine (session.detach_plain timeout).bind fun _ => ?_
    split
    · exact Action.plain_note _
    · exact Action.plain_pure ()

theorem flash_not_fatal (file : ByteArray) (before : Moment ω) :
    ∃ deeds result after, (programmer.flash file).Performs before deeds result after ∧
      ¬ EndsFatally result := by
  cases hload : Image.load programmer.options.suffixUse file with
  | error fault =>
      exact ⟨_, _, _, flash_performs (transfer_unreadable hload), by simp [Fault.isFatal]⟩
  | ok image =>
      obtain ⟨deeds, result, after, htransferring, hflash⟩ :=
        flash_takes_course hdiscreet hload before
      refine ⟨_, result, after, hflash, ?_⟩
      -- The mark of a download keeps the fault under it, and that one is direct.
      cases htransferring with
      | hindered hhindered =>
          have hfault := hhindered.isPlain hplain image.checkDevice_plainly
          simp [Fault.isFatal_of_isPlain hfault]
      | transferred hprepares hsize hdelivering =>
          cases hdelivering with
          | @sent _ _ ended hsending =>
              cases ended with
              | ok done => simp [Except.mapError]
              | error cause =>
                  have hcause := Fault.isPlain_of_isDirect (hsending.endsDirectly cause rfl)
                  simp [Except.mapError, Fault.isFatal, Fault.isFatal_of_isPlain hcause]

theorem flashFrom_not_fatal (path : String) (host : Host ω) :
    ∃ deeds result, (programmer.flashFrom path).Runs host deeds result ∧
      ¬ EndsFatally result := by
  cases hread : host.files.read path with
  | error error => exact ⟨_, _, flashFrom_unreadable hread, by simp [Fault.isFatal]⟩
  | ok file =>
      obtain ⟨deeds, result, after, hflash, hnone⟩ :=
        flash_not_fatal hdiscreet hplain file host.moment
      exact ⟨_, result, flashFrom_runs hread hflash, hnone⟩

end Programmer

/-! ## All operations -/

namespace Operation

def result (operation : Operation) (programmer : Programmer ω H) (host : Host ω) :
    Except Fault Unit :=
  match operation with
  | flash file => ((programmer.flash file).run host).1
  | flashFrom path => ((programmer.flashFrom path).run host).1
  | upload limit => ((programmer.upload limit).run host).1.map fun _ => ()
  | detach timeout => ((programmer.detach timeout).run host).1
  | status => (programmer.status.run host).1.map fun _ => ()
  | list criteria => ((programmer.access.list criteria).run host).1.map fun _ => ()

/-- The operation is an upload and loses its device; `later` happens after that. -/
def Loses (operation : Operation) (programmer : Programmer ω H) (before : Moment ω)
    (deeds later : List Event) : Prop :=
  ∃ limit device, operation = .upload limit ∧ programmer.Loses before deeds device later

structure TellsLoss (operation : Operation) (programmer : Programmer ω H) (host : Host ω)
    (deeds : List Event) : Prop where
  recorded : (operation.last programmer host).deeds = host.deeds ++ deeds
  fatal : EndsFatally (operation.result programmer host) ↔
    ∃ later, operation.Loses programmer host.moment deeds later
  /-- Nothing more is asked of a lost device, or of any other. -/
  silenced : ∀ later, operation.Loses programmer host.moment deeds later → exchanges later = []

variable {operation : Operation} {programmer : Programmer ω H} {host : Host ω} {deeds : List Event}

theorem TellsLoss.of_not_fatal (hother : ∀ limit, operation ≠ .upload limit)
    (hrecorded : (operation.last programmer host).deeds = host.deeds ++ deeds)
    (hresult : ¬ EndsFatally (operation.result programmer host)) :
    operation.TellsLoss programmer host deeds := by
  have hnever : ∀ later, ¬ operation.Loses programmer host.moment deeds later := by
    intro later ⟨limit, device, hupload, _⟩
    exact hother limit hupload
  constructor
  case recorded => exact hrecorded
  case fatal => simp [hresult, hnever]
  case silenced => exact fun later hloses => absurd hloses (hnever later)

theorem tellsLoss_of_plain {action : Action ω α} (hplain : action.Plain)
    (hother : ∀ limit, operation ≠ .upload limit)
    (hlast : operation.last programmer host = (action.run host).2)
    (hresult : EndsFatally (operation.result programmer host) ↔
      EndsFatally (action.run host).1) : ∃ deeds, operation.TellsLoss programmer host deeds := by
  obtain ⟨deeds, result, after, hrun, hends⟩ := hplain host.moment
  have hnever := not_endsFatally_of_endsPlainly hends
  rw [hrun.runs.result_eq] at hresult
  exact ⟨deeds, .of_not_fatal hother (hlast ▸ hrun.runs.last_deeds) (mt hresult.mp hnever)⟩

theorem TellsLoss.of_uploading {limit : Option Nat} {result : Except Fault ByteArray}
    {after : Moment ω} (hdiscreet : programmer.access.Discreet) (hplain : programmer.access.Plain)
    (huploading : programmer.Uploading limit host.moment deeds result after)
    (hruns : (programmer.upload limit).Runs host deeds result) :
    (upload limit).TellsLoss programmer host deeds := by
  have hresult : (upload limit).result programmer host = result.map fun _ => () := by
    rw [Operation.result, hruns.result_eq]
  constructor
  case recorded => exact hruns.last_deeds
  case fatal =>
    rw [hresult, endsFatally_map]
    constructor
    · intro hfatal
      obtain ⟨device, hloses⟩ := huploading.loses_of_endsFatally hdiscreet hplain hfatal
      exact ⟨_, limit, device, rfl, hloses⟩
    · intro ⟨later, _, device, _, hloses⟩
      exact (huploading.ends_of_loses hdiscreet hloses).1
  case silenced =>
    intro later ⟨_, device, _, hloses⟩
    rw [(huploading.ends_of_loses hdiscreet hloses).2]
    exact hdiscreet.exchanges_parting device

theorem tellsLoss (operation : Operation) (programmer : Programmer ω H)
    (hdiscreet : programmer.access.Discreet) (hplain : programmer.access.Plain) (host : Host ω) :
    ∃ deeds, operation.TellsLoss programmer host deeds := by
  cases operation with
  | upload limit =>
      obtain ⟨deeds, result, after, huploading, hrun⟩ :=
        Programmer.upload_takes_course hdiscreet limit host.moment
      exact ⟨deeds, .of_uploading hdiscreet hplain huploading hrun.runs⟩
  | flash file =>
      obtain ⟨deeds, result, after, hrun, hnever⟩ :=
        programmer.flash_not_fatal hdiscreet hplain file host.moment
      refine ⟨deeds, .of_not_fatal (by simp) hrun.runs.last_deeds ?_⟩
      rwa [Operation.result, hrun.runs.result_eq]
  | flashFrom path =>
      obtain ⟨deeds, result, hruns, hnever⟩ :=
        programmer.flashFrom_not_fatal hdiscreet hplain path host
      refine ⟨deeds, .of_not_fatal (by simp) hruns.last_deeds ?_⟩
      rwa [Operation.result, hruns.result_eq]
  | detach timeout =>
      have hdetach := programmer.detach_plain hdiscreet hplain timeout
      exact tellsLoss_of_plain hdetach (by simp) rfl .rfl
  | status =>
      have hstatus := programmer.status_plain hdiscreet hplain
      exact tellsLoss_of_plain hstatus (by simp) rfl endsFatally_map
  | list criteria => exact tellsLoss_of_plain (hplain.list criteria) (by simp) rfl endsFatally_map

end Operation

end FirmwareUpgrade
