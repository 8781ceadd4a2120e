import FirmwareUpgrade.ControlPipe

/-!
# What an action does

The transcript of a host mixes what the program does with what it tells about it.  Here the
notices are left out: the rest of the events are the deeds.  `Action.Performs` says that an action
started at some moment does a list of deeds and ends with a result at another moment, on every host
at that moment.  It composes along binds, so that each operation gets one lemma with its deeds and
later proofs need not open it again.
-/

namespace FirmwareUpgrade

variable {ω α β : Type}

/-- What an action can depend on: the state of the devices and the time. -/
structure Moment (ω : Type) where
  world : ω
  clock : Nat

def Host.moment (host : Host ω) : Moment ω :=
  ⟨host.world, host.clock⟩

/-- A host at a moment, without files and with nothing on record. -/
def Moment.host (moment : Moment ω) : Host ω :=
  { Host.initial moment.world .empty with clock := moment.clock }

def Event.isDeed : Event → Bool
  | .notice _ => false
  | _ => true

def Host.deeds (host : Host ω) : List Event :=
  host.transcript.toList.filter Event.isDeed

def elapsed : List Event → Nat
  | [] => 0
  | event :: events => event.duration + elapsed events

@[simp]
theorem elapsed_nil : elapsed [] = 0 := rfl

@[simp]
theorem elapsed_cons (event : Event) (events : List Event) :
    elapsed (event :: events) = event.duration + elapsed events := rfl

@[simp]
theorem elapsed_append (first second : List Event) :
    elapsed (first ++ second) = elapsed first + elapsed second := by
  induction first with
  | nil => simp
  | cons event first ih =>
      rw [List.cons_append, elapsed_cons, elapsed_cons, ih, Nat.add_assoc]

/-- An event of two lists in a row is an event of the first or of the second. -/
theorem split_append {first second earlier later : List Event} {event : Event}
    (hsplit : first ++ second = earlier ++ event :: later) :
    (∃ rest, first = earlier ++ event :: rest) ∨
      ∃ rest, earlier = first ++ rest ∧ second = rest ++ event :: later := by
  rcases List.append_eq_append_iff.mp hsplit with ⟨rest, hearlier, hsecond⟩ | ⟨rest, hfirst, hrest⟩
  · exact .inr ⟨rest, hearlier, hsecond⟩
  · cases rest with
    | nil => exact .inr ⟨[], by simp [hfirst], by simpa using hrest.symm⟩
    | cons head rest =>
        obtain ⟨rfl, -⟩ := List.cons.inj hrest
        exact .inl ⟨rest, hfirst⟩

def Moment.pass (moment : Moment ω) (event : Event) : Moment ω :=
  ⟨moment.world, moment.clock + event.duration⟩

@[simp]
theorem Moment.pass_world (moment : Moment ω) (event : Event) :
    (moment.pass event).world = moment.world := rfl

@[simp]
theorem Moment.pass_clock (moment : Moment ω) (event : Event) :
    (moment.pass event).clock = moment.clock + event.duration := rfl

theorem Host.record_deeds (host : Host ω) {event : Event} (hdeed : event.isDeed) :
    (host.record event).deeds = host.deeds ++ [event] := by
  simp [Host.record, Host.deeds, hdeed]

@[simp]
theorem Host.record_notice_deeds (host : Host ω) (notice : Notice) :
    (host.record (.notice notice)).deeds = host.deeds := by
  simp [Host.record, Host.deeds, Event.isDeed]

@[ext]
theorem Action.ext {first second : Action ω α}
    (hrun : ∀ host, first.run host = second.run host) : first = second := by
  cases first
  cases second
  congr
  funext host
  exact hrun host

instance : LawfulMonad (Action ω) :=
  LawfulMonad.mk' (Action ω)
    (by
      intro α action
      apply Action.ext
      intro host
      change (match action.run host with
        | (.ok result, host) => (Except.ok result, host)
        | (.error fault, host) => (.error fault, host)) = action.run host
      split <;> simp_all)
    (by intros; rfl)
    (by
      intro α β γ action next last
      apply Action.ext
      intro host
      simp only [Action.run_bind]
      cases action.run host with
      | mk result middle => cases result <;> rfl)

namespace Action

theorem run_bind_ok {action : Action ω α} {next : α → Action ω β} {host last : Host ω} {value : α}
    (hrun : action.run host = (.ok value, last)) :
    (action >>= next).run host = (next value).run last := by
  rw [run_bind, hrun]

/-- Started at the moment `before`, the action does the deeds, ends with the result at the moment
`after` and writes no file, whatever else happened on the host. -/
structure Performs (action : Action ω α) (before : Moment ω) (deeds : List Event)
    (result : Except Fault α) (after : Moment ω) : Prop where
  run : ∀ host : Host ω, host.moment = before →
    ∃ last : Host ω, action.run host = (result, last) ∧ last.moment = after ∧
      last.files = host.files ∧ last.deeds = host.deeds ++ deeds
  clock : after.clock = before.clock + elapsed deeds

variable {before middle after : Moment ω} {deeds more : List Event}

/-- What an action performs is determined by the moment at which it starts. -/
theorem Performs.unique {action : Action ω α} {deeds' : List Event}
    {result result' : Except Fault α} {after' : Moment ω}
    (hfirst : action.Performs before deeds result after)
    (hsecond : action.Performs before deeds' result' after') :
    deeds' = deeds ∧ result' = result ∧ after' = after := by
  obtain ⟨last, hrun, hmoment, _, hdeeds⟩ := hfirst.run before.host rfl
  obtain ⟨last', hrun', hmoment', _, hdeeds'⟩ := hsecond.run before.host rfl
  rw [hrun, Prod.mk.injEq] at hrun'
  obtain ⟨rfl, rfl⟩ := hrun'
  refine ⟨?_, rfl, hmoment'.symm.trans hmoment⟩
  rw [hdeeds] at hdeeds'
  exact (List.append_cancel_left hdeeds').symm

/-- What an action started at a moment results in, if it does not end with a fault. -/
def outcome? (action : Action ω α) (moment : Moment ω) : Option α :=
  (action.run moment.host).1.toOption

theorem Performs.outcome?_eq {action : Action ω α} {result : Except Fault α}
    (haction : action.Performs before deeds result after) :
    action.outcome? before = result.toOption := by
  obtain ⟨last, hrun, -⟩ := haction.run before.host rfl
  rw [outcome?, hrun]

/-- Started on a host, the action does the deeds and ends with the result.  Unlike `Performs` this
may depend on the files of the host. -/
def Runs (action : Action ω α) (host : Host ω) (deeds : List Event) (result : Except Fault α) :
    Prop :=
  ∃ last : Host ω, action.run host = (result, last) ∧ last.deeds = host.deeds ++ deeds

theorem Runs.last_deeds {action : Action ω α} {host : Host ω} {result : Except Fault α}
    (hruns : action.Runs host deeds result) : (action.run host).2.deeds = host.deeds ++ deeds := by
  obtain ⟨last, hrun, hdeeds⟩ := hruns
  rw [hrun, hdeeds]

theorem Runs.result_eq {action : Action ω α} {host : Host ω} {result : Except Fault α}
    (hruns : action.Runs host deeds result) : (action.run host).1 = result := by
  obtain ⟨last, hrun, -⟩ := hruns
  rw [hrun]

theorem Performs.runs {action : Action ω α} {result : Except Fault α} {host : Host ω}
    (haction : action.Performs host.moment deeds result after) : action.Runs host deeds result := by
  obtain ⟨last, hrun, -, -, hdeeds⟩ := haction.run host rfl
  exact ⟨last, hrun, hdeeds⟩

theorem performs_pure (value : α) (moment : Moment ω) :
    (pure value : Action ω α).Performs moment [] (.ok value) moment where
  run host hhost := ⟨host, rfl, hhost, rfl, by simp⟩
  clock := by simp

theorem performs_ofExcept (result : Except Fault α) (moment : Moment ω) :
    (ofExcept result : Action ω α).Performs moment [] result moment where
  run host hhost := ⟨host, rfl, hhost, rfl, by simp⟩
  clock := by simp

theorem performs_fail (fault : Fault) (moment : Moment ω) :
    (fail fault : Action ω α).Performs moment [] (.error fault) moment :=
  performs_ofExcept (.error fault) moment

theorem performs_note (notice : Notice) (moment : Moment ω) :
    (note notice : Action ω Unit).Performs moment [] (.ok ()) moment where
  run host hhost := ⟨host.record (.notice notice), rfl, hhost, rfl, by simp⟩
  clock := by simp

theorem performs_look (look : ω → α × ω) (before : Moment ω) :
    (⟨fun host =>
      match look host.world with
      | (value, world) => (.ok value, { host with world })⟩ : Action ω α).Performs before []
      (.ok (look before.world).1) ⟨(look before.world).2, before.clock⟩ where
  run := by
    rintro host rfl
    exact ⟨{ host with world := (look host.world).2 }, rfl, rfl, rfl, by simp [Host.deeds]⟩
  clock := by simp

theorem performs_record (event : Event) (hdeed : event.isDeed) (moment : Moment ω) :
    (record event : Action ω Unit).Performs moment [event] (.ok ()) (moment.pass event) where
  run host hhost :=
    ⟨host.record event, rfl, by rw [← hhost]; rfl, rfl, host.record_deeds hdeed⟩
  clock := by simp

theorem Performs.bind {action : Action ω α} {next : α → Action ω β} {value : α}
    {result : Except Fault β} (hfirst : action.Performs before deeds (.ok value) middle)
    (hnext : (next value).Performs middle more result after) :
    (action >>= next).Performs before (deeds ++ more) result after where
  run host hhost := by
    obtain ⟨stop, hrun, hmoment, hfiles, hdeeds⟩ := hfirst.run host hhost
    obtain ⟨last, hrun', hmoment', hfiles', hdeeds'⟩ := hnext.run stop hmoment
    refine ⟨last, ?_, hmoment', hfiles'.trans hfiles, ?_⟩
    · rw [run_bind, hrun]
      exact hrun'
    · rw [hdeeds', hdeeds, List.append_assoc]
  clock := by
    rw [hnext.clock, hfirst.clock, elapsed_append, Nat.add_assoc]

theorem Performs.bind_error {action : Action ω α} {next : α → Action ω β} {fault : Fault}
    (hfirst : action.Performs before deeds (.error fault) after) :
    (action >>= next).Performs before deeds (.error fault) after where
  run host hhost := by
    obtain ⟨last, hrun, hmoment, hfiles, hdeeds⟩ := hfirst.run host hhost
    refine ⟨last, ?_, hmoment, hfiles, hdeeds⟩
    rw [run_bind, hrun]
  clock := hfirst.clock

theorem Performs.bind_single {action : Action ω α} {next : α → Action ω β} {value : α}
    {event : Event} {result : Except Fault β}
    (hfirst : action.Performs before [event] (.ok value) middle)
    (hnext : (next value).Performs middle more result after) :
    (action >>= next).Performs before (event :: more) result after :=
  hfirst.bind hnext

theorem Performs.bind_silent {action : Action ω α} {next : α → Action ω β} {value : α}
    {result : Except Fault β} (hfirst : action.Performs before deeds (.ok value) middle)
    (hnext : (next value).Performs middle [] result after) :
    (action >>= next).Performs before deeds result after := by
  simpa using hfirst.bind hnext

theorem Performs.after_note {next : Unit → Action ω β} {notice : Notice}
    {result : Except Fault β} (hnext : (next ()).Performs before deeds result after) :
    (note notice >>= next).Performs before deeds result after :=
  (performs_note notice before).bind hnext

theorem Performs.attempt {action : Action ω α} {result : Except Fault α}
    (haction : action.Performs before deeds result after) :
    action.attempt.Performs before deeds (.ok result) after where
  run host hhost := by
    obtain ⟨last, hrun, hrest⟩ := haction.run host hhost
    refine ⟨last, ?_, hrest⟩
    simp only [Action.attempt, hrun]
  clock := haction.clock

theorem Performs.mapFault {action : Action ω α} {result : Except Fault α}
    (change : Fault → Fault) (haction : action.Performs before deeds result after) :
    (action.mapFault change).Performs before deeds (result.mapError change) after where
  run host hhost := by
    obtain ⟨last, hrun, hrest⟩ := haction.run host hhost
    refine ⟨last, ?_, hrest⟩
    simp only [Action.mapFault, hrun]
  clock := haction.clock

/-- The time as it can be read during a run. -/
def now : Action ω Nat := ⟨fun host =>
  (.ok host.clock, host)⟩

theorem performs_now (moment : Moment ω) :
    (now : Action ω Nat).Performs moment [] (.ok moment.clock) moment where
  run host hhost := ⟨host, by rw [← hhost]; rfl, hhost, rfl, by simp⟩
  clock := by simp

end Action

theorem Host.recordAll_deeds (host : Host ω) {events : List Event}
    (hdeeds : ∀ event ∈ events, event.isDeed) :
    (host.recordAll events).deeds = host.deeds ++ events := by
  induction events generalizing host with
  | nil => simp [Host.recordAll]
  | cons event events ih =>
      have hrest := ih (host.record event) fun other hmem =>
        hdeeds other (List.mem_cons_of_mem event hmem)
      rw [host.record_deeds (hdeeds event List.mem_cons_self)] at hrest
      simpa [Host.recordAll] using hrest

theorem Host.recordAll_moment (host : Host ω) (events : List Event) :
    (host.recordAll events).moment = events.foldl Moment.pass host.moment := by
  induction events generalizing host with
  | nil => rfl
  | cons event events ih => exact ih (host.record event)

theorem Host.recordAll_files (host : Host ω) (events : List Event) :
    (host.recordAll events).files = host.files := by
  induction events generalizing host with
  | nil => rfl
  | cons event events ih => exact ih (host.record event)

theorem Moment.foldl_pass_clock (moment : Moment ω) (events : List Event) :
    (events.foldl Moment.pass moment).clock = moment.clock + elapsed events := by
  induction events generalizing moment with
  | nil => simp
  | cons event events ih =>
      rw [List.foldl_cons, ih, Moment.pass_clock, elapsed_cons, Nat.add_assoc]

theorem Action.Performs.followedBy {action : Action ω α} {before after : Moment ω}
    {deeds events : List Event} {result : Except Fault α}
    (haction : action.Performs before deeds result after)
    (hdeeds : ∀ event ∈ events, event.isDeed) :
    (action.followedBy events).Performs before (deeds ++ events) result
      (events.foldl Moment.pass after) where
  run host hhost := by
    obtain ⟨last, hrun, hmoment, hfiles, hlast⟩ := haction.run host hhost
    refine ⟨last.recordAll events, ?_, ?_, ?_, ?_⟩
    · simp only [Action.followedBy, hrun]
    · rw [last.recordAll_moment, hmoment]
    · rw [last.recordAll_files, hfiles]
    · rw [last.recordAll_deeds hdeeds, hlast, List.append_assoc]
  clock := by
    rw [Moment.foldl_pass_clock, haction.clock, elapsed_append, Nat.add_assoc]

namespace ControlPipe

/-- What a request for data meets at a moment, and the moment after it. -/
def asked (pipe : ControlPipe ω) (request : Request) (value length : UInt16)
    (moment : Moment ω) : Reaction ByteArray × Moment ω :=
  match pipe.onIn request value length moment.world with
  | (reaction, world) => (reaction, ⟨world, moment.clock + reaction.delay⟩)

/-- What a request that carries data meets at a moment, and the moment after it. -/
def told (pipe : ControlPipe ω) (request : Request) (value : UInt16) (data : ByteArray)
    (moment : Moment ω) : Reaction Nat × Moment ω :=
  match pipe.onOut request value data moment.world with
  | (reaction, world) => (reaction, ⟨world, moment.clock + reaction.delay⟩)

theorem asked_eq {pipe : ControlPipe ω} {request : Request} {value length : UInt16}
    {before : Moment ω} {reaction : Reaction ByteArray} {world : ω}
    (hanswer : pipe.onIn request value length before.world = (reaction, world)) :
    pipe.asked request value length before =
      (reaction, ⟨world, before.clock + reaction.delay⟩) := by
  simp only [asked, hanswer]

theorem told_eq {pipe : ControlPipe ω} {request : Request} {value : UInt16} {data : ByteArray}
    {before : Moment ω} {reaction : Reaction Nat} {world : ω}
    (htaken : pipe.onOut request value data before.world = (reaction, world)) :
    pipe.told request value data before = (reaction, ⟨world, before.clock + reaction.delay⟩) := by
  simp only [told, htaken]

theorem announce_files (pipe : ControlPipe ω) (notice : Notice) (host : Host ω) :
    (pipe.announce notice host).files = host.files := by
  unfold announce
  split <;> rfl

theorem announce_deeds (pipe : ControlPipe ω) (notice : Notice) (host : Host ω) :
    (pipe.announce notice host).deeds = host.deeds := by
  unfold announce
  split
  · rfl
  · exact host.record_notice_deeds notice

theorem record_transfer (pipe : ControlPipe ω) (notice : Notice) (host : Host ω) (world : ω)
    (exchange : Exchange) (delay : Nat) :
    let last := ({ pipe.announce notice host with world := world } : Host ω).record
      (.exchange pipe.route exchange delay)
    last.moment = ⟨world, host.clock + delay⟩ ∧ last.files = host.files ∧
      last.deeds = host.deeds ++ [.exchange pipe.route exchange delay] := by
  refine ⟨?_, pipe.announce_files notice host, ?_⟩
  · simp [Host.record, Host.moment, Event.duration]
  · rw [Host.record_deeds _ rfl]
    exact congrArg (· ++ _) (pipe.announce_deeds notice host)

theorem receive_performs {pipe : ControlPipe ω} {request : Request} {value length : UInt16}
    {before after : Moment ω} {answer : Except TransferError ByteArray} {delay : Nat}
    (hasked : pipe.asked request value length before = (⟨answer, delay⟩, after)) :
    (pipe.receive request value length).Performs before
      [.exchange pipe.route (.receive request value length answer) delay]
      (answer.mapError .transfer) after where
  run host hhost := by
    subst hhost
    rcases hreact : pipe.onIn request value length host.world with ⟨reaction, world⟩
    simp only [asked, Host.moment, hreact, Prod.mk.injEq] at hasked
    obtain ⟨rfl, rfl⟩ := hasked
    refine ⟨_, ?_, pipe.record_transfer (.transferIn request value length) host
      world _ _⟩
    simp only [receive, announce_world, hreact]
  clock := by
    rcases hreact : pipe.onIn request value length before.world with ⟨reaction, world⟩
    simp only [asked, hreact, Prod.mk.injEq] at hasked
    obtain ⟨rfl, rfl⟩ := hasked
    simp [Event.duration]

theorem send_performs {pipe : ControlPipe ω} {request : Request} {value : UInt16}
    {data : ByteArray} {before after : Moment ω} {taken : Except TransferError Nat} {delay : Nat}
    (htold : pipe.told request value data before = (⟨taken, delay⟩, after)) :
    (pipe.send request value data).Performs before
      [.exchange pipe.route (.out request value data taken) delay]
      (taken.mapError .transfer) after where
  run host hhost := by
    subst hhost
    rcases hreact : pipe.onOut request value data host.world with ⟨reaction, world⟩
    simp only [told, Host.moment, hreact, Prod.mk.injEq] at htold
    obtain ⟨rfl, rfl⟩ := htold
    refine ⟨_, ?_, pipe.record_transfer (.transferOut request value data.size) host
      world _ _⟩
    simp only [send, announce_world, hreact]
  clock := by
    rcases hreact : pipe.onOut request value data before.world with ⟨reaction, world⟩
    simp only [told, hreact, Prod.mk.injEq] at htold
    obtain ⟨rfl, rfl⟩ := htold
    simp [Event.duration]

theorem asked_clock_le {pipe : ControlPipe ω} {request : Request} {value length : UInt16}
    {before after : Moment ω} {reaction : Reaction ByteArray}
    (hasked : pipe.asked request value length before = (reaction, after)) :
    before.clock ≤ after.clock := by
  simp only [asked, Prod.mk.injEq] at hasked
  obtain ⟨rfl, rfl⟩ := hasked
  exact Nat.le_add_right _ _

end ControlPipe

end FirmwareUpgrade
