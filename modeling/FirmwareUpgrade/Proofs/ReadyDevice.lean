import FirmwareUpgrade.Proofs.SessionDeeds

/-!
# Transfers to a ready device

A recovery that succeeds has seen the device idle, but if it had to clear an error after that, only
the status of the last answer decides.  So the device is known to be idle exactly if it stayed idle
when its status was cleared.  An operation goes on after the recovery with the first block of a
download or by giving up whatever transfer was left before an upload.
-/

namespace FirmwareUpgrade

variable {ω H : Type}

/-! ## The end of a recovery -/

/-- The last transfers clear the status of an idle device, which then reports a state without
error. -/
def EndsWithClearing (transfers : List Exchange) (state : State) : Prop :=
  ∃ earlier pending taken cleared status,
    transfers = earlier ++ [pending, .out .clearStatus 0 .empty taken, cleared] ∧
      pending.report? = some (status, .dfuIdle) ∧ status ≠ .ok ∧
      cleared.report? = some (.ok, state)

/-- If an idle device had its status cleared at the end, it is still idle. -/
def StaysIdle (transfers : List Exchange) : Prop :=
  ∀ state, EndsWithClearing transfers state → state = .dfuIdle

/-- The requests of a recovery. -/
def Request.ServesRecovery (request : Request) : Prop :=
  request = .getStatus ∨ request = .clearStatus ∨ request = .abort

theorem Exchange.servesRecovery (transfer : Exchange) (hdemand : transfer.demand.Recovers) :
    transfer.request.ServesRecovery := by
  cases transfer with
  | out =>
      cases hdemand with
      | clearStatus => exact .inr (.inl rfl)
      | abort => exact .inr (.inr rfl)
  | receive =>
      cases hdemand with
      | getStatus => exact .inl rfl

/-- The last transfer is the answer that a reply stands for. -/
def Session.EndsWith (session : Session ω) (transfers : List Exchange) (reply : StatusReply) :
    Prop :=
  ∃ bytes, transfers.getLast? = some (.receive .getStatus 0 6 (.ok bytes)) ∧
    session.replyTo bytes = reply

/-- What is known after a recovery that succeeded: the last answer reports no error, and it reports
the idle state exactly if the device stayed idle when its status was cleared. -/
structure Session.EndsReady (session : Session ω) (transfers : List Exchange)
    (reply : StatusReply) : Prop where
  answered : session.EndsWith transfers reply
  status_ok : reply.status = .ok
  idle_iff : reply.state = .dfuIdle ↔ StaysIdle transfers

theorem EndsWithClearing.append {transfers : List Exchange} {state : State}
    (hends : EndsWithClearing transfers state) (first : List Exchange) :
    EndsWithClearing (first ++ transfers) state := by
  obtain ⟨earlier, pending, taken, cleared, status, rfl, hrest⟩ := hends
  exact ⟨first ++ earlier, pending, taken, cleared, status, (List.append_assoc ..).symm, hrest⟩

theorem EndsWithClearing.report?_getLast? {transfers : List Exchange} {state : State}
    (hends : EndsWithClearing transfers state) :
    transfers.getLast?.bind Exchange.report? = some (.ok, state) := by
  obtain ⟨earlier, pending, taken, cleared, status, rfl, -, -, hreport⟩ := hends
  rw [List.getLast?_append]
  exact hreport

namespace Session

variable {session : Session ω} {reply pending : StatusReply} {polls : Nat} {last : State}
  {before after : Moment ω} {deeds : List Event} {result : Except Fault StatusReply}

theorem EndsWith.append {transfers : List Exchange} (hends : session.EndsWith transfers reply)
    (first : List Exchange) : session.EndsWith (first ++ transfers) reply := by
  obtain ⟨bytes, hlast, hreply⟩ := hends
  refine ⟨bytes, ?_, hreply⟩
  rw [List.getLast?_append, hlast]
  rfl

theorem EndsReady.of_or {transfers : List Exchange} (hends : session.EndsWith transfers reply)
    (hok : reply.status = .ok)
    (hstate : reply.state = .dfuIdle ∨ EndsWithClearing transfers reply.state) :
    session.EndsReady transfers reply := by
  refine ⟨hends, hok, ?_, fun hstays => hstate.elim id (hstays _)⟩
  obtain ⟨bytes, hlast, rfl⟩ := hends
  intro hidle state hclearing
  have hreport := hclearing.report?_getLast?
  simp only [hlast, Option.bind_some, Exchange.report?, session.replyTo_report,
    Option.some.injEq, Prod.mk.injEq] at hreport
  rw [← hreport.2, hidle]

theorem endsWith_answer (bytes : ByteArray) :
    session.EndsWith [.receive .getStatus 0 6 (.ok bytes)] (session.replyTo bytes) :=
  ⟨bytes, rfl, rfl⟩

/-- After an idle reply, the recovery succeeds with that reply or with the one after its status was
cleared. -/
theorem Clearing.ends {bytes : ByteArray} (hidle : (session.replyTo bytes).state = .dfuIdle)
    (hclearing : session.Clearing (session.replyTo bytes) before deeds (.ok reply) after) :
    let transfers := .receive .getStatus 0 6 (.ok bytes) :: exchanges deeds
    session.EndsWith transfers reply ∧ reply.status = .ok ∧
      (reply.state = .dfuIdle ∨ EndsWithClearing transfers reply.state) := by
  generalize hresult : Except.ok reply = result at hclearing
  cases hclearing with
  | unneeded hok =>
      cases hresult
      exact ⟨endsWith_answer bytes, (StatusCode.isOk_iff _).mp hok, .inl hidle⟩
  | refused => simp at hresult
  | unanswered => simp at hresult
  | @answered _ _ _ cleared _ _ hbad htold hasked =>
      unfold StatusReply.require at hresult
      split at hresult
      · next hok =>
          cases hresult
          have hcleared : (session.replyTo cleared).status = .ok := (StatusCode.isOk_iff _).mp hok
          simp only [exchanges_cons_orderDeed, exchanges_cons_statusDeed, exchanges_sleeps]
          refine ⟨(endsWith_answer cleared).append [_, _], hcleared, .inr ?_⟩
          refine ⟨[], _, _, _, (session.replyTo bytes).status, rfl, ?_, ?_, ?_⟩
          · rw [← hidle]
            exact congrArg some (session.replyTo_report bytes)
          · intro hpending
            simp [hpending, StatusCode.isOk] at hbad
          · rw [← hcleared]
            exact congrArg some (session.replyTo_report cleared)
      · simp at hresult

/-- A recovery that succeeds ends with a reply without error, which is idle or follows the clearing
of an idle device. -/
theorem Settling.ends (hsettling : session.Settling polls last before deeds (.ok reply) after) :
    session.EndsWith (exchanges deeds) reply ∧ reply.status = .ok ∧
      (reply.state = .dfuIdle ∨ EndsWithClearing (exchanges deeds) reply.state) := by
  generalize hresult : Except.ok reply = result at hsettling
  induction hsettling with
  | exhausted => simp at hresult
  | lost => simp at hresult
  | runtime => simp at hresult
  | idle hasked hremedy hclearing =>
      subst hresult
      have hidle := (State.remedy_eq_ready_iff _).mp hremedy
      simpa using hclearing.ends hidle
  | ordered hasked hrequest htold hrest ih =>
      obtain ⟨hends, hok, hstate⟩ := ih hresult
      simp only [exchanges_append, exchanges_cons_orderDeed, exchanges_cons_statusDeed,
        exchanges_sleeps]
      exact ⟨(hends.append [_]).append _, hok, hstate.imp_right fun h => (h.append [_]).append _⟩
  | asked hasked hremedy hrest ih =>
      obtain ⟨hends, hok, hstate⟩ := ih hresult
      simp only [exchanges_append, exchanges_cons_statusDeed, exchanges_sleeps]
      exact ⟨hends.append _, hok, hstate.imp_right fun h => h.append _⟩

theorem Settling.requests (hsettling : session.Settling polls last before deeds result after) :
    ∀ transfer ∈ exchanges deeds, transfer.request.ServesRecovery :=
  fun transfer hmem => transfer.servesRecovery (hsettling.does.demands transfer hmem)

/-- Whatever the device answers, a recovery that succeeds ends with the reply of the device, and
that reply shows the device idle exactly if it stayed idle when its status was cleared. -/
theorem reachIdle_performs (session : Session ω) (before : Moment ω) :
    ∃ deeds result after, session.reachIdle.Performs before deeds result after ∧
      (∀ transfer ∈ exchanges deeds, transfer.request.ServesRecovery) ∧
      ∀ reply, result = .ok reply → session.EndsReady (exchanges deeds) reply := by
  obtain ⟨deeds, result, after, hsettling, hrun⟩ :=
    session.settle_performs readinessPolls (.unknown 0xFF) before
  refine ⟨deeds, result, after, hrun, hsettling.requests, ?_⟩
  rintro reply rfl
  obtain ⟨hends, hok, hstate⟩ := hsettling.ends
  exact .of_or hends hok hstate

/-- An idle device that goes on to another state while its status is cleared passes for ready. -/
theorem reachIdle_accepts_busy_device :
    ∃ reply, (Script.session.reachIdle.run (.reporting [(11, 2), (0, 4)])).1 = .ok reply ∧
      reply.state = .dfuDownloadBusy :=
  ⟨⟨.ok, 0, .dfuDownloadBusy, 0⟩, rfl, rfl⟩

end Session

/-! ## The operations -/

/-- The transfers of a recovery, and those after it: if there are any, the recovery has ended with
the device ready and they begin with the given request. -/
structure Session.GoesOnWith (session : Session ω) (first : Request)
    (recovery rest : List Exchange) : Prop where
  recovers : ∃ before deeds result after,
    session.reachIdle.Performs before deeds result after ∧ exchanges deeds = recovery
  requests : ∀ transfer ∈ recovery, transfer.request.ServesRecovery
  begins : ∀ next, rest.head? = some next →
    next.request = first ∧ ∃ reply, session.EndsReady recovery reply

/-- There is no transfer at all, or they start with a recovery, after which the first request is the
given one. -/
def RecoversFirst (ω : Type) (first : Request) (transfers : List Exchange) : Prop :=
  transfers = [] ∨ ∃ (session : Session ω) (recovery rest : List Exchange),
    transfers = recovery ++ rest ∧ session.GoesOnWith first recovery rest

/-- The first transfer, if there is any, is the given request. -/
def BeginsWith (first : Request) (transfers : List Exchange) : Prop :=
  ∀ transfer, transfers.head? = some transfer → transfer.request = first

theorem beginsWith_nil (first : Request) : BeginsWith first [] := by
  simp [BeginsWith]

theorem Session.recovers_first {α : Type} (session : Session ω) {first : Request}
    {next : StatusReply → Action ω α}
    (hnext : ∀ reply, (next reply).Conducts (BeginsWith first)) :
    (session.reachIdle >>= next).Conducts (RecoversFirst ω first) := by
  intro before
  obtain ⟨deeds, result, middle, hrun, hrequests, hready⟩ := session.reachIdle_performs before
  cases result with
  | error fault =>
      refine ⟨deeds, _, middle, hrun.bind_error, .inr ⟨session, exchanges deeds, [], ?_, ?_⟩⟩
      · rw [List.append_nil]
      · exact ⟨⟨before, deeds, _, middle, hrun, rfl⟩, hrequests, by simp⟩
  | ok reply =>
      obtain ⟨more, result, after, hrest, hfirst⟩ := hnext reply middle
      refine ⟨_, result, after, hrun.bind hrest,
        .inr ⟨session, exchanges deeds, exchanges more, exchanges_append .., ?_⟩⟩
      exact ⟨⟨before, deeds, _, middle, hrun, rfl⟩, hrequests,
        fun transfer hhead => ⟨hfirst transfer hhead, reply, hready reply rfl⟩⟩

theorem Session.downloadPayload_first_request (session : Session ω)
    (pace : Pace session.pipe session.deviations) (chunk : UInt16) (payload : ByteArray) :
    (session.downloadPayload pace chunk payload).Conducts (BeginsWith .download) := by
  intro before
  by_cases positive : 0 < chunk.toNat
  · obtain ⟨deeds, result, after, hsending, hrun⟩ :=
      session.downloadPayload_performs pace positive payload before
    refine ⟨_, result, after, hrun, ?_⟩
    intro transfer hhead
    rw [exchanges_cons_downloaded] at hhead
    simpa [hhead] using hsending.first_request
  · exact ⟨[], _, before, session.downloadPayload_refused pace positive payload before,
      beginsWith_nil _⟩

theorem Session.uploadWithin_first_request (session : Session ω) (bound : Nat) (chunk : UInt16)
    (limit : Option Nat) :
    (session.uploadWithin bound chunk limit).Conducts (BeginsWith .abort) := by
  intro before
  by_cases positive : 0 < chunk.toNat
  · obtain ⟨deeds, result, after, hfetching, hrun⟩ :=
      session.uploadWithin_performs bound positive limit before
    refine ⟨_, result, after, hrun, ?_⟩
    intro transfer hhead
    simpa [hhead] using hfetching.first_request
  · exact ⟨[], _, before, session.uploadWithin_refused bound positive limit before,
      beginsWith_nil _⟩

namespace Programmer

variable (programmer : Programmer ω H)

theorem write_recovers_first (image : Image) (session : Session ω) (pace : Pace session.pipe) :
    (programmer.write image session pace).Conducts (RecoversFirst ω .download) := by
  refine session.recovers_first fun _ => ?_
  refine (Action.discreet_ofExcept _).bind_conducts (beginsWith_nil _) fun chunk => ?_
  refine (Action.discreet_note _).bind_conducts (beginsWith_nil _) fun _ => ?_
  exact (session.downloadPayload_first_request pace chunk image.payload).mapFault _

theorem read_recovers_first (limit : Option Nat) (session : Session ω) :
    (programmer.read limit session).Conducts (RecoversFirst ω .abort) := by
  refine session.recovers_first fun _ => ?_
  refine (Action.discreet_ofExcept _).bind_conducts (beginsWith_nil _) fun chunk => ?_
  exact session.uploadWithin_first_request _ chunk limit

variable {programmer}

theorem flash_recovers_first (hdiscreet : programmer.access.Discreet) (file : ByteArray) :
    (programmer.flash file).Conducts (RecoversFirst ω .download) :=
  flash_conducts hdiscreet (.inl rfl) programmer.write_recovers_first file

theorem upload_recovers_first (hdiscreet : programmer.access.Discreet) (limit : Option Nat) :
    (programmer.upload limit).Conducts (RecoversFirst ω .abort) :=
  upload_conducts hdiscreet (.inl rfl) (programmer.read_recovers_first limit)

/-- A recovery that succeeds ends with an answer without error, and that answer reports the idle
state exactly if the device stayed idle when its status was cleared.  In a flash the first block
follows a recovery that ended so, and in an upload the request that gives up the transfer. -/
theorem recovery_ends_idle_iff (programmer : Programmer ω H)
    (hdiscreet : programmer.access.Discreet) :
    (∀ (session : Session ω) (before : Moment ω), ∃ deeds result after,
      session.reachIdle.Performs before deeds result after ∧
      ∀ reply, result = .ok reply → session.EndsReady (exchanges deeds) reply) ∧
    (∀ file, (programmer.flash file).Conducts (RecoversFirst ω .download)) ∧
    ∀ limit, (programmer.upload limit).Conducts (RecoversFirst ω .abort) := by
  refine ⟨?_, flash_recovers_first hdiscreet, upload_recovers_first hdiscreet⟩
  intro session before
  obtain ⟨deeds, result, after, hrun, -, hready⟩ := session.reachIdle_performs before
  exact ⟨deeds, result, after, hrun, hready⟩

theorem recovery_ends_idle_iff_bench :
    let programmer : Programmer Script Nat := ⟨Bench.access ⟨[default], none, none⟩, .standard⟩
    programmer.access.Discreet ∧
      (programmer.flash ⟨#[1, 2, 3]⟩).Conducts (RecoversFirst Script .download) ∧
      (programmer.upload (some 3)).Conducts (RecoversFirst Script .abort) := by
  have hdiscreet := Bench.access_discreet ⟨[default], none, none⟩
  obtain ⟨-, hflash, hupload⟩ := recovery_ends_idle_iff ⟨_, .standard⟩ hdiscreet
  exact ⟨hdiscreet, hflash _, hupload _⟩

end Programmer

end FirmwareUpgrade
