import FirmwareUpgrade.Proofs.BusRefinement
import FirmwareUpgrade.Proofs.SessionDeeds

/-!
# The requests of each operation

Every operation keeps to its own set of class requests, each in its one encoding.  Only a flash
sends blocks of firmware, all of them after its recovery, and only the operation that detaches a
device sends the request to detach.
-/

namespace FirmwareUpgrade

variable {ω H α : Type}

/-! ## Encodings -/

/-- A class request as it is encoded (`bmRequestType`, `bRequest`, `wValue`), with its data. -/
structure ClassRequest where
  requestType : UInt8
  number : UInt8
  value : UInt16
  stage : DataStage

namespace ClassRequest

def detach (timeout : UInt16) : ClassRequest := ⟨0x21, 0, timeout, .sent .empty⟩

def download (block : UInt16) (data : ByteArray) : ClassRequest := ⟨0x21, 1, block, .sent data⟩

def upload (block length : UInt16) : ClassRequest := ⟨0xA1, 2, block, .asked length⟩

def getStatus : ClassRequest := ⟨0xA1, 3, 0, .asked 6⟩

def clearStatus : ClassRequest := ⟨0x21, 4, 0, .sent .empty⟩

def abort : ClassRequest := ⟨0x21, 6, 0, .sent .empty⟩

/-- A request that brings a device to its idle state. -/
def Recovers (request : ClassRequest) : Prop :=
  request = getStatus ∨ request = clearStatus ∨ request = abort

/-- A request that writes firmware or asks how far the device is with it. -/
def Writes (request : ClassRequest) : Prop :=
  request = getStatus ∨ ∃ block data, request = download block data

/-- A request of an upload. -/
def Retrieves (request : ClassRequest) : Prop :=
  request.Recovers ∨ ∃ block length, request = upload block length

end ClassRequest

def Exchange.classRequest (transfer : Exchange) : ClassRequest where
  requestType := transfer.requestType
  number := transfer.request.code
  value := transfer.value
  stage := transfer.stage

def classRequests (events : List Event) : List ClassRequest :=
  (exchanges events).map Exchange.classRequest

section Exchanges

variable {transfer : Exchange}

theorem Exchange.classRequest_recovers (hdemand : transfer.demand.Recovers) :
    transfer.classRequest.Recovers := by
  cases transfer with
  | out =>
      cases hdemand with
      | clearStatus => exact .inr (.inl rfl)
      | abort => exact .inr (.inr rfl)
  | receive =>
      cases hdemand with
      | getStatus => exact .inl rfl

theorem Exchange.classRequest_writes (hdemand : transfer.demand.Writes) :
    transfer.classRequest.Writes := by
  cases transfer with
  | out =>
      cases hdemand with
      | block => exact .inr ⟨_, _, rfl⟩
  | receive =>
      cases hdemand with
      | getStatus => exact .inl rfl

theorem Exchange.classRequest_of_download (hdemand : transfer.demand.Writes)
    (hrequest : transfer.request = .download) :
    ∃ block data, transfer.classRequest = .download block data := by
  cases transfer with
  | out =>
      cases hdemand with
      | block => exact ⟨_, _, rfl⟩
  | receive =>
      cases hdemand with
      | getStatus => cases hrequest

theorem Exchange.classRequest_retrieves (hdemand : transfer.demand.Retrieves) :
    transfer.classRequest.Retrieves := by
  rcases hdemand with hrecovers | hreads
  · exact .inl (classRequest_recovers hrecovers)
  cases transfer with
  | out =>
      cases hreads with
      | abort => exact .inl (.inr (.inr rfl))
  | receive =>
      cases hreads with
      | getStatus => exact .inl (.inl rfl)
      | block => exact .inr ⟨_, _, rfl⟩

end Exchanges

/-! ## The requests of a flash and of an upload -/

/-- A recovery, and then nothing or the writing from its first block on. -/
def IsFlash (requests : List ClassRequest) : Prop :=
  ∃ recovery writing, requests = recovery ++ writing ∧
    (∀ request ∈ recovery, request.Recovers) ∧
    (writing = [] ∨ ∃ block data rest, writing = .download block data :: rest ∧
      ∀ request ∈ rest, request.Writes)

def IsUpload (requests : List ClassRequest) : Prop :=
  ∀ request ∈ requests, request.Retrieves

theorem isFlash_nil : IsFlash [] :=
  ⟨[], [], rfl, by simp, .inl rfl⟩

theorem isUpload_nil : IsUpload [] := by
  simp [IsUpload]

namespace Programmer

variable {programmer : Programmer ω H} {session : Session ω} {before after : Moment ω}
  {deeds : List Event}

theorem Writing.isFlash {image : Image} {result : Except Fault Unit}
    (hwriting : programmer.Writing image session before deeds result after) :
    IsFlash (classRequests deeds) := by
  obtain ⟨recovery, rest, rfl, hrecovery, hrest, hfirst⟩ := hwriting.does
  refine ⟨classRequests recovery, classRequests rest, ?_, ?_, ?_⟩
  · rw [classRequests, exchanges_append, List.map_append]
    rfl
  · intro request hmem
    obtain ⟨transfer, htransfer, rfl⟩ := List.mem_map.mp hmem
    exact Exchange.classRequest_recovers (hrecovery.demands transfer htransfer)
  · rcases hfirst with rfl | hfirst
    · exact .inl rfl
    have hwrites := hrest.demands
    cases htransfers : exchanges rest with
    | nil => simp [htransfers] at hfirst
    | cons first others =>
        rw [htransfers] at hwrites
        have hdownload : first.request = .download := by simpa [htransfers] using hfirst
        obtain ⟨block, data, hencoded⟩ :=
          Exchange.classRequest_of_download (hwrites first List.mem_cons_self) hdownload
        refine .inr ⟨block, data, others.map Exchange.classRequest, ?_, ?_⟩
        · rw [classRequests, htransfers, List.map_cons, hencoded]
        · intro request hmem
          obtain ⟨transfer, htransfer, rfl⟩ := List.mem_map.mp hmem
          exact Exchange.classRequest_writes (hwrites transfer (List.mem_cons_of_mem _ htransfer))

theorem Retrieving.isUpload {limit : Option Nat} {result : Except Fault ByteArray}
    (hretrieving : programmer.Retrieving limit session before deeds result after) :
    IsUpload (classRequests deeds) := by
  intro request hmem
  obtain ⟨transfer, htransfer, rfl⟩ := List.mem_map.mp hmem
  exact Exchange.classRequest_retrieves (hretrieving.does.demands transfer htransfer)

/-! ## The requests of the other operations -/

/-- The device that is opened at a moment for an operation that chooses one by the criteria. -/
def opened? (programmer : Programmer ω H) (moment : Moment ω) : Option (Device H) :=
  (do
    let device ← programmer.access.choose programmer.options.criteria
    let _ ← programmer.access.connect device
    return device : Action ω (Device H)).outcome? moment

end Programmer

namespace Access

variable {access : Access ω H}

theorem Discreet.withSession_requests (hdiscreet : access.Discreet) (device : Device H)
    {work : (session : Session ω) → Pace session.pipe → Action ω α}
    {requests : List ClassRequest}
    (hwork : ∀ session pace before, ∃ deeds result after,
      (work session pace).Performs before deeds result after ∧ classRequests deeds = requests)
    (before : Moment ω) :
    ∃ deeds result after, (access.withSession device work).Performs before deeds result after ∧
      classRequests deeds =
        if ((access.connect device).outcome? before).isSome then requests else [] := by
  obtain ⟨opening, connected, middle, hconnect, hopening⟩ := hdiscreet.connect device before
  rw [hconnect.outcome?_eq]
  cases connected with
  | error fault =>
      refine ⟨_, _, _, withSession_unopened hconnect, ?_⟩
      rw [classRequests, hopening]
      rfl
  | ok opened =>
      obtain ⟨deeds, result, after, hrun, hrequests⟩ :=
        hwork (device.session opened.pipe) opened.pace middle
      refine ⟨_, result, _, withSession_performs (hdiscreet.parting_isDeed device) hconnect hrun,
        ?_⟩
      rw [classRequests, exchanges_append, exchanges_append, hopening,
        hdiscreet.exchanges_parting, List.nil_append, List.append_nil]
      exact hrequests

end Access

namespace Programmer

/-- A device that is in DFU mode already is not even opened. -/
theorem detach_performs_of_dfuMode {programmer : Programmer ω H} {device : Device H}
    {before after : Moment ω} {deeds : List Event} (timeout : UInt16)
    (hchoose : (programmer.access.choose programmer.options.criteria).Performs before deeds
      (.ok device) after) (hmode : device.dfuMode) :
    (programmer.detach timeout).Performs before deeds (.ok ()) after := by
  refine hchoose.bind_silent ?_
  rw [if_pos hmode]
  exact Action.performs_note _ after

variable {programmer : Programmer ω H} (hdiscreet : programmer.access.Discreet)

include hdiscreet

/-- The requests to the chosen device are made only if it can be opened. -/
theorem chosen_requests {body : Device H → Action ω α} {requests : Device H → List ClassRequest}
    (hbody : ∀ device before, ∃ deeds result after,
      (body device).Performs before deeds result after ∧ classRequests deeds =
        if ((programmer.access.connect device).outcome? before).isSome then requests device else [])
    (before : Moment ω) :
    ∃ deeds result after,
      (programmer.access.choose programmer.options.criteria >>= body).Performs before deeds result
        after ∧
      classRequests deeds = (programmer.opened? before).elim [] requests := by
  obtain ⟨survey, chosen, middle, hchoose, hsurvey⟩ :=
    hdiscreet.choose programmer.options.criteria before
  cases chosen with
  | error fault =>
      refine ⟨_, _, _, hchoose.bind_error, ?_⟩
      rw [opened?, hchoose.bind_error.outcome?_eq, classRequests, hsurvey]
      rfl
  | ok device =>
      obtain ⟨deeds, result, after, hrun, hrequests⟩ := hbody device middle
      obtain ⟨opening, connected, reached, hconnect, -⟩ := hdiscreet.connect device middle
      refine ⟨_, result, after, hchoose.bind hrun, ?_⟩
      rw [classRequests, exchanges_append, hsurvey, List.nil_append]
      rw [hconnect.outcome?_eq, classRequests] at hrequests
      rw [hrequests, opened?]
      cases connected with
      | error fault =>
          rw [(hchoose.bind hconnect.bind_error).outcome?_eq]
          rfl
      | ok opened =>
          have hopened : (do
              let _ ← programmer.access.connect device
              return device : Action ω (Device H)).Performs middle opening (.ok device) reached :=
            hconnect.bind_silent (Action.performs_pure device reached)
          rw [(hchoose.bind hopened).outcome?_eq]
          rfl

theorem status_requests (before : Moment ω) :
    ∃ deeds result after, programmer.status.Performs before deeds result after ∧
      classRequests deeds = (programmer.opened? before).elim [] fun _ => [.getStatus] := by
  apply chosen_requests hdiscreet
  intro device
  apply hdiscreet.withSession_requests device
  intro session pace before
  rcases hasked : session.pipe.asked .getStatus 0 6 before with ⟨⟨answer, delay⟩, after⟩
  exact ⟨_, _, _, Session.getStatus_performs hasked, rfl⟩

theorem detach_requests (timeout : UInt16) (before : Moment ω) :
    ∃ deeds result after, (programmer.detach timeout).Performs before deeds result after ∧
      classRequests deeds = (programmer.opened? before).elim [] fun device =>
        if device.dfuMode then [] else [.detach timeout] := by
  apply chosen_requests hdiscreet
  intro device before
  cases hmode : device.dfuMode with
  | true => exact ⟨[], _, _, Action.performs_note .alreadyInDfuMode before, by simp [classRequests]⟩
  | false =>
      simp only [Bool.false_eq_true, if_false]
      apply hdiscreet.withSession_requests device
      intro session pace before
      rcases htold : session.pipe.told .detach timeout .empty before with ⟨⟨taken, delay⟩, after⟩
      have hdetach := Session.detach_performs htold
      cases taken with
      | error error => exact ⟨_, _, _, hdetach.bind_error, rfl⟩
      | ok count =>
          refine ⟨_, .ok (), after, hdetach.bind_silent ?_, rfl⟩
          split
          · exact Action.performs_note _ after
          · exact Action.performs_pure () after

end Programmer

/-! ## All operations -/

inductive Operation where
  | flash (file : ByteArray)
  | flashFrom (path : String)
  | upload (limit : Option Nat)
  | detach (timeout : UInt16)
  | status
  | list (criteria : Criteria)

namespace Operation

/-- The host after an operation. -/
def last (operation : Operation) (programmer : Programmer ω H) (host : Host ω) : Host ω :=
  match operation with
  | flash file => ((programmer.flash file).run host).2
  | flashFrom path => ((programmer.flashFrom path).run host).2
  | upload limit => ((programmer.upload limit).run host).2
  | detach timeout => ((programmer.detach timeout).run host).2
  | status => (programmer.status.run host).2
  | list criteria => ((programmer.access.list criteria).run host).2

def writesFirmware : Operation → Bool
  | flash _ | flashFrom _ => true
  | upload _ | detach _ | status | list _ => false

/-- The requests that an operation may make if it starts at a moment. -/
def Permits (operation : Operation) (programmer : Programmer ω H) (moment : Moment ω)
    (requests : List ClassRequest) : Prop :=
  match operation with
  | flash _ | flashFrom _ => IsFlash requests
  | upload _ => IsUpload requests
  | detach timeout => requests = (programmer.opened? moment).elim [] fun device =>
      if device.dfuMode then [] else [.detach timeout]
  | status => requests = (programmer.opened? moment).elim [] fun _ => [.getStatus]
  | list _ => requests = []

variable {operation : Operation} {programmer : Programmer ω H} {moment : Moment ω}
  {requests : List ClassRequest}

/-- Blocks of firmware belong to a flash, and requests to detach to that operation. -/
theorem Permits.kinds (hpermits : operation.Permits programmer moment requests)
    {request : ClassRequest} (hmem : request ∈ requests) :
    request.Retrieves ∨
      (operation.writesFirmware ∧ ∃ block data, request = .download block data) ∨
      ∃ timeout, operation = .detach timeout ∧ request = .detach timeout := by
  have hflash : IsFlash requests →
      request.Retrieves ∨ ∃ block data, request = .download block data := by
    rintro ⟨recovery, writing, rfl, hrecovery, hwriting⟩
    rcases List.mem_append.mp hmem with hmem | hmem
    · exact .inl (.inl (hrecovery request hmem))
    rcases hwriting with rfl | ⟨block, data, rest, rfl, hrest⟩
    · cases hmem
    rcases List.mem_cons.mp hmem with rfl | hmem
    · exact .inr ⟨block, data, rfl⟩
    · exact (hrest request hmem).imp (fun hstatus => .inl (.inl hstatus)) id
  cases operation with
  | flash file => exact (hflash hpermits).imp_right fun hblock => .inl ⟨rfl, hblock⟩
  | flashFrom path => exact (hflash hpermits).imp_right fun hblock => .inl ⟨rfl, hblock⟩
  | upload limit => exact .inl (hpermits request hmem)
  | detach timeout =>
      rw [hpermits] at hmem
      cases hopened : programmer.opened? moment with
      | none => simp [hopened] at hmem
      | some device =>
          cases hmode : device.dfuMode with
          | true => simp [hopened, hmode] at hmem
          | false =>
              simp only [hopened, Option.elim_some, hmode, Bool.false_eq_true, if_false,
                List.mem_singleton] at hmem
              exact .inr (.inr ⟨timeout, rfl, hmem⟩)
  | status =>
      rw [hpermits] at hmem
      cases hopened : programmer.opened? moment with
      | none => simp [hopened] at hmem
      | some device =>
          simp only [hopened, Option.elim_some, List.mem_singleton] at hmem
          exact .inl (.inl (.inl hmem))
  | list criteria =>
      rw [hpermits] at hmem
      cases hmem

/-- The operation keeps to its requests: they are on record with the deeds, and no other operation
writes firmware or makes a device leave its mode. -/
structure KeepsTo (operation : Operation) (programmer : Programmer ω H) (host : Host ω)
    (deeds : List Event) : Prop where
  recorded : (operation.last programmer host).deeds = host.deeds ++ deeds
  permitted : operation.Permits programmer host.moment (classRequests deeds)
  writes : ∀ request ∈ classRequests deeds, request.number = 1 → operation.writesFirmware
  detaches : ∀ request ∈ classRequests deeds, request.number = 0 →
    ∃ timeout, operation = .detach timeout
  /-- A device in DFU mode is only chosen and then left alone. -/
  unopened : ∀ timeout device, operation = .detach timeout →
    programmer.origin? host.moment = some device → device.dfuMode →
    ∃ after, (programmer.access.choose programmer.options.criteria).Performs host.moment deeds
      (.ok device) after

end Operation

/-! ## Keeping to the requests -/

theorem ClassRequest.Retrieves.number {request : ClassRequest} (hretrieves : request.Retrieves) :
    request.number ≠ 0 ∧ request.number ≠ 1 := by
  rcases hretrieves with (rfl | rfl | rfl) | ⟨block, length, rfl⟩
  · exact ⟨by decide, by decide⟩
  · exact ⟨by decide, by decide⟩
  · exact ⟨by decide, by decide⟩
  · exact ⟨by simp [upload], by simp [upload]⟩

namespace Operation

variable {operation : Operation} {programmer : Programmer ω H} {host : Host ω} {deeds : List Event}

theorem KeepsTo.of_permits
    (hrecorded : (operation.last programmer host).deeds = host.deeds ++ deeds)
    (hpermits : operation.Permits programmer host.moment (classRequests deeds))
    (hunopened : ∀ timeout device, operation = .detach timeout →
      programmer.origin? host.moment = some device → device.dfuMode →
      ∃ after, (programmer.access.choose programmer.options.criteria).Performs host.moment deeds
        (.ok device) after) : operation.KeepsTo programmer host deeds where
  recorded := hrecorded
  permitted := hpermits
  writes request hmem hnumber := by
    rcases hpermits.kinds hmem with hretrieves | ⟨hwrites, -⟩ | ⟨timeout, -, rfl⟩
    · exact absurd hnumber hretrieves.number.2
    · exact hwrites
    · simp [ClassRequest.detach] at hnumber
  detaches request hmem hnumber := by
    rcases hpermits.kinds hmem with hretrieves | ⟨-, block, data, rfl⟩ | ⟨timeout, hdetach, -⟩
    · exact absurd hnumber hretrieves.number.1
    · simp [ClassRequest.download] at hnumber
    · exact ⟨timeout, hdetach⟩
  unopened := hunopened

end Operation

namespace Programmer

section Requests

variable {programmer : Programmer ω H} (hdiscreet : programmer.access.Discreet)

include hdiscreet

theorem flash_requests (file : ByteArray) (before : Moment ω) :
    ∃ deeds result after, (programmer.flash file).Performs before deeds result after ∧
      IsFlash (classRequests deeds) := by
  have hwrite : ∀ image session pace, (programmer.write image session pace).Conducts
      fun transfers => IsFlash (transfers.map Exchange.classRequest) := by
    intro image session pace before
    obtain ⟨deeds, result, after, hwriting, hrun⟩ :=
      programmer.write_performs image session pace before
    exact ⟨deeds, result, after, hrun, hwriting.isFlash⟩
  exact flash_conducts hdiscreet isFlash_nil hwrite file before

theorem flashFrom_requests (path : String) (host : Host ω) :
    ∃ deeds result, (programmer.flashFrom path).Runs host deeds result ∧
      IsFlash (classRequests deeds) := by
  cases hread : host.files.read path with
  | error error => exact ⟨_, _, flashFrom_unreadable hread, isFlash_nil⟩
  | ok file =>
      obtain ⟨deeds, result, after, hflash, hrequests⟩ :=
        flash_requests hdiscreet file host.moment
      exact ⟨_, result, flashFrom_runs hread hflash, hrequests⟩

theorem upload_requests (limit : Option Nat) (before : Moment ω) :
    ∃ deeds result after, (programmer.upload limit).Performs before deeds result after ∧
      IsUpload (classRequests deeds) := by
  have hread : ∀ session, (programmer.read limit session).Conducts
      fun transfers => IsUpload (transfers.map Exchange.classRequest) := by
    intro session before
    obtain ⟨deeds, result, after, hretrieving, hrun⟩ :=
      programmer.read_performs limit session before
    exact ⟨deeds, result, after, hrun, hretrieving.isUpload⟩
  exact upload_conducts hdiscreet isUpload_nil hread before

end Requests

theorem keepsTo_of_discreet (programmer : Programmer ω H)
    (hdiscreet : programmer.access.Discreet) (operation : Operation) (host : Host ω) :
    ∃ deeds, operation.KeepsTo programmer host deeds := by
  cases operation with
  | flash file =>
      obtain ⟨deeds, result, after, hrun, hrequests⟩ := flash_requests hdiscreet file host.moment
      exact ⟨deeds, .of_permits hrun.runs.last_deeds hrequests (by simp)⟩
  | flashFrom path =>
      obtain ⟨deeds, result, hrun, hrequests⟩ := flashFrom_requests hdiscreet path host
      exact ⟨deeds, .of_permits hrun.last_deeds hrequests (by simp)⟩
  | upload limit =>
      obtain ⟨deeds, result, after, hrun, hrequests⟩ := upload_requests hdiscreet limit host.moment
      exact ⟨deeds, .of_permits hrun.runs.last_deeds hrequests (by simp)⟩
  | detach timeout =>
      obtain ⟨deeds, result, after, hrun, hrequests⟩ :=
        detach_requests hdiscreet timeout host.moment
      refine ⟨deeds, .of_permits hrun.runs.last_deeds hrequests ?_⟩
      rintro _ device - horigin hmode
      obtain ⟨survey, chosen, middle, hchoose, -⟩ :=
        hdiscreet.choose programmer.options.criteria host.moment
      rw [origin?, hchoose.outcome?_eq] at horigin
      cases chosen with
      | error fault => cases horigin
      | ok chosen =>
          cases horigin
          obtain ⟨rfl, -, -⟩ := hrun.unique (detach_performs_of_dfuMode timeout hchoose hmode)
          exact ⟨middle, hchoose⟩
  | status =>
      obtain ⟨deeds, result, after, hrun, hrequests⟩ := status_requests hdiscreet host.moment
      exact ⟨deeds, .of_permits hrun.runs.last_deeds hrequests (by simp)⟩
  | list criteria =>
      obtain ⟨deeds, result, after, hrun, hnone⟩ := hdiscreet.list criteria host.moment
      refine ⟨deeds, .of_permits hrun.runs.last_deeds ?_ (by simp)⟩
      exact congrArg (List.map Exchange.classRequest) hnone

/-- Every operation keeps to its requests, over the bus and on the bench, whatever the devices do
and wherever it fails. -/
theorem operations_keep_to_requests :
    (∀ (timeout : Nat) (options : TransferOptions) (operation : Operation) (host : Host Bus),
      ∃ deeds, operation.KeepsTo ⟨Bus.access timeout, options⟩ host deeds) ∧
    ∀ (bench : Bench) (options : TransferOptions) (operation : Operation) (host : Host Script),
      ∃ deeds, operation.KeepsTo ⟨bench.access, options⟩ host deeds := by
  constructor
  · intro timeout options
    exact keepsTo_of_discreet ⟨_, options⟩ (Bus.access_discreet timeout)
  · intro bench options
    exact keepsTo_of_discreet ⟨_, options⟩ bench.access_discreet

end Programmer

end FirmwareUpgrade
