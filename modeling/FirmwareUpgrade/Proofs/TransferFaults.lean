import FirmwareUpgrade.Proofs.TransferPhases

/-!
# What the fault of a flash tells

Once the first block has been sent, the firmware of a device may be incomplete.  So the fault of a
flash has to tell whether that point was reached: every fault after it is marked as that of a
download, and no fault before it is.  Three kinds of faults are told apart for this.  The work on an
open device fails with direct faults, accesses with plain ones, and only what is neither can be
mistaken for the mark or for the loss of a device.
-/

namespace FirmwareUpgrade

variable {ω H α β : Type}

/-! ## Kinds of faults -/

namespace Fault

/-- What the transfers with a device, or its answers, amount to. -/
def isDirect : Fault → Bool
  | transfer _ | status _ _ | runtimeMode _ | notIdle _ | timeout => true
  | _ => false

/-- Neither the mark of a download nor the loss of a device. -/
def isPlain : Fault → Bool
  | download _ | abortFailed _ => false
  | _ => true

variable {fault : Fault}

theorem isPlain_of_isDirect (hdirect : fault.isDirect) : fault.isPlain := by
  cases fault <;> simp_all [isDirect, isPlain]

theorem isFatal_of_isPlain (hplain : fault.isPlain) : fault.isFatal = false := by
  cases fault <;> simp_all [isPlain, isFatal]

theorem code_eq_download_iff : fault.code = 14 ↔ ∃ cause, fault = .download cause := by
  cases fault with
  | file error => cases hmissing : error.isNotFound <;> simp [code, hmissing]
  | _ => simp [code]

theorem code_ne_of_isPlain (hplain : fault.isPlain) : fault.code ≠ 14 := by
  intro hcode
  obtain ⟨cause, rfl⟩ := code_eq_download_iff.mp hcode
  simp [isPlain] at hplain

end Fault

def EndsDirectly (result : Except Fault α) : Prop :=
  ∀ fault, result = .error fault → fault.isDirect

@[simp]
theorem endsDirectly_ok (value : α) : EndsDirectly (.ok value) := by
  simp [EndsDirectly]

@[simp]
theorem endsDirectly_error {fault : Fault} :
    EndsDirectly (.error fault : Except Fault α) ↔ fault.isDirect := by
  simp [EndsDirectly]

theorem StatusReply.endsDirectly_require (reply : StatusReply) (value : α) :
    EndsDirectly (reply.require value) := by
  unfold require
  split
  · exact endsDirectly_ok value
  · exact endsDirectly_error.mpr rfl

/-! ## The work on an open device -/

namespace Session

variable {session : Session ω} {before after : Moment ω} {deeds : List Event}

theorem endsDirectly_conclusion (reply : StatusReply) : EndsDirectly (conclusion reply) := by
  unfold conclusion
  split
  · exact endsDirectly_error.mpr rfl
  · exact reply.endsDirectly_require ()

theorem Clearing.endsDirectly {reply : StatusReply} {result : Except Fault StatusReply}
    (hclearing : session.Clearing reply before deeds result after) : EndsDirectly result := by
  cases hclearing with
  | unneeded => exact endsDirectly_ok _
  | refused => exact endsDirectly_error.mpr rfl
  | unanswered => exact endsDirectly_error.mpr rfl
  | answered => exact StatusReply.endsDirectly_require _ _

theorem Settling.endsDirectly {polls : Nat} {last : State} {result : Except Fault StatusReply}
    (hsettling : session.Settling polls last before deeds result after) : EndsDirectly result := by
  induction hsettling with
  | exhausted => exact endsDirectly_error.mpr rfl
  | lost => exact endsDirectly_error.mpr rfl
  | runtime => exact endsDirectly_error.mpr rfl
  | idle hasked hremedy hclearing => exact hclearing.endsDirectly
  | ordered hasked hrequest htold hrest ih => exact ih
  | asked hasked hremedy hrest ih => exact ih

theorem Busy.endsDirectly {start : Nat} {result : Except Fault StatusReply}
    (hbusy : session.Busy start before deeds result after) : EndsDirectly result := by
  induction hbusy with
  | lost => exact endsDirectly_error.mpr rfl
  | settled => exact endsDirectly_ok _
  | late => exact endsDirectly_error.mpr rfl
  | again _ _ _ _ ih => exact ih

theorem Storing.endsDirectly {block : UInt16} {data : ByteArray} {result : Except Fault Unit}
    (hstoring : session.Storing block data before deeds result after) : EndsDirectly result := by
  cases hstoring with
  | unsent => exact endsDirectly_error.mpr rfl
  | unsettled htold hbusy => exact endsDirectly_error.mpr (hbusy.endsDirectly _ rfl)
  | refused => exact endsDirectly_error.mpr rfl
  | stored => exact endsDirectly_ok ()

theorem Manifesting.endsDirectly {start : Nat} {result : Except Fault Unit}
    (hmanifesting : session.Manifesting start before deeds result after) :
    EndsDirectly result := by
  induction hmanifesting with
  | left => exact endsDirectly_ok ()
  | lost => exact endsDirectly_error.mpr rfl
  | concluded => exact endsDirectly_conclusion _
  | late => exact endsDirectly_error.mpr rfl
  | again _ _ _ _ _ ih => exact ih

theorem Sending.endsDirectly {payload : ByteArray} {chunk position : Nat}
    {result : Except Fault Unit}
    (hsending : session.Sending payload chunk position before deeds result after) :
    EndsDirectly result := by
  induction hsending with
  | failed hinside hstoring => exact endsDirectly_error.mpr (hstoring.endsDirectly _ rfl)
  | stored hinside hstoring hrest ih => exact ih
  | endUnsent => exact endsDirectly_error.mpr rfl
  | ended houtside htold hmanifesting => exact hmanifesting.endsDirectly

/-- The device has taken the empty block that ends a download. -/
def TakesEmptyBlock (transfers : List Exchange) : Prop :=
  ∃ number count, .out .download number .empty (.ok count) ∈ transfers

theorem Sending.takesEmptyBlock {payload : ByteArray} {chunk position : Nat}
    (hsending : session.Sending payload chunk position before deeds (.ok ()) after) :
    TakesEmptyBlock (exchanges deeds) := by
  generalize hresult : Except.ok () = result at hsending
  induction hsending with
  | failed => cases hresult
  | stored hinside hstoring hrest ih =>
      obtain ⟨number, count, hmem⟩ := ih hresult
      rw [exchanges_append, exchanges_cons_downloaded]
      exact ⟨number, count, List.mem_append_right _ hmem⟩
  | endUnsent => cases hresult
  | ended houtside htold hmanifesting =>
      rw [exchanges_cons_orderDeed]
      exact ⟨_, _, List.mem_cons_self⟩

end Session

/-! ## Accesses with plain faults -/

def EndsPlainly (result : Except Fault α) : Prop :=
  ∀ fault, result = .error fault → fault.isPlain

namespace Action

/-- Whatever the moment, a fault of the action is plain. -/
def Plain (action : Action ω α) : Prop :=
  ∀ before, ∃ deeds result after, action.Performs before deeds result after ∧ EndsPlainly result

theorem Plain.endsPlainly {action : Action ω α} {before after : Moment ω} {deeds : List Event}
    {result : Except Fault α} (hplain : action.Plain)
    (hrun : action.Performs before deeds result after) : EndsPlainly result := by
  obtain ⟨deeds', result', after', hrun', hends⟩ := hplain before
  obtain ⟨-, rfl, -⟩ := hrun.unique hrun'
  exact hends

theorem plain_pure (value : α) : (pure value : Action ω α).Plain :=
  fun before => ⟨[], _, before, performs_pure value before, by simp [EndsPlainly]⟩

theorem plain_fail {fault : Fault} (hplain : fault.isPlain) : (fail fault : Action ω α).Plain :=
  fun before => ⟨[], _, before, performs_fail fault before, by simpa [EndsPlainly] using hplain⟩

theorem Plain.bind {action : Action ω α} {next : α → Action ω β} (hplain : action.Plain)
    (hnext : ∀ value, (next value).Plain) : (action >>= next).Plain := by
  intro before
  obtain ⟨deeds, result, middle, hrun, hends⟩ := hplain before
  cases result with
  | error fault =>
      have hfault := hends fault rfl
      exact ⟨deeds, _, middle, hrun.bind_error, by simpa [EndsPlainly] using hfault⟩
  | ok value =>
      obtain ⟨more, result, after, hrest, hends'⟩ := hnext value middle
      exact ⟨_, result, after, hrun.bind hrest, hends'⟩

end Action

/-- Reaching a device neither writes to it nor loses it, and its faults say so. -/
structure Access.Plain (access : Access ω H) : Prop where
  list : ∀ criteria, (access.list criteria).Plain
  connect : ∀ device, (access.connect device).Plain

theorem Access.Plain.choose {access : Access ω H} (hplain : access.Plain) (criteria : Criteria) :
    (access.choose criteria).Plain := by
  refine (hplain.list criteria).bind fun devices => ?_
  split
  · exact Action.plain_fail rfl
  · exact Action.plain_pure _
  · exact Action.plain_fail rfl

theorem Bus.access_plain (timeout : Nat) : (access timeout).Plain where
  list criteria before := by
    obtain ⟨deeds, listed, after, hfinding, hfind⟩ := find_performs before
    refine ⟨deeds, _, after, hfind criteria, ?_⟩
    intro fault hfault
    cases hfinding with
    | unlisted =>
        cases hfault
        rfl
    | surveyed => cases hfault
  connect device before := by
    obtain ⟨deeds, result, after, hconnecting, hconnect⟩ := connect_performs timeout device before
    refine ⟨deeds, result, after, hconnect, ?_⟩
    intro fault hfault
    subst hfault
    cases hconnecting with
    | unopened => rfl
    | unclaimed => rfl
    | unselected => rfl

structure Bench.Plain (bench : Bench) : Prop where
  list : ∀ fault, bench.listFault = some fault → fault.isPlain
  opening : ∀ fault, bench.openFault = some fault → fault.isPlain

namespace Bench

theorem raise_plain {fault : Option Fault}
    (hplain : ∀ raised, fault = some raised → raised.isPlain) : (raise fault).Plain := by
  cases fault with
  | none => exact Action.plain_pure ()
  | some fault => exact Action.plain_fail (hplain fault rfl)

theorem Plain.access {bench : Bench} (hplain : bench.Plain) : bench.access.Plain where
  list criteria := (raise_plain hplain.list).bind fun _ => Action.plain_pure _
  connect device := by
    have hopened : (Action.record (.opened device.handle) : Action Script Unit).Plain :=
      fun before => ⟨_, _, _, Action.performs_record _ rfl before, by simp [EndsPlainly]⟩
    exact hopened.bind fun _ => (raise_plain hplain.opening).bind fun _ => Action.plain_pure _

end Bench

/-! ## Before the first block -/

namespace Programmer

variable {programmer : Programmer ω H} {criteria : Criteria}
  {verdict : Device H → Except Fault Unit} {before after : Moment ω} {deeds : List Event}

theorem Hindered.isPlain {fault : Fault} (hplain : programmer.access.Plain)
    (hverdicts : ∀ device, EndsPlainly (verdict device))
    (hhindered : programmer.Hindered criteria verdict before deeds fault after) :
    fault.isPlain := by
  cases hhindered with
  | unchosen hchoose => exact (hplain.choose criteria).endsPlainly hchoose _ rfl
  | refused hchoose hverdict => exact hverdicts _ _ hverdict
  | unopened hchoose hverdict hconnect => exact (hplain.connect _).endsPlainly hconnect _ rfl
  | unready hchoose hverdict hconnect hready =>
      have hdirect := (Session.settling_of_performs hready).endsDirectly _ rfl
      exact Fault.isPlain_of_isDirect hdirect
  | sizeless hprepares hsize =>
      obtain ⟨-, rfl⟩ := sizeFor_eq_error hsize
      rfl

end Programmer

theorem Image.checkDevice_plainly (image : Image) (device : Device H) :
    EndsPlainly (image.checkDevice device) := by
  intro fault hfault
  unfold checkDevice at hfault
  split at hfault
  · cases hfault
  · cases hfault
    rfl

namespace FlashRun

/-- What can go wrong before the first block is sent. -/
inductive FailsEarly (run : FlashRun ω H) : Fault → Prop
  | unreadable {error} (hread : run.source.read run.host.files = .error error) :
      FailsEarly run (.file error)
  | invalid {file fault} (hread : run.source.read run.host.files = .ok file)
      (hload : Image.load run.programmer.options.suffixUse file = .error fault) :
      FailsEarly run (.image fault)
  | hindered {image deeds fault after} (hloads : run.Loads image)
      (hhindered : run.programmer.Hindered (run.programmer.criteriaFor image) image.checkDevice
        run.host.moment deeds fault after) :
      FailsEarly run fault

/-- A block is sent, be it the empty one, whether or not the device takes it. -/
def Sends (run : FlashRun ω H) : Prop :=
  ∃ transfer ∈ exchanges run.deeds, transfer.request = .download

/-- The device is sent blocks, and whatever goes wrong from then on is marked. -/
structure Delivers (run : FlashRun ω H) : Prop where
  sends : run.Sends
  completed : run.result = .ok () → Session.TakesEmptyBlock (exchanges run.deeds)
  marked : ∀ fault, run.result = .error fault → ∃ cause, fault = .download cause ∧ cause.isDirect

variable {run : FlashRun ω H}

theorem not_sends_of_servesRecovery
    (hrequests : ∀ transfer ∈ exchanges run.deeds, transfer.request.ServesRecovery) :
    ¬ run.Sends := by
  intro ⟨transfer, hmem, hrequest⟩
  have hserves := hrequests transfer hmem
  simp [hrequest, Request.ServesRecovery] at hserves

theorem FailsEarly.isPlain {fault : Fault} (hearly : run.FailsEarly fault)
    (hplain : run.programmer.access.Plain) : fault.isPlain := by
  cases hearly with
  | unreadable hread => rfl
  | invalid hread hload => rfl
  | hindered hloads hhindered => exact hhindered.isPlain hplain (Image.checkDevice_plainly _)

theorem FailsEarly.ends {fault : Fault} (hearly : run.FailsEarly fault)
    (hdiscreet : run.programmer.access.Discreet) : run.result = .error fault ∧ ¬ run.Sends := by
  cases hearly with
  | unreadable hread =>
      obtain ⟨hresult, hnone⟩ := of_unreadable hread
      exact ⟨hresult, by simp [Sends, hnone]⟩
  | invalid hread hload =>
      obtain ⟨hresult, hnone⟩ := of_invalid hread hload
      exact ⟨hresult, by simp [Sends, hnone]⟩
  | hindered hloads hhindered =>
      obtain ⟨file, hread, hload⟩ := hloads
      obtain ⟨hresult, hdeeds⟩ :=
        of_flash hread (Programmer.flash_of_ready hload (hhindered.performs hdiscreet))
      rw [exchanges_flash] at hdeeds
      exact ⟨hresult, not_sends_of_servesRecovery (hdeeds ▸ hhindered.requests hdiscreet)⟩

theorem Delivers.of_delivering {session : Session ω} {payload : ByteArray} {chunk : UInt16}
    {before after : Moment ω} {deeds : List Event}
    (hdelivering : session.Delivering payload chunk before deeds run.result after)
    (hdeeds : exchanges deeds ⊆ exchanges run.deeds) : run.Delivers := by
  generalize hresult : run.result = result at hdelivering
  cases hdelivering with
  | @sent _ deeds ended hsending =>
      rw [exchanges_cons_downloaded] at hdeeds
      constructor
      case sends =>
        obtain ⟨first, hfirst, hrequest⟩ := Option.map_eq_some_iff.mp hsending.first_request
        exact ⟨first, hdeeds (List.mem_of_head? hfirst), hrequest⟩
      case completed =>
        intro hok
        cases ended with
        | error cause => cases hresult.symm.trans hok
        | ok value =>
            obtain ⟨number, count, hmem⟩ := hsending.takesEmptyBlock
            exact ⟨number, count, hdeeds hmem⟩
      case marked =>
        intro fault hfault
        cases ended with
        | error cause =>
            cases hresult.symm.trans hfault
            exact ⟨cause, rfl, hsending.endsDirectly cause rfl⟩
        | ok value => cases hresult.symm.trans hfault

theorem failsEarly_or_delivers (run : FlashRun ω H)
    (hdiscreet : run.programmer.access.Discreet) :
    (∃ fault, run.FailsEarly fault) ∨ run.Delivers := by
  cases hread : run.source.read run.host.files with
  | error error => exact .inl ⟨_, .unreadable hread⟩
  | ok file =>
      cases hload : Image.load run.programmer.options.suffixUse file with
      | error fault => exact .inl ⟨_, .invalid hread hload⟩
      | ok image =>
          have hloads : run.Loads image := ⟨file, hread, hload⟩
          obtain ⟨deeds, after, htransferring, hdeeds⟩ := hloads.takes_course hdiscreet
          generalize hresult : run.result = result at htransferring
          cases htransferring with
          | hindered hhindered => exact .inl ⟨_, .hindered hloads hhindered⟩
          | transferred hprepares hsize hdelivering =>
              refine .inr (.of_delivering (hresult ▸ hdelivering) ?_)
              rw [hdeeds, exchanges_append, exchanges_append]
              exact List.subset_append_of_subset_right _ (List.subset_append_left _ _)

structure TellsWriting (run : FlashRun ω H) : Prop where
  recorded : run.last.deeds = run.host.deeds ++ run.deeds
  marked : (∃ cause, run.result = .error (.download cause)) ↔ run.Sends ∧ run.result ≠ .ok ()
  coded : ∀ fault, run.result = .error fault → (fault.code = 14 ↔ run.Sends)
  early : ∀ fault, run.FailsEarly fault →
    run.result = .error fault ∧ fault.code ≠ 14 ∧ ¬ run.Sends
  unsent : ¬ run.Sends → ∃ fault, run.FailsEarly fault
  completed : run.result = .ok () → Session.TakesEmptyBlock (exchanges run.deeds)
  cause : ∀ cause, run.result = .error (.download cause) →
    (∀ inner, cause ≠ .download inner) ∧ cause ≠ .transferSizeUnknown ∧ cause.isFatal = false

theorem FailsEarly.tellsWriting {fault : Fault} (hearly : run.FailsEarly fault)
    (hdiscreet : run.programmer.access.Discreet) (hplain : run.programmer.access.Plain) :
    run.TellsWriting := by
  obtain ⟨hresult, hunsent⟩ := hearly.ends hdiscreet
  have hfault := hearly.isPlain hplain
  have hmarked : ∀ cause, run.result ≠ .error (.download cause) := by
    intro cause hcause
    cases hresult.symm.trans hcause
    cases hfault
  constructor
  case recorded => exact run.followsClimb.1
  case marked => simp [hmarked, hunsent]
  case coded =>
    intro fault' hfault'
    cases hresult.symm.trans hfault'
    exact iff_of_false (Fault.code_ne_of_isPlain hfault) hunsent
  case early =>
    intro fault' hearly'
    exact ⟨(hearly'.ends hdiscreet).1, Fault.code_ne_of_isPlain (hearly'.isPlain hplain), hunsent⟩
  case unsent => exact fun _ => ⟨fault, hearly⟩
  case completed =>
    intro hok
    cases hresult.symm.trans hok
  case cause => exact fun cause hcause => absurd hcause (hmarked cause)

theorem Delivers.tellsWriting (hdelivers : run.Delivers)
    (hdiscreet : run.programmer.access.Discreet) : run.TellsWriting := by
  have hsends := hdelivers.sends
  constructor
  case recorded => exact run.followsClimb.1
  case marked =>
    constructor
    · intro ⟨cause, hcause⟩
      exact ⟨hsends, by simp [hcause]⟩
    · intro ⟨_, hfailed⟩
      cases hresult : run.result with
      | ok value => exact absurd hresult hfailed
      | error fault =>
          obtain ⟨cause, rfl, -⟩ := hdelivers.marked fault hresult
          exact ⟨cause, rfl⟩
  case coded =>
    intro fault hfault
    obtain ⟨cause, rfl, -⟩ := hdelivers.marked fault hfault
    exact iff_of_true rfl hsends
  case early =>
    intro fault hearly
    exact absurd hsends (hearly.ends hdiscreet).2
  case unsent => exact fun hunsent => absurd hsends hunsent
  case completed => exact hdelivers.completed
  case cause =>
    intro cause hcause
    obtain ⟨cause', hmark, hdirect⟩ := hdelivers.marked _ hcause
    cases hmark
    have hfatal := Fault.isFatal_of_isPlain (Fault.isPlain_of_isDirect hdirect)
    refine ⟨?_, ?_, hfatal⟩
    · intro inner hinner
      simp [hinner, Fault.isDirect] at hdirect
    · intro hsize
      simp [hsize, Fault.isDirect] at hdirect

def onBus (timeout : Nat) (options : TransferOptions) (source : FirmwareSource)
    (host : Host Bus) : FlashRun Bus Nat where
  programmer := ⟨Bus.access timeout, options⟩
  unnoticed := Bus.access_unnoticed timeout
  source
  host

def onBench (bench : Bench) (options : TransferOptions) (source : FirmwareSource)
    (host : Host Script) : FlashRun Script Nat where
  programmer := ⟨bench.access, options⟩
  unnoticed := bench.access_unnoticed
  source
  host

theorem tellsWriting (run : FlashRun ω H) (hdiscreet : run.programmer.access.Discreet)
    (hplain : run.programmer.access.Plain) : run.TellsWriting := by
  rcases run.failsEarly_or_delivers hdiscreet with ⟨fault, hearly⟩ | hdelivers
  · exact hearly.tellsWriting hdiscreet hplain
  · exact hdelivers.tellsWriting hdiscreet

end FlashRun

/-- The fault of a flash is marked as that of a download exactly if a block was sent, and a flash
that succeeds has sent at least the empty block.  This holds over the bus whatever the devices do,
and with every other way to reach devices that does not speak to them and has no such faults of
its own. -/
theorem flash_fault_tells_writing :
    (∀ (timeout : Nat) (options : TransferOptions) (source : FirmwareSource) (host : Host Bus),
      (FlashRun.onBus timeout options source host).TellsWriting) ∧
    ∀ (ω H : Type) (run : FlashRun ω H), run.programmer.access.Discreet →
      run.programmer.access.Plain → run.TellsWriting := by
  constructor
  · intro timeout options source host
    exact FlashRun.tellsWriting _ (Bus.access_discreet timeout) (Bus.access_plain timeout)
  · intro ω H run hdiscreet hplain
    exact run.tellsWriting hdiscreet hplain

/-- The device takes one block and does not answer after it. -/
theorem flash_fault_tells_writing_bench :
    let bench : Bench := ⟨[default], none, none⟩
    let options := { TransferOptions.standard with transferSize := some 4 }
    let run := FlashRun.onBench bench options (.contents ⟨#[1, 2, 3]⟩) (.reporting [(0, 2)])
    bench.access.Discreet ∧ bench.access.Plain ∧ run.TellsWriting := by
  have hplain : Bench.Plain ⟨[default], none, none⟩ := ⟨by simp, by simp⟩
  obtain ⟨-, hall⟩ := flash_fault_tells_writing
  exact ⟨Bench.access_discreet _, hplain.access,
    hall _ _ _ (Bench.access_discreet _) hplain.access⟩

end FirmwareUpgrade
