import FirmwareUpgrade.CommandLine.Run
import FirmwareUpgrade.Proofs.LostDevices
import Mathlib.Logic.Function.Iterate

/-!
# Exit codes

A command performs one operation, and its exit code tells how that ended.  A lost device has an
exit code of its own, every other fault has its error number, and only an upload can still fail
after its operation, when the file cannot be written.
-/

namespace FirmwareUpgrade

variable {ω H α β : Type}

/-- Fatal faults are those of failed cancellations, marked any number of times as those of a
download. -/
theorem Fault.isFatal_iff {fault : Fault} :
    fault.isFatal ↔ ∃ depth reason, fault = Fault.download^[depth] (.abortFailed reason) := by
  constructor
  · intro hfatal
    induction fault with
    | abortFailed reason => exact ⟨0, reason, rfl⟩
    | download cause ih =>
        obtain ⟨depth, reason, rfl⟩ := ih hfatal
        exact ⟨depth + 1, reason, (Function.iterate_succ_apply' ..).symm⟩
    | _ => cases hfatal
  · intro ⟨depth, reason, hfault⟩
    subst hfault
    induction depth with
    | zero => rfl
    | succ depth ih =>
        rw [Function.iterate_succ_apply']
        exact ih

namespace CommandLine

/-! ## Codes of failures -/

namespace Failure

variable {fault : Fault}

theorem exitCode_of_isFatal (hfatal : fault.isFatal) : (operation fault).exitCode = 74 :=
  if_pos hfatal

theorem exitCode_of_not_isFatal (hfatal : fault.isFatal = false) :
    (operation fault).exitCode = fault.code := by
  simp [exitCode, hfatal]

theorem exitCode_eq_fatal_iff : (operation fault).exitCode = 74 ↔ fault.isFatal := by
  cases hfatal : fault.isFatal with
  | true => simp [exitCode_of_isFatal hfatal]
  | false =>
      have hcode := fault.code_mem
      rw [exitCode_of_not_isFatal hfatal]
      simp only [Bool.false_eq_true, iff_false]
      intro hcode'
      simp [hcode'] at hcode

theorem exitCode_ne_zero (failure : Failure) : failure.exitCode ≠ 0 := by
  cases failure with
  | file error => simp [exitCode]
  | operation fault =>
      cases hfatal : fault.isFatal with
      | true => simp [exitCode_of_isFatal hfatal]
      | false =>
          have hcode := fault.code_mem
          rw [exitCode_of_not_isFatal hfatal]
          intro hzero
          simp [hzero] at hcode

end Failure

/-- The exit code of a command of which the last step ended with the result. -/
def codeOf (result : Except Failure α) : Nat :=
  match result with
  | .ok _ => 0
  | .error failure => failure.exitCode

@[simp]
theorem codeOf_mapError_map (result : Except Fault α) (change : α → β) :
    codeOf ((result.map change).mapError .operation) = codeOf (result.mapError .operation) := by
  cases result <;> rfl

theorem Outcome.exitCode_ofResult_map (output : String) (result : Except Failure α)
    (render : α → String) : (ofResult output (result.map render)).exitCode = codeOf result := by
  cases result <;> rfl

/-! ## The operations of the commands -/

def Command.operation (command : Command) (arguments : Arguments) : Operation :=
  match command with
  | .list => .list arguments.criteria
  | .download => .flashFrom (arguments.file.getD "")
  | .upload => .upload arguments.length
  | .detach => .detach arguments.detachTimeoutOrDefault
  | .status => .status

def Command.programmer (command : Command) (access : Nat → Access ω H) (arguments : Arguments) :
    Programmer ω H :=
  match command with
  | .download => arguments.programmer access arguments.suffixUse
  | _ => arguments.programmer access .ignored

def Unwritable (programmer : Programmer ω H) (path : String) (limit : Option Nat) (host : Host ω) :
    Prop :=
  ∃ data last error, (programmer.upload limit).run host = (.ok data, last) ∧
    last.files.write path data = .error error

def Command.Unsaved (command : Command) (access : Nat → Access ω H) (arguments : Arguments)
    (host : Host ω) : Prop :=
  command = .upload ∧
    Unwritable (command.programmer access arguments) (arguments.file.getD "") arguments.length host

/-- How a command that performs an operation and then may write a file has to end. -/
structure TellsResult (result : Except Fault Unit) (unsaved : Prop) (code : Nat) : Prop where
  lost : code = 74 ↔ EndsFatally result
  faulty : ∀ fault, result = .error fault → fault.isFatal = false →
    code = fault.code ∧ code ∈ [5, 14, 19, 22]
  unwritten : result = .ok () → unsaved → code = 1
  success : code = 0 ↔ result = .ok () ∧ ¬ unsaved

section Tells

variable {result : Except Fault Unit} {unsaved : Prop}

theorem TellsResult.of_error {fault : Fault} :
    TellsResult (.error fault) unsaved (Failure.operation fault).exitCode where
  lost := by
    rw [endsFatally_error]
    exact Failure.exitCode_eq_fatal_iff
  faulty := by
    intro fault' hfault hfatal
    cases hfault
    rw [Failure.exitCode_of_not_isFatal hfatal]
    exact ⟨rfl, fault.code_mem⟩
  unwritten := by
    intro hok
    cases hok
  success := by simp [Failure.exitCode_ne_zero]

theorem TellsResult.of_unsaved (hunsaved : unsaved) : TellsResult (.ok ()) unsaved 1 where
  lost := by simp
  faulty := by simp
  unwritten := by simp
  success := by simp [hunsaved]

theorem TellsResult.of_saved (hsaved : ¬ unsaved) : TellsResult (.ok ()) unsaved 0 where
  lost := by simp
  faulty := by simp
  unwritten := by simp [hsaved]
  success := by simp [hsaved]

theorem TellsResult.of_operation (hsaved : ¬ unsaved) :
    TellsResult result unsaved (codeOf (result.mapError .operation)) := by
  cases result with
  | error fault => exact .of_error
  | ok done => exact .of_saved hsaved

end Tells

/-- The exit code tells how the operation ended, and nothing is asked of the devices besides. -/
structure Reports (operation : Operation) (programmer : Programmer ω H) (unsaved : Prop)
    (host : Host ω) (ended : Outcome × Host ω) : Prop where
  code : TellsResult (operation.result programmer host) unsaved ended.1.exitCode
  transfers : exchanges ended.2.deeds = exchanges (operation.last programmer host).deeds

theorem Reports.of_operation {operation : Operation} {programmer : Programmer ω H} {unsaved : Prop}
    {host : Host ω} {ended : Outcome × Host ω} (hsaved : ¬ unsaved)
    (hcode : ended.1.exitCode =
      codeOf ((operation.result programmer host).mapError .operation))
    (hlast : ended.2 = operation.last programmer host) :
    Reports operation programmer unsaved host ended where
  code := hcode ▸ .of_operation hsaved
  transfers := by rw [hlast]

theorem runUpload_reports (programmer : Programmer ω H) (path : String) (limit : Option Nat)
    (host : Host ω) :
    Reports (.upload limit) programmer (Unwritable programmer path limit host) host
      (runUpload programmer path limit host) := by
  rcases hrun : (programmer.upload limit).run host with ⟨result, last⟩
  have hlast : (Operation.upload limit).last programmer host = last := by
    rw [Operation.last, hrun]
  have hresult : (Operation.upload limit).result programmer host = result.map fun _ => () := by
    rw [Operation.result, hrun]
  cases result with
  | error fault =>
      simp only [runUpload, showing, hrun, Except.mapError]
      constructor
      · exact hresult ▸ .of_error
      · exact congrArg (exchanges ·.deeds) hlast.symm
  | ok data =>
      cases hwrite : last.files.write path data with
      | error error =>
          have hunsaved : Unwritable programmer path limit host := ⟨data, last, error, hrun, hwrite⟩
          have hsave : (Action.writeFile path data).run last = (.ok (.error error), last) := by
            simp only [Action.writeFile, hwrite]
          simp only [runUpload, showing, hrun, Except.mapError, hsave]
          constructor
          · exact hresult ▸ .of_unsaved hunsaved
          · exact congrArg (exchanges ·.deeds) hlast.symm
      | ok files =>
          have hsaved : ¬ Unwritable programmer path limit host := by
            simp [Unwritable, hrun, hwrite]
          let written : Host ω := { last with files }
          have hsave : (Action.writeFile path data).run last =
              (.ok (.ok ()), written.record (.saved path data)) := by
            simp only [Action.writeFile, hwrite, written]
          simp only [runUpload, showing, hrun, Except.mapError, hsave]
          constructor
          · exact hresult ▸ .of_saved hsaved
          · rw [written.record_deeds rfl, exchanges_append, hlast]
            exact List.append_nil _

theorem runCommand_reports (command : Command) (access : Nat → Access ω H) (arguments : Arguments)
    (host : Host ω) :
    Reports (command.operation arguments) (command.programmer access arguments)
      (command.Unsaved access arguments host) host (runCommand access command arguments host) := by
  have hsaved (hother : command ≠ .upload) : ¬ command.Unsaved access arguments host :=
    fun hunsaved => hother hunsaved.1
  cases command with
  | upload =>
      have hunsaved : Command.upload.Unsaved access arguments host =
          Unwritable (Command.upload.programmer access arguments) (arguments.file.getD "")
            arguments.length host := by
        simp [Command.Unsaved]
      rw [hunsaved]
      exact runUpload_reports _ _ arguments.length host
  | list =>
      refine .of_operation (hsaved (by simp)) ?_ rfl
      rw [Command.operation, Operation.result, codeOf_mapError_map]
      exact Outcome.exitCode_ofResult_map ..
  | download =>
      refine .of_operation (hsaved (by simp)) ?_ rfl
      exact Outcome.exitCode_ofResult_map ..
  | detach =>
      refine .of_operation (hsaved (by simp)) ?_ rfl
      exact Outcome.exitCode_ofResult_map ..
  | status =>
      refine .of_operation (hsaved (by simp)) ?_ rfl
      rw [Command.operation, Operation.result, codeOf_mapError_map]
      exact Outcome.exitCode_ofResult_map ..

namespace Invocation

/-- The command that is performed; without one, all devices are listed. -/
def command (invocation : Invocation) : Command :=
  match invocation with
  | .unspecified => .list
  | .perform command _ => command

def arguments (invocation : Invocation) : Arguments :=
  match invocation with
  | .unspecified => .empty
  | .perform _ arguments => arguments

theorem run_eq (invocation : Invocation) (access : Nat → Access ω H) (host : Host ω) :
    invocation.run access host =
      runCommand access invocation.command invocation.arguments host := by
  cases invocation <;> rfl

def Reports (invocation : Invocation) (access : Nat → Access ω H) (host : Host ω) : Prop :=
  CommandLine.Reports (invocation.command.operation invocation.arguments)
    (invocation.command.programmer access invocation.arguments)
    (invocation.command.Unsaved access invocation.arguments host) host (invocation.run access host)

end Invocation

end CommandLine

/-- An operation ends fatally exactly if it is an upload that tells its device to give up the
transfer and does not get a confirmation; nothing is asked of any device after that.  The exit code
of a command tells such a fault from all others and a success from every failure. -/
theorem fatal_faults_are_lost_devices :
    (∀ (timeout : Nat) (options : TransferOptions) (operation : Operation) (host : Host Bus),
      ∃ deeds, operation.TellsLoss ⟨Bus.access timeout, options⟩ host deeds) ∧
    (∀ (ω H : Type) (programmer : Programmer ω H), programmer.access.Discreet →
      programmer.access.Plain → ∀ (operation : Operation) (host : Host ω),
      ∃ deeds, operation.TellsLoss programmer host deeds) ∧
    (∀ (ω H : Type) (access : Nat → Access ω H) (invocation : CommandLine.Invocation)
      (host : Host ω), invocation.Reports access host) ∧
    ∀ fault : Fault,
      (fault.isFatal ↔ ∃ depth reason, fault = Fault.download^[depth] (.abortFailed reason)) ∧
      ((CommandLine.Failure.operation fault).exitCode = 74 ↔ fault.isFatal) ∧
      (fault.isFatal = false → (CommandLine.Failure.operation fault).exitCode = fault.code) ∧
      fault.code ∈ [5, 14, 19, 22] := by
  refine ⟨?_, ?_, ?_, ?_⟩
  · intro timeout options operation host
    exact operation.tellsLoss _ (Bus.access_discreet timeout) (Bus.access_plain timeout) host
  · intro ω H programmer hdiscreet hplain operation host
    exact operation.tellsLoss programmer hdiscreet hplain host
  · intro ω H access invocation host
    rw [CommandLine.Invocation.Reports, invocation.run_eq]
    exact CommandLine.runCommand_reports _ _ _ _
  · intro fault
    exact ⟨Fault.isFatal_iff, CommandLine.Failure.exitCode_eq_fatal_iff,
      CommandLine.Failure.exitCode_of_not_isFatal, fault.code_mem⟩

/-- The device answers that it is not idle when it has been told to give up the transfer. -/
theorem fatal_faults_are_lost_devices_bench :
    let bench : Bench := ⟨[default], none, none⟩
    let options := { TransferOptions.standard with transferSize := some 4 }
    let programmer : Programmer Script Nat := ⟨bench.access, options⟩
    let host := Host.reporting [(0, 2), (0, 9)]
    programmer.access.Discreet ∧ programmer.access.Plain ∧
      ∃ deeds later, (Operation.upload none).TellsLoss programmer host deeds ∧
        (Operation.upload none).Loses programmer host.moment deeds later := by
  have hdiscreet := Bench.access_discreet ⟨[default], none, none⟩
  have hplain : Bench.Plain ⟨[default], none, none⟩ := ⟨by simp, by simp⟩
  obtain ⟨-, hall, -⟩ := fatal_faults_are_lost_devices
  intro bench options programmer host
  obtain ⟨deeds, htells⟩ := hall _ _ programmer hdiscreet hplain.access (.upload none) host
  have hfatal : EndsFatally ((Operation.upload none).result programmer host) := ⟨_, rfl, rfl⟩
  obtain ⟨later, hloses⟩ := htells.fatal.mp hfatal
  exact ⟨hdiscreet, hplain.access, deeds, later, htells, hloses⟩

end FirmwareUpgrade
