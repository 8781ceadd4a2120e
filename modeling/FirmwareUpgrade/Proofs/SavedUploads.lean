import FirmwareUpgrade.CommandLine.Run
import FirmwareUpgrade.Proofs.BusOperations
import FirmwareUpgrade.Proofs.FileWrites
import FirmwareUpgrade.Proofs.TransferPhases

/-!
# Saved uploads

The command that reads a device into a file leaves either the whole firmware there or the files as
they were.  Nothing is saved while the device is open, and once it is closed the file is written in
one go, if the upload has succeeded.
-/

namespace FirmwareUpgrade

variable {ω H : Type}

/-! ## Nothing is saved on the way -/

def Event.saves : Event → Bool
  | .saved _ _ => true
  | _ => false

def Saveless (events : List Event) : Prop :=
  ∀ event ∈ events, event.saves = false

@[simp]
theorem saveless_append {first second : List Event} :
    Saveless (first ++ second) ↔ Saveless first ∧ Saveless second := by
  simp [Saveless, or_imp, forall_and]

theorem Session.Does.saveless {session : Session ω} {allowed : Demand → Prop} {reporting : Prop}
    {events : List Event} (hdoes : session.Does allowed reporting events) : Saveless events := by
  intro event hmem
  cases hdoes event hmem <;> rfl

theorem Groundwork.saveless {events : List Event} (hevents : Groundwork events) :
    Saveless events := by
  intro event hmem
  have hevent := hevents event hmem
  cases event <;> simp_all [Event.isGroundwork, Event.saves]

namespace Programmer

variable {timeout : Nat} {options : TransferOptions} {before after : Moment Bus}
  {deeds : List Event}

theorem Uploading.saveless {limit : Option Nat} {result : Except Fault ByteArray}
    (huploading : Uploading ⟨Bus.access timeout, options⟩ limit before deeds result after) :
    Saveless deeds := by
  cases huploading with
  | hindered hhindered => exact hhindered.groundwork.saveless
  | transferred hprepares hsize hfetching =>
      simp [hprepares.groundwork.saveless, hfetching.does.saveless,
        (Bus.parting_groundwork _).saveless]

/-- An upload that succeeds ends with the release of the interface and the closing of the device. -/
theorem Uploading.ends_closed {limit : Option Nat} {data : ByteArray}
    (huploading : Uploading ⟨Bus.access timeout, options⟩ limit before deeds (.ok data) after) :
    ∃ earlier device interface,
      deeds = earlier ++ [.bus (.release device interface), .bus (.closeDevice device)] := by
  cases huploading with
  | @transferred _ _ prepared device _ _ deeds _ hprepares hsize hfetching =>
      refine ⟨prepared ++ deeds, device.handle, device.interface, ?_⟩
      rw [List.append_assoc]
      rfl

end Programmer

/-! ## What is left behind -/

namespace CommandLine

/-- What the command leaves behind, by the result of the upload: the outcome and the last host. -/
inductive Leaves (path : String) (host : Host ω) (deeds : List Event) :
    Except Fault ByteArray → Outcome × Host ω → Prop
  | failed {fault outcome last} (hdeeds : last.deeds = host.deeds ++ deeds)
      (hfiles : last.files = host.files)
      (hcode : outcome.exitCode = (Failure.operation fault).exitCode) :
      Leaves path host deeds (.error fault) (outcome, last)
  | unsaved {data error outcome last} (hwrite : host.files.write path data = .error error)
      (hdeeds : last.deeds = host.deeds ++ deeds) (hfiles : last.files = host.files)
      (hcode : outcome.exitCode = 1) :
      Leaves path host deeds (.ok data) (outcome, last)
  | saved {data files outcome last} (hwrite : host.files.write path data = .ok files)
      (hdeeds : last.deeds = host.deeds ++ (deeds ++ [.saved path data]))
      (hfiles : last.files = files) (hcode : outcome.exitCode = 0) :
      Leaves path host deeds (.ok data) (outcome, last)

theorem runUpload_leaves {programmer : Programmer ω H} {path : String} {limit : Option Nat}
    {host : Host ω} {deeds : List Event} {result : Except Fault ByteArray} {after : Moment ω}
    (hupload : (programmer.upload limit).Performs host.moment deeds result after) :
    Leaves path host deeds result (runUpload programmer path limit host) := by
  obtain ⟨last, hrun, -, hfiles, hdeeds⟩ := hupload.run host rfl
  cases result with
  | error fault =>
      simp only [runUpload, showing, hrun]
      exact .failed hdeeds hfiles rfl
  | ok data =>
      cases hwrite : last.files.write path data with
      | error error =>
          have hsave : (Action.writeFile path data).run last = (.ok (.error error), last) := by
            simp only [Action.writeFile, hwrite]
          simp only [runUpload, showing, hrun, Except.mapError, hsave]
          exact .unsaved (hfiles ▸ hwrite) hdeeds hfiles rfl
      | ok files =>
          let written : Host ω := { last with files }
          have hsave : (Action.writeFile path data).run last =
              (.ok (.ok ()), written.record (.saved path data)) := by
            simp only [Action.writeFile, hwrite, written]
          have hsaved : (written.record (.saved path data)).deeds =
              host.deeds ++ (deeds ++ [.saved path data]) := by
            rw [written.record_deeds rfl, ← List.append_assoc, ← hdeeds]
            rfl
          simp only [runUpload, showing, hrun, Except.mapError, hsave]
          exact .saved (hfiles ▸ hwrite) hsaved rfl rfl

end CommandLine

/-- Over the bus, the command that reads a device into a file changes no file unless the upload has
succeeded.  Then the device is closed again, and the file gets all that was read in one go, unless
it is a special one. -/
theorem upload_saves_all_or_nothing (timeout : Nat) (options : TransferOptions) (path : String)
    (limit : Option Nat) (host : Host Bus) :
    let programmer : Programmer Bus Nat := ⟨Bus.access timeout, options⟩
    ∃ deeds result after, (programmer.upload limit).Performs host.moment deeds result after ∧
      Saveless deeds ∧
      Bus.KeepsCustody timeout (programmer.origin? host.moment) host.world.attachments deeds ∧
      (∀ data, result = .ok data → ∃ earlier device interface,
        deeds = earlier ++ [.bus (.release device interface), .bus (.closeDevice device)]) ∧
      CommandLine.Leaves path host deeds result
        (CommandLine.runUpload programmer path limit host) ∧
      ∀ data files, host.files.write path data = .ok files →
        (∀ file, host.files.special? path = some file →
          files = host.files ∧ file.write data = .ok ()) ∧
        (host.files.special? path = none → ∃ directory name,
          files = host.files.put directory name data ∧ files.read path = .ok data) := by
  intro programmer
  have hdiscreet : programmer.access.Discreet := Bus.access_discreet timeout
  obtain ⟨deeds, result, after, huploading, hupload⟩ :=
    Programmer.upload_takes_course hdiscreet limit host.moment
  obtain ⟨deeds', result', after', hupload', hcustody⟩ :=
    (Programmer.upload_followsOrder timeout options limit host.moment).keepsCustody
  obtain ⟨rfl, -, -⟩ := hupload'.unique hupload
  refine ⟨deeds, result, after, hupload, huploading.saveless, hcustody, ?_,
    CommandLine.runUpload_leaves hupload, fun data files => Files.write_ok⟩
  rintro data rfl
  exact huploading.ends_closed

end FirmwareUpgrade
