import FirmwareUpgrade.Proofs.ProgressReports
import FirmwareUpgrade.Proofs.SavedUploads

/-!
# Progress bars

The commands draw each report of progress: a percentage, and a bar that is filled up to the same
share.  They divide by the total and subtract the filled part from the width, in numbers of 64 bits.
That nothing goes wrong there depends on the two loops that report, on a device that answers no more
than it was asked for, and on the two totals that are never divided by.
-/

namespace FirmwareUpgrade

namespace CommandLine.Screen

theorem portion_le {done total : Nat} (hdone : done ≤ total) (scale : Nat) :
    portion scale done total ≤ scale := by
  apply Nat.div_le_of_le_mul
  rw [Nat.mul_comm total]
  exact Nat.mul_le_mul_left scale hdone

/-- The share as it is computed in 64 bits. -/
def portion64 (scale done total : Nat) : UInt64 :=
  UInt64.ofNat scale * UInt64.ofNat done / UInt64.ofNat total

theorem toNat_portion64 {scale done total : Nat} (hscale : scale ≤ 128)
    (hdone : done < UInt64.size / 128) (htotal : total < UInt64.size) :
    (portion64 scale done total).toNat = portion scale done total := by
  have hproduct : scale * done < UInt64.size :=
    calc scale * done ≤ 128 * done := Nat.mul_le_mul_right done hscale
      _ < UInt64.size := by
        simp only [UInt64.size] at hdone ⊢
        omega
  have hfits : scale < UInt64.size ∧ done < UInt64.size := by
    simp only [UInt64.size] at hdone ⊢
    omega
  rw [portion64, UInt64.toNat_div, UInt64.toNat_mul, UInt64.toNat_ofNat_of_lt' hfits.1,
    UInt64.toNat_ofNat_of_lt' hfits.2, UInt64.toNat_ofNat_of_lt' htotal, Nat.mod_eq_of_lt hproduct]
  rfl

@[simp]
theorem length_bar {filled : Nat} : (bar filled).length = filled + (barWidth - filled) := by
  simp [bar]

/-- A report can be drawn, and the bar has its full width.  If the data is small enough, all numbers
on the way fit into 64 bits, and what is left of the bar is not negative. -/
structure Drawable (done total : Nat) : Prop where
  inside : done ≤ total
  percent : portion 100 done total ≤ 100
  filled : portion barWidth done total ≤ barWidth
  width : (bar (portion barWidth done total)).length = barWidth
  percent64 : done < UInt64.size / 128 → total < UInt64.size →
    (portion64 100 done total).toNat = portion 100 done total
  blank64 : done < UInt64.size / 128 → total < UInt64.size →
    (UInt64.ofNat barWidth - portion64 barWidth done total).toNat =
      barWidth - portion barWidth done total

theorem Drawable.of_le {done total : Nat} (hdone : done ≤ total) : Drawable done total := by
  have hfilled := portion_le hdone barWidth
  constructor
  case inside => exact hdone
  case percent => exact portion_le hdone 100
  case filled => exact hfilled
  case width => rw [length_bar, Nat.add_sub_cancel' hfilled]
  case percent64 => exact toNat_portion64 (by decide)
  case blank64 =>
    intro hsmall htotal
    have hshare : (portion64 barWidth done total).toNat = portion barWidth done total :=
      toNat_portion64 (by decide) hsmall htotal
    rw [UInt64.toNat_sub_of_le, hshare]
    · rfl
    · rw [UInt64.le_iff_toNat_le, hshare]
      exact hfilled

end CommandLine.Screen

/-! ## The commands -/

open CommandLine.Screen

/-- Every report that the command line would have to divide can be drawn. -/
def DrawsSafely (events : List Event) : Prop :=
  ∀ done total, (done, total) ∈ progressReports events → total ≠ 0 → Drawable done total

theorem Download.ReportsExactly.drawsSafely {chunk size : Nat} {deeds : List Event}
    {result : Except Fault Unit} (hexact : Download.ReportsExactly chunk size deeds result) :
    DrawsSafely deeds := by
  intro done total hmem _
  rw [hexact.sequence] at hmem
  rcases List.mem_map.mp hmem with ⟨count, -, hreport⟩
  cases hreport
  exact .of_le (Nat.min_le_right _ _)

theorem Upload.ReportsExactly.drawsSafely {limit : Option Nat} {deeds : List Event}
    (hexact : Upload.ReportsExactly limit deeds) : DrawsSafely deeds := by
  intro done total hmem hsome
  rcases hexact.within done total hmem with ⟨htotal, hwithin⟩
  cases limit with
  | none => exact absurd htotal hsome
  | some most =>
      rw [htotal]
      exact .of_le (hwithin most rfl)

theorem Unreported.drawsSafely {events : List Event} (hnone : Unreported events) :
    DrawsSafely events := by
  intro done total hmem
  rw [hnone.progressReports_eq] at hmem
  contradiction

theorem drawsSafely_append {first second : List Event} :
    DrawsSafely (first ++ second) ↔ DrawsSafely first ∧ DrawsSafely second := by
  simp [DrawsSafely, or_imp, forall_and]

theorem Groundwork.drawsSafely {events : List Event} (hevents : Groundwork events) :
    DrawsSafely events := by
  apply Unreported.drawsSafely
  intro event hmem
  have hevent := hevents event hmem
  cases event <;> simp_all [Event.isGroundwork, Event.isProgress]

/-- Answers over the bus are cut to what was asked for. -/
theorem Bus.pipe_fits (device : Nat) (interface : UInt8) (timeout : Nat) :
    (Bus.pipe device interface timeout).Fits := by
  intro request value length bus bytes delay after hanswer
  rcases hscript : bus.script.answer length with ⟨reaction, script⟩
  simp only [Bus.pipe, hscript, Prod.mk.injEq] at hanswer
  rcases hanswer with ⟨rfl, -⟩
  exact Script.pipe_fits (.direct interface) request value length bus.script bytes delay script
    hscript

namespace Programmer

variable {α : Type} {timeout : Nat} {options : TransferOptions} {criteria : Criteria}
  {verdict : Device Nat → Except Fault Unit} {before after : Moment Bus} {deeds : List Event}

theorem Prepares.pipe_fits {device : Device Nat} {session : Session Bus}
    (hprepares : Prepares ⟨Bus.access timeout, options⟩ criteria verdict before device session deeds
      after) : session.pipe.Fits := by
  cases hprepares with
  | prepared hchoose hverdict hconnect hready =>
      rcases Bus.connect_performs timeout device _ with ⟨_, _, _, hconnecting, hrun⟩
      rcases hconnect.unique hrun with ⟨-, rfl, -⟩
      cases hconnecting with
      | connected => exact Bus.pipe_fits _ _ _

/-- A transfer draws safely if its course does, with every device on the bus. -/
theorem Transferring.drawsSafely {courses : UInt16 → Session.Courses Bus α}
    {result : Except Fault α}
    (hcourses : ∀ (chunk : UInt16) session before deeds result after, 0 < chunk.toNat →
      session.pipe.Fits → courses chunk session before deeds result after → DrawsSafely deeds)
    (htransferring : Transferring ⟨Bus.access timeout, options⟩ criteria verdict courses before
      deeds result after) : DrawsSafely deeds := by
  cases htransferring with
  | hindered hhindered => exact hhindered.groundwork.drawsSafely
  | transferred hprepares hsize hcourse =>
      have htransfer := hcourses _ _ _ _ _ _ (blockSize_pos hsize) hprepares.pipe_fits hcourse
      exact drawsSafely_append.mpr ⟨hprepares.groundwork.drawsSafely,
        drawsSafely_append.mpr ⟨htransfer, (Bus.parting_groundwork _).drawsSafely⟩⟩

theorem upload_drawsSafely (timeout : Nat) (options : TransferOptions) (limit : Option Nat)
    (before : Moment Bus) :
    ∃ deeds result after,
      (Programmer.upload ⟨Bus.access timeout, options⟩ limit).Performs before deeds result after ∧
      DrawsSafely deeds := by
  let programmer : Programmer Bus Nat := ⟨Bus.access timeout, options⟩
  have hdiscreet : programmer.access.Discreet := Bus.access_discreet timeout
  rcases upload_takes_course hdiscreet limit before with ⟨deeds, result, after, huploading, hrun⟩
  refine ⟨deeds, result, after, hrun, huploading.drawsSafely ?_⟩
  intro chunk session start deeds result after positive hfits hfetching
  exact (hfetching.reportsExactly positive chunk.toNat_lt hfits).drawsSafely

theorem flash_drawsSafely (timeout : Nat) (options : TransferOptions) (file : ByteArray)
    (before : Moment Bus) :
    ∃ deeds result after,
      (Programmer.flash ⟨Bus.access timeout, options⟩ file).Performs before deeds result after ∧
      DrawsSafely deeds := by
  let programmer : Programmer Bus Nat := ⟨Bus.access timeout, options⟩
  have hdiscreet : programmer.access.Discreet := Bus.access_discreet timeout
  cases hload : Image.load options.suffixUse file with
  | error fault =>
      refine ⟨_, _, _, flash_performs (transfer_unreadable hload), ?_⟩
      exact Unreported.drawsSafely (by simp [Event.isProgress])
  | ok image =>
      have himage : Image.load programmer.options.suffixUse file = .ok image := hload
      rcases flash_takes_course hdiscreet himage before with
        ⟨deeds, result, after, htransferring, hrun⟩
      have hdelivers : DrawsSafely deeds := by
        apply htransferring.drawsSafely
        intro chunk session start deeds result after positive _ hdelivering
        cases hdelivering with
        | sent hsending => exact (hsending.reportsExactly positive).drawsSafely
      refine ⟨_, result, after, hrun, ?_⟩
      rw [← List.singleton_append, drawsSafely_append, drawsSafely_append]
      have hends (succeeded : Bool) : DrawsSafely [.finished succeeded] :=
        Unreported.drawsSafely (by simp [Event.isProgress])
      exact ⟨Unreported.drawsSafely (by simp [Event.isProgress]), hdelivers, hends _⟩

end Programmer

namespace CommandLine

theorem runDownload_drawsSafely (timeout : Nat) (options : TransferOptions) (path : String)
    (host : Host Bus) :
    ∃ deeds,
      (runDownload ⟨Bus.access timeout, options⟩ path host).2.deeds = host.deeds ++ deeds ∧
      DrawsSafely deeds := by
  cases hread : host.files.read path with
  | error error =>
      have hruns := (⟨Bus.access timeout, options⟩ : Programmer Bus Nat).flashFrom_unreadable hread
      refine ⟨_, hruns.last_deeds, ?_⟩
      exact Unreported.drawsSafely (by simp [Event.isProgress])
  | ok file =>
      rcases Programmer.flash_drawsSafely timeout options file host.moment with
        ⟨deeds, result, after, hflash, hdraws⟩
      have hruns := Programmer.flashFrom_runs hread hflash
      refine ⟨.started :: deeds, hruns.last_deeds, ?_⟩
      exact hdraws

theorem runUpload_drawsSafely (timeout : Nat) (options : TransferOptions) (path : String)
    (limit : Option Nat) (host : Host Bus) :
    ∃ deeds,
      (runUpload ⟨Bus.access timeout, options⟩ path limit host).2.deeds = host.deeds ++ deeds ∧
      DrawsSafely deeds := by
  rcases Programmer.upload_drawsSafely timeout options limit host.moment with
    ⟨deeds, result, after, hupload, hdraws⟩
  have hleaves : Leaves path host deeds result _ := runUpload_leaves hupload
  generalize runUpload ⟨Bus.access timeout, options⟩ path limit host = left at hleaves
  cases hleaves with
  | failed hdeeds | unsaved _ hdeeds => exact ⟨deeds, hdeeds, hdraws⟩
  | saved hwrite hdeeds hfiles hcode =>
      refine ⟨_, hdeeds, drawsSafely_append.mpr ⟨hdraws, ?_⟩⟩
      exact Unreported.drawsSafely (by simp [Event.isProgress])

end CommandLine

/-- Whatever the devices do, the reports of a download are those of its confirmed blocks, and the
reports of an upload those of its blocks.  So whatever the commands report can be drawn. -/
theorem progress_is_exact_and_drawable :
    (∀ (ω : Type) (session : Session ω) (pace : Pace session.pipe session.deviations)
      (chunk : UInt16) (payload : ByteArray) (before : Moment ω), 0 < chunk.toNat →
      ∃ deeds result after,
        (session.downloadPayload pace chunk payload).Performs before deeds result after ∧
        Download.ReportsExactly chunk.toNat payload.size deeds result ∧ DrawsSafely deeds) ∧
    (∀ (ω : Type) (session : Session ω) (bound : Nat) (chunk : UInt16) (limit : Option Nat)
      (before : Moment ω), session.pipe.Fits →
      ∃ deeds result after,
        (session.uploadWithin bound chunk limit).Performs before deeds result after ∧
        Upload.ReportsExactly limit deeds ∧ DrawsSafely deeds) ∧
    ∀ (timeout : Nat) (options : TransferOptions) (path : String) (limit : Option Nat)
      (host : Host Bus),
      (∃ deeds,
        (CommandLine.runDownload ⟨Bus.access timeout, options⟩ path host).2.deeds =
          host.deeds ++ deeds ∧ DrawsSafely deeds) ∧
      ∃ deeds,
        (CommandLine.runUpload ⟨Bus.access timeout, options⟩ path limit host).2.deeds =
          host.deeds ++ deeds ∧ DrawsSafely deeds := by
  refine ⟨?_, ?_, ?_⟩
  · intro ω session pace chunk payload before positive
    rcases session.downloadPayload_reportsExactly pace positive payload before with
      ⟨deeds, result, after, hrun, hexact⟩
    exact ⟨deeds, result, after, hrun, hexact, hexact.drawsSafely⟩
  · intro ω session bound chunk limit before hfits
    rcases session.uploadWithin_reportsExactly hfits bound chunk limit before with
      ⟨deeds, result, after, hrun, hexact⟩
    exact ⟨deeds, result, after, hrun, hexact, hexact.drawsSafely⟩
  · intro timeout options path limit host
    exact ⟨CommandLine.runDownload_drawsSafely timeout options path host,
      CommandLine.runUpload_drawsSafely timeout options path limit host⟩

/-- Six bytes go to a device that confirms both blocks, and six are read from one that never has
enough. -/
theorem progress_is_exact_and_drawable_bench :
    0 < (4 : UInt16).toNat ∧ Session.tireless.pipe.Fits ∧
    (∃ deeds result after,
      (Script.session.downloadPayload (Script.pace _) 4 ⟨#[1, 2, 3, 4, 5, 6]⟩).Performs
        (Host.reporting [(0, 5), (0, 5), (0, 2)]).moment deeds result after ∧
      Download.ReportsExactly 4 6 deeds result ∧ DrawsSafely deeds) ∧
    ∃ deeds result after,
      (Session.tireless.uploadWithin 16 4 (some 6)).Performs ⟨(), 0⟩ deeds result after ∧
      Upload.ReportsExactly (some 6) deeds ∧ DrawsSafely deeds := by
  have positive : 0 < (4 : UInt16).toNat := by decide
  have hdownload := progress_is_exact_and_drawable.1 _ Script.session (Script.pace _) 4
    ⟨#[1, 2, 3, 4, 5, 6]⟩ (Host.reporting [(0, 5), (0, 5), (0, 2)]).moment positive
  have hupload := progress_is_exact_and_drawable.2.1 _ Session.tireless 16 4 (some 6) ⟨(), 0⟩
    Session.tireless_fits
  exact ⟨positive, Session.tireless_fits, hdownload, hupload⟩

end FirmwareUpgrade
