import FirmwareUpgrade.Event

/-!
# Reports

While a device is flashed, an embedding program may ask how far the work is and whether it has
ended.  A report is the answer at one moment.  It is a view of the transcript: `Report.after`
follows the events from the start of the host on.
-/

namespace FirmwareUpgrade

/-- Whether an attempt to flash a device has ended, and how. -/
inductive Completion where
  | pending
  | success
  | failure
deriving DecidableEq, Repr, Inhabited

def Completion.code : Completion → Int
  | pending => 0
  | success => 1
  | failure => -1

structure Report where
  percent : Nat
  completion : Completion
deriving DecidableEq, Repr, Inhabited

namespace Report

/-- The report before anything happened, and at the start of each attempt. -/
def initial : Report where
  percent := 0
  completion := .pending

/-- The share of `done` in `total` in whole percent; all of nothing is done. -/
def share (done total : Nat) : Nat :=
  if total = 0 then 100 else min 100 (done * 100 / total)

def advance (report : Report) (event : Event) : Report :=
  match event with
  | .started => initial
  | .finished true => { report with completion := .success }
  | .finished false => { report with completion := .failure }
  | .downloaded done total => { report with percent := share done total }
  | _ => report

def after (report : Report) (events : List Event) : Report :=
  events.foldl advance report

end Report

end FirmwareUpgrade
