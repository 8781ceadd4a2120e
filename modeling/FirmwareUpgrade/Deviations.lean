/-!
# Known deviations from the standard

Some devices report a poll time that must not be used.  They are recognised by their vendor,
product and release numbers.
-/

namespace FirmwareUpgrade

/-- The known ways in which a device deviates from the standard. -/
structure Deviations where
  /-- The reported poll time is meaningless and a fixed one is used instead. -/
  fixedPollTime : Bool
deriving DecidableEq, Repr, Inhabited

namespace Deviations

def none : Deviations where
  fixedPollTime := false

/-- The deviation of a device whose poll time is ignored. -/
def pollTime : Deviations where
  fixedPollTime := true

def union (first second : Deviations) : Deviations where
  fixedPollTime := first.fixedPollTime || second.fixedPollTime

def contains (first second : Deviations) : Bool :=
  !second.fixedPollTime || first.fixedPollTime

def isEmpty (deviations : Deviations) : Bool :=
  !deviations.fixedPollTime

/-- Whether the numbers are those of a device that reports meaningless poll times. -/
def hasFixedPollTime (vendor product release : UInt16) : Bool :=
  ((vendor == 0x1d50 || vendor == 0x1457) && 0x5117 ≤ product && product ≤ 0x5126)
    || (vendor == 0x16c0 && product == 0x076b)
    || (vendor == 0x1eaf && product == 0x0003 && release == 0x0200)
    || (vendor == 0x0908 && (product == 0x02c4 || product == 0x02c5) && release == 0)
    || (vendor == 0x0763 && product == 0x2806)

def lookup (vendor product release : UInt16) : Deviations where
  fixedPollTime := hasFixedPollTime vendor product release

end Deviations

end FirmwareUpgrade
