/-!
# Sets of characters as ranges

A set of code points is given by the ranges it consists of.  A range has a step of one, or of
two where letters of both cases alternate.
-/

namespace PlainSchema.Text

/-- Whether a number lies in one of the ranges, which hold both their ends. -/
def inRanges (ranges : List (Nat × Nat)) (n : Nat) : Bool :=
  ranges.any fun (low, high) => low ≤ n && n ≤ high

/-- Whether a number lies on the steps of a range from a lower to an upper end. -/
def onSteps (low high step n : Nat) : Bool :=
  low ≤ n && n ≤ high && (n - low) % step == 0

/-- Whether a number lies on the steps of one of the ranges. -/
def inStepRanges (ranges : List (Nat × Nat × Nat)) (n : Nat) : Bool :=
  ranges.any fun (low, high, step) => onSteps low high step n

end PlainSchema.Text
