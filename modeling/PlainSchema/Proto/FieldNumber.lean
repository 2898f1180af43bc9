/-!
# Field numbers

Valid numbers lie between 1 and 536870911, outside the range that the implementation keeps for
itself.
-/

namespace PlainSchema.Proto

/-- The largest field number. -/
def maxFieldNumber : Int := 536870911

/-- Whether a number is kept for the implementation. -/
def isReservedNumber (n : Int) : Bool :=
  19000 ≤ n && n ≤ 19999

/-- Whether a number lies between the smallest and the largest field number. -/
def isNumberInRange (n : Int) : Bool :=
  0 < n && n ≤ maxFieldNumber

/-- Whether a field may have the number. -/
def isFieldNumber (n : Int) : Bool :=
  isNumberInRange n && !isReservedNumber n

/-- Whether a number lies in one of the ranges, which do not hold their ends. -/
def isInRanges (ranges : List (Int × Int)) (n : Int) : Bool :=
  ranges.any fun (low, high) => low ≤ n && n < high

end PlainSchema.Proto
