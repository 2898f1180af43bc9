/-!
# Decimal integers

An integer text is a run of digits with an optional sign; blanks and empty texts are refused.
-/

namespace PlainSchema.Text

/-- The number of a non-empty run of digits. -/
def natural? (s : List Char) : Option Nat :=
  if s.isEmpty || !s.all Char.isDigit then none
  else some (s.foldl (fun n c => 10 * n + (c.toNat - '0'.toNat)) 0)

/-- The integer of a text between two bounds.  A minus sign is read only where the lower bound
is negative. -/
def integer? (low high : Int) (s : String) : Option Int := do
  let n : Int ←
    match s.toList with
    | '-' :: digits => if low < 0 then (natural? digits).map fun n => -(n : Int) else none
    | '+' :: digits => (natural? digits).map Int.ofNat
    | digits => (natural? digits).map Int.ofNat
  guard (low ≤ n && n ≤ high)
  return n

end PlainSchema.Text
