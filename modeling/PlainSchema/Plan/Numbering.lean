import PlainSchema.Plan.Basic
import PlainSchema.Proto.FieldNumber

/-!
# Field numbers of Plain messages

Fields that have a number keep it.  The others take the numbers above the highest one in use, in
order, leaving out the reserved range.  `numberProblems` says what is wrong with the result.
-/

namespace PlainSchema

open Proto

/-- The number after a number.  Numbers are 32 bits wide and wrap around. -/
def succNumber (n : Int) : Int :=
  (n + 1).bmod 4294967296

/-- The positive numbers of plans. -/
def usedNumbers (plans : List FieldPlan) : List Int :=
  (plans.map (·.shape.number)).filter (0 < ·)

/-- The highest number in use, zero when there is none. -/
def highestNumber (plans : List FieldPlan) : Int :=
  (usedNumbers plans).foldl max 0

/-- The first number from `n` on that is neither used nor reserved, among a count of numbers.  If
there is none, it is the one above all that are used. -/
def freeNumberAmong (used : List Int) : Nat → Int → Int
  | 0, _ => used.foldl max 0 + 1
  | count + 1, n =>
    if used.contains n || isReservedNumber n then freeNumberAmong used count (succNumber n) else n

/-- The first number from `n` on that is neither used nor reserved.  There is one among as many
numbers as are used or reserved and one more, unless all numbers of 32 bits are. -/
def freeNumber (used : List Int) (n : Int) : Int :=
  freeNumberAmong used (used.length + 1001) n

/-- Plans with free numbers from `next` on in place of zeros. -/
def assignFrom (used : List Int) : Int → List FieldPlan → List FieldPlan
  | _, [] => []
  | next, plan :: plans =>
    if plan.shape.number = 0 then
      let number := freeNumber used next
      { plan with shape := { plan.shape with number } }
        :: assignFrom (number :: used) (succNumber number) plans
    else plan :: assignFrom used next plans

/-- Plans with a number for every field. -/
def assignNumbers (plans : List FieldPlan) : List FieldPlan :=
  assignFrom (usedNumbers plans) (succNumber (highestNumber plans)) plans

/-- What is wrong with the number of a field, given the earlier fields with their numbers, last
one first. -/
def numberProblem? (earlier : List (Int × String)) (name : String) (n : Int) : Option String :=
  let subject := name ++ ": number " ++ toString n
  if !isNumberInRange n then some (subject ++ " is out of range")
  else if isReservedNumber n then some (subject ++ " falls in the reserved range 19000-19999")
  else (earlier.lookup n).map fun other => subject ++ " is already used by " ++ other

/-- What is wrong with the numbers of plans, given the earlier fields with their numbers. -/
def numberProblemsFrom (earlier : List (Int × String)) : List FieldPlan → List String
  | [] => []
  | plan :: plans =>
    let name := plan.shape.name
    let n := plan.shape.number
    (numberProblem? earlier name n).toList ++ numberProblemsFrom ((n, name) :: earlier) plans

/-- Every number that is out of range, reserved or used by an earlier field. -/
def numberProblems (plans : List FieldPlan) : List String :=
  numberProblemsFrom [] plans

end PlainSchema
