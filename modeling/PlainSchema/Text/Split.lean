/-!
# Cutting texts at separators

Texts are lists of characters here.  `splitAll` cuts at every separator and never
returns an empty list; `cutFirst?` and `cutLast?` cut once and say whether there was
a separator at all; `trim` drops a class of characters at both ends.
-/

namespace PlainSchema.Text

/-- The pieces between the separators, empty ones included. -/
def splitAll (sep : Char) : List Char → List (List Char)
  | [] => [[]]
  | c :: cs =>
    if c = sep then [] :: splitAll sep cs
    else
      match splitAll sep cs with
      | [] => [[c]]
      | piece :: pieces => (c :: piece) :: pieces

/-- The texts before and after the first separator. -/
def cutFirst? (sep : Char) : List Char → Option (List Char × List Char)
  | [] => none
  | c :: cs =>
    if c = sep then some ([], cs)
    else (cutFirst? sep cs).map fun (before, after) => (c :: before, after)

/-- The texts before and after the last separator. -/
def cutLast? (sep : Char) : List Char → Option (List Char × List Char)
  | [] => none
  | c :: cs =>
    match cutLast? sep cs with
    | some (before, after) => some (c :: before, after)
    | none => if c = sep then some ([], cs) else none

/-- A text without the characters of a class at its two ends. -/
def trim (drops : Char → Bool) (s : List Char) : List Char :=
  ((s.dropWhile drops).reverse.dropWhile drops).reverse

/-! ## The same on strings -/

/-- The pieces of a string between the separators. -/
def split (s : String) (sep : Char) : List String :=
  (splitAll sep s.toList).map String.ofList

/-- A string cut at its first separator. -/
def splitOnce? (s : String) (sep : Char) : Option (String × String) :=
  (cutFirst? sep s.toList).map fun (a, b) => (String.ofList a, String.ofList b)

/-- A string cut at its last separator. -/
def splitLast? (s : String) (sep : Char) : Option (String × String) :=
  (cutLast? sep s.toList).map fun (a, b) => (String.ofList a, String.ofList b)

/-- A string without the given character at its front. -/
def trimFront (s : String) (c : Char) : String :=
  String.ofList (s.toList.dropWhile (· == c))

/-- A string without the given character at both ends. -/
def trimChar (s : String) (c : Char) : String :=
  String.ofList (trim (· == c) s.toList)

/-! ## Laws -/

theorem splitAll_ne_nil (sep : Char) (s : List Char) : splitAll sep s ≠ [] := by
  cases s with
  | nil => simp [splitAll]
  | cons c cs =>
    rw [splitAll]
    split
    · simp
    · split <;> simp

/-- Joining the pieces with the separator gives the text back. -/
theorem intercalate_splitAll (sep : Char) (s : List Char) :
    List.intercalate [sep] (splitAll sep s) = s := by
  induction s with
  | nil => simp [splitAll]
  | cons c cs ih =>
    rw [splitAll]
    split
    · next h =>
      cases hp : splitAll sep cs with
      | nil => exact absurd hp (splitAll_ne_nil sep cs)
      | cons p ps => rw [hp] at ih; simp [List.intercalate, h] at ih ⊢; exact ih
    · cases hp : splitAll sep cs with
      | nil => exact absurd hp (splitAll_ne_nil sep cs)
      | cons p ps =>
        rw [hp] at ih
        cases ps <;> simp [List.intercalate] at ih ⊢ <;> exact ih

end PlainSchema.Text
