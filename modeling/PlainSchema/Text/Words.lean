import PlainSchema.Text.Alphanumeric
import PlainSchema.Text.LetterCase
import PlainSchema.Text.Split

/-!
# Words of identifiers and their letter cases

An identifier is cut into words at every character that is neither a letter nor a digit, at
every step from a lower-case to an upper-case letter, and before the last of a run of
upper-case letters that a lower-case letter follows.  Digits, and letters without a case, take
the case of the letters before them.  The words are joined again in camel, snake or upper snake
case.
-/

namespace PlainSchema.Text

/-- The case of the letters read so far in a word. -/
inductive LetterCase where
  /-- No letter has been read. -/
  | unknown
  /-- The last letter was lower-case. -/
  | lower
  /-- The last letter was upper-case. -/
  | upper
  deriving DecidableEq, Repr

/-- The case after one more character; one without a case does not change it. -/
def LetterCase.next (case : LetterCase) (c : Char) : LetterCase :=
  if isLowerCase c then .lower else if isUpperCase c then .upper else case

/-- The words of a piece without separators.  `word` holds the characters of the current word,
last one first. -/
def wordsFrom (case : LetterCase) (word : List Char) : List Char → List (List Char)
  | [] => []
  | [c] => [(c :: word).reverse]
  | c :: d :: rest =>
    if case.next c = .lower ∧ isUpperCase d then
      (c :: word).reverse :: wordsFrom .unknown [] (d :: rest)
    else if case = .upper ∧ isUpperCase c ∧ isLowerCase d then
      word.reverse :: wordsFrom .unknown [c] (d :: rest)
    else wordsFrom (case.next c) (c :: word) (d :: rest)

/-- The pieces of letters and digits of an identifier. -/
def alphanumericPieces (s : List Char) : List (List Char) :=
  (splitAll '_' (s.map fun c => if isAlphanumeric c then c else '_')).filter (!·.isEmpty)

/-- The words of an identifier. -/
def words (s : String) : List (List Char) :=
  (alphanumericPieces s.toList).flatMap (wordsFrom .unknown [])

/-- A word in lower case; a sigma at its end has a form of its own. -/
def lowered : List Char → List Char
  | [] => []
  | c :: cs =>
    if c = '\u03A3' ∧ cs.isEmpty then ['\u03C2'] else lowerCase c ++ lowered cs

/-- A word with its first letter in upper case and the others in lower case. -/
def capitalize : List Char → List Char
  | [] => []
  | c :: cs => upperCase c ++ lowered cs

/-- `UpperCamelCase`. -/
def upperCamel (s : String) : String :=
  String.ofList ((words s).flatMap capitalize)

/-- `snake_case`. -/
def snake (s : String) : String :=
  String.ofList (List.intercalate ['_'] ((words s).map lowered))

/-- `SHOUTY_SNAKE_CASE`. -/
def upperSnake (s : String) : String :=
  String.ofList (List.intercalate ['_'] ((words s).map (·.flatMap upperCase)))

/-- A string with its ASCII letters in lower case. -/
def lowerAscii (s : String) : String :=
  s.map Char.toLower

end PlainSchema.Text
