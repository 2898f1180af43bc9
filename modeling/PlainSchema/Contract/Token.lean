import PlainSchema.Text.Blank
import PlainSchema.Text.Letters

/-!
# Tokens of type expressions

The types in a contract are written as texts.  `tokens?` takes such a text apart into words,
lifetimes, literals and marks; blanks and comments stand between tokens and are dropped.
-/

namespace PlainSchema.Contract

open Text

/-! ## Identifiers -/

/-- The words that are not identifiers. -/
def keywords : List String :=
  ["abstract", "as", "async", "await", "become", "box", "break", "const", "continue", "crate",
    "do", "dyn", "else", "enum", "extern", "false", "final", "fn", "for", "if", "impl", "in",
    "let", "loop", "macro", "match", "mod", "move", "mut", "override", "priv", "pub", "ref",
    "return", "Self", "self", "static", "struct", "super", "trait", "true", "try", "type",
    "typeof", "unsafe", "unsized", "use", "virtual", "where", "while", "yield"]

/-- Whether a text is a word: letters, digits, underscores and marks, no digit first. -/
def isWord (s : String) : Bool :=
  match s.toList with
  | [] => false
  | c :: cs => isLetter c && cs.all isLetterOrMark

/-- Whether a word is an identifier. -/
def isName (word : String) : Bool :=
  word != "_" && !keywords.contains word

/-- Whether a text is an identifier. -/
def isIdentifier (s : String) : Bool :=
  isWord s && isName s

/-! ## Tokens -/

/-- The smallest parts of a type expression. -/
inductive Token where
  /-- A word.  One that begins with `r#` is an identifier even if the rest is a keyword. -/
  | word (s : String)
  /-- The name of a lifetime, with its apostrophe. -/
  | life (s : String)
  /-- A number with its suffix. -/
  | number (s : String)
  /-- A character or a text in quotes, with its suffix. -/
  | quote (s : String) (isText : Bool)
  /-- A mark, and whether another mark that is no bracket follows directly. -/
  | mark (c : Char) (joint : Bool)
  deriving DecidableEq, Repr

/-! ## Blanks and comments -/

/-- Whether a character may stand between tokens. -/
def isSpacing (c : Char) : Bool :=
  isBlank c || c == '\u200e' || c == '\u200f'

/-- What follows a comment in brackets, whose level of nesting is given. -/
def afterComment? : Nat → List Char → Option (List Char)
  | 0, cs => some cs
  | _ + 1, [] => none
  | level + 1, '/' :: '*' :: cs => afterComment? (level + 2) cs
  | level + 1, '*' :: '/' :: cs => afterComment? level cs
  | level + 1, _ :: cs => afterComment? (level + 1) cs

/-- Whether what follows two slashes makes a comment that documents something. -/
def isLineDoc : List Char → Bool
  | '!' :: _ => true
  | '/' :: '/' :: _ => false
  | '/' :: _ => true
  | _ => false

/-- Whether what follows a slash and a star makes a comment that documents something. -/
def isBlockDoc : List Char → Bool
  | '!' :: _ => true
  | '*' :: '*' :: _ | '*' :: '/' :: _ => false
  | '*' :: _ => true
  | _ => false

/-! ## Numbers -/

/-- Whether a character is a decimal digit or separates digits. -/
def isDigitOrGap (c : Char) : Bool :=
  c.isDigit || c == '_'

/-- The value of a hexadecimal digit. -/
def digitValue? (c : Char) : Option Nat :=
  if c.isDigit then some (c.toNat - '0'.toNat)
  else if 'a' ≤ c ∧ c ≤ 'f' then some (c.toNat - 'a'.toNat + 10)
  else if 'A' ≤ c ∧ c ≤ 'F' then some (c.toNat - 'A'.toNat + 10)
  else none

/-- The digits of an integer in the given base and what follows them. -/
def readDigits (base : Nat) (cs : List Char) : Option (List Char × List Char) := do
  let (digits, rest) := cs.span fun c => isDigitOrGap c || base == 16 && (digitValue? c).isSome
  let values := digits.filterMap digitValue?
  guard (!values.isEmpty && values.all (· < base))
  some (digits, rest)

/-- An integer and what follows it. -/
def readInteger : List Char → Option (List Char × List Char)
  | '0' :: 'x' :: cs => (readDigits 16 cs).map fun (ds, rest) => ('0' :: 'x' :: ds, rest)
  | '0' :: 'o' :: cs => (readDigits 8 cs).map fun (ds, rest) => ('0' :: 'o' :: ds, rest)
  | '0' :: 'b' :: cs => (readDigits 2 cs).map fun (ds, rest) => ('0' :: 'b' :: ds, rest)
  | cs => readDigits 10 cs

/-- The digits of an exponent with their sign, and what follows them.  A sign stands in front of
the first digit. -/
def readExponent (cs : List Char) : Option (List Char × List Char) := do
  let (leading, rest) := cs.span isDigitOrGap
  if leading.any Char.isDigit then some (leading, rest)
  else match rest with
    | sign :: rest =>
      guard (sign == '+' || sign == '-')
      let (digits, rest) := rest.span isDigitOrGap
      guard (digits.any Char.isDigit)
      some (leading ++ sign :: digits, rest)
    | [] => none

/-- A number with an exponent, given what precedes the exponent. -/
def withExponent? (front : List Char) : List Char → Option (List Char × List Char)
  | 'e' :: cs => (readExponent cs).map fun (ds, rest) => (front ++ 'e' :: ds, rest)
  | 'E' :: cs => (readExponent cs).map fun (ds, rest) => (front ++ 'E' :: ds, rest)
  | _ => none

/-- A number with a point or an exponent and what follows it.  A point in front of another point
or of a letter is not part of a number. -/
def readFraction (cs : List Char) : Option (List Char × List Char) :=
  let (whole, rest) := cs.span isDigitOrGap
  match rest with
  | '.' :: rest =>
    if rest.head?.any fun c => c == '.' || isLetter c then none
    else
      let (places, rest) := rest.span isDigitOrGap
      let front := whole ++ '.' :: places
      some ((withExponent? front rest).getD (front, rest))
  | rest => withExponent? whole rest

/-- The letters that follow a literal directly, and what follows them. -/
def readSuffix (cs : List Char) : List Char × List Char :=
  if cs.head?.any isLetter then cs.span isLetterOrMark else ([], cs)

/-- A number with its suffix and what follows it. -/
def readNumber (cs : List Char) : Option (Token × List Char) := do
  let (digits, rest) ← readFraction cs <|> readInteger cs
  let (suffix, rest) := readSuffix rest
  guard !(rest.head?.any isLetterOrMark)
  some (.number (String.ofList (digits ++ suffix)), rest)

/-! ## Quotes -/

/-- Whether a character may follow a backslash. -/
def isEscape (c : Char) : Bool :=
  ['n', 'r', 't', '\\', '0', '\'', '"', 'x', 'u'].contains c

/-- The rest of a text with its closing quote, and what follows it. -/
def readText : List Char → Option (List Char × List Char)
  | [] => none
  | '"' :: cs => some (['"'], cs)
  | '\\' :: c :: cs =>
    if isEscape c || c == '\n' then (readText cs).map fun (s, rest) => ('\\' :: c :: s, rest)
    else none
  | c :: cs => (readText cs).map fun (s, rest) => (c :: s, rest)

/-- A character with its closing quote, and what follows it. -/
def readCharacter : List Char → Option (List Char × List Char)
  | '\\' :: c :: '\'' :: cs =>
    if isEscape c && c != 'x' && c != 'u' then some (['\\', c, '\''], cs) else none
  | '\\' :: _ => none
  | c :: '\'' :: cs => some ([c, '\''], cs)
  | _ => none

/-- A literal in quotes with its suffix. -/
def quoteToken (isText : Bool) (literal : List Char) (cs : List Char) : Token × List Char :=
  let (suffix, rest) := readSuffix cs
  (.quote (String.ofList (literal ++ suffix)) isText, rest)

/-! ## Words and marks -/

/-- A word and what follows it. -/
def readWord (cs : List Char) : Option (List Char × List Char) :=
  if cs.head?.any isLetter then some (cs.span isLetterOrMark) else none

/-- A word that may have the mark of an identifier in front, and what follows it. -/
def readIdentifier : List Char → Option (List Char × List Char)
  | 'r' :: '#' :: cs => do
    let (word, rest) ← readWord cs
    guard !(["_", "super", "self", "Self", "crate"].contains (String.ofList word))
    some ('r' :: '#' :: word, rest)
  | cs => readWord cs

/-- The marks that are no brackets. -/
def isMark (c : Char) : Bool :=
  "~!@#$%^&*-=+|;:,<.>/?'".contains c

/-- Whether a text begins with a mark.  The slash of a comment is none. -/
def startsWithMark : List Char → Bool
  | '/' :: '/' :: _ | '/' :: '*' :: _ => false
  | c :: _ => isMark c
  | [] => false

/-- A mark or a bracket and what follows it. -/
def readMark : List Char → Option (Token × List Char)
  | '/' :: '/' :: _ | '/' :: '*' :: _ | [] => none
  | c :: cs =>
    if ['(', ')', '[', ']', '\x7b', '\x7d'].contains c then some (.mark c false, cs)
    else if isMark c then some (.mark c (startsWithMark cs), cs)
    else none

/-- A lifetime and what follows it.  A quote behind its name would make it a character. -/
def readLife (cs : List Char) : Option (Token × List Char) := do
  let (name, rest) ← readIdentifier cs
  guard (rest.head? != some '\'')
  some (.life (String.ofList ('\'' :: name)), rest)

/-- The token at the beginning of a text that begins with no blank, and what follows it. -/
def readToken : List Char → Option (Token × List Char)
  | '"' :: cs => (readText cs).map fun (s, rest) => quoteToken true ('"' :: s) rest
  | '\'' :: cs =>
    match readCharacter cs with
    | some (s, rest) => some (quoteToken false ('\'' :: s) rest)
    | none => readLife cs
  | c :: cs =>
    if c.isDigit then readNumber (c :: cs)
    else if isLetter c then
      (readIdentifier (c :: cs)).map fun (s, rest) => (.word (String.ofList s), rest)
    else readMark (c :: cs)
  | [] => none

/-- The tokens of a text, with a bound on the number of tokens and comments. -/
def tokensFrom : Nat → List Char → Option (List Token)
  | 0, _ => none
  | steps + 1, cs =>
    match cs.dropWhile isSpacing with
    | [] => some []
    | '/' :: '/' :: rest =>
      if isLineDoc rest then none else tokensFrom steps (rest.dropWhile (· != '\n'))
    | '/' :: '*' :: rest =>
      if isBlockDoc rest then none
      else (afterComment? 1 rest).bind (tokensFrom steps)
    | cs => do
      let (token, rest) ← readToken cs
      let tokens ← tokensFrom steps rest
      some (token :: tokens)

/-- The tokens of a text, which may begin with a byte order mark. -/
def tokens? (s : String) : Option (List Token) :=
  let cs := s.toList
  let cs := if cs.head? = some '\ufeff' then cs.tail else cs
  tokensFrom (cs.length + 1) cs

end PlainSchema.Contract
