import PlainSchema.Json.Basic
import PlainSchema.Decimal.Shortest

/-!
# Writing JSON

`Json.compact` writes no blanks; `Json.pretty` puts every item on a line of its own, indented by
two spaces a level.  Strings escape quotes, backslashes and the controls below the space.
Numbers are written by the fewest digits that read back.
-/

namespace PlainSchema.Json

/-- The exponents at which doubles are written without one. -/
def doubleLayout : Decimal.Layout := ⟨-5, 15⟩

/-- The exponents at which single-precision numbers are written without one. -/
def singleLayout : Decimal.Layout := ⟨-6, 12⟩

/-- A lower-case hexadecimal digit. -/
def hexDigit (n : Nat) : Char :=
  Char.ofNat (if n < 10 then 0x30 + n else 0x57 + n)

/-- A character inside a string. -/
def escapeChar (c : Char) : List Char :=
  match c with
  | '"' => ['\\', '"']
  | '\\' => ['\\', '\\']
  | '\x08' => ['\\', 'b']
  | '\x0c' => ['\\', 'f']
  | '\n' => ['\\', 'n']
  | '\r' => ['\\', 'r']
  | '\t' => ['\\', 't']
  | c =>
    if c.toNat < 0x20 then ['\\', 'u', '0', '0', hexDigit (c.toNat / 16), hexDigit (c.toNat % 16)]
    else [c]

/-- A string between its quotes. -/
def quote (s : String) : String :=
  String.ofList ('"' :: s.toList.flatMap escapeChar ++ ['"'])

/-- A number.  Numbers that are not finite have no text of their own. -/
def printNumber : JsonNumber → String
  | .int n => toString n
  | .double bits =>
    ((Decimal.renderFinite? Decimal.double doubleLayout bits.toNat).map String.ofList).getD "null"
  | .single bits =>
    ((Decimal.renderFinite? Decimal.single singleLayout bits.toNat).map String.ofList).getD "null"

mutual

/-- A value without blanks. -/
def compact : Json → String
  | null => "null"
  | bool b => if b then "true" else "false"
  | number n => printNumber n
  | string s => quote s
  | array items => "[" ++ ",".intercalate (compactItems items) ++ "]"
  | object members => "\x7b" ++ ",".intercalate (compactMembers members) ++ "\x7d"
  | unreadable => "null"

/-- The items of an array without blanks. -/
def compactItems : List Json → List String
  | [] => []
  | item :: items => compact item :: compactItems items

/-- The members of an object without blanks. -/
def compactMembers : List (String × Json) → List String
  | [] => []
  | (name, value) :: members => (quote name ++ ":" ++ compact value) :: compactMembers members

end

/-- A line break and the indentation of a level. -/
def newline (level : Nat) : String :=
  "\n" ++ String.ofList (List.replicate (2 * level) ' ')

/-- Items between brackets, each on a line of its own. -/
def bracket (level : Nat) (opening closing : String) (items : List String) : String :=
  if items.isEmpty then opening ++ closing
  else
    opening ++ newline (level + 1) ++ ("," ++ newline (level + 1)).intercalate items
      ++ newline level ++ closing

mutual

/-- A value at a level of indentation. -/
def prettyAt (level : Nat) : Json → String
  | null => "null"
  | bool b => if b then "true" else "false"
  | number n => printNumber n
  | string s => quote s
  | array items => bracket level "[" "]" (prettyItems (level + 1) items)
  | object members => bracket level "\x7b" "\x7d" (prettyMembers (level + 1) members)
  | unreadable => "null"

/-- The items of an array at a level. -/
def prettyItems (level : Nat) : List Json → List String
  | [] => []
  | item :: items => prettyAt level item :: prettyItems level items

/-- The members of an object at a level. -/
def prettyMembers (level : Nat) : List (String × Json) → List String
  | [] => []
  | (name, value) :: members =>
    (quote name ++ ": " ++ prettyAt level value) :: prettyMembers level members

end

/-- A value with indentation. -/
def pretty (value : Json) : String :=
  prettyAt 0 value

end PlainSchema.Json
