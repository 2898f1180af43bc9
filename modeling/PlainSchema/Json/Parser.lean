import PlainSchema.Json.Basic
import PlainSchema.Decimal.Reading

/-!
# Reading JSON

A strict reader: no trailing commas, comments, leading zeros or raw controls in strings.  An
integer that fits 64 bits is read exactly, every other number as a double.  Each step returns
the rest of the text; the fuel of a run is the length of the text, which no reading uses up.
-/

namespace PlainSchema.Json

open Decimal

/-- The text behind its leading blanks. -/
def skipBlanks (s : List Char) : List Char :=
  s.dropWhile fun c => c = ' ' ∨ c = '\n' ∨ c = '\t' ∨ c = '\r'

/-- The value of a hexadecimal digit. -/
def hexValue? (c : Char) : Option Nat :=
  if '0' ≤ c ∧ c ≤ '9' then some (c.toNat - 0x30)
  else if 'a' ≤ c ∧ c ≤ 'f' then some (c.toNat - 0x57)
  else if 'A' ≤ c ∧ c ≤ 'F' then some (c.toNat - 0x37)
  else none

/-- The code unit of four hexadecimal digits. -/
def codeUnit? (a b c d : Char) : Option Nat :=
  [a, b, c, d].foldlM (fun n digit => (hexValue? digit).map (16 * n + ·)) 0

/-- The character of an escape letter. -/
def simpleEscape? : Char → Option Char
  | '"' => some '"'
  | '\\' => some '\\'
  | '/' => some '/'
  | 'b' => some '\x08'
  | 'f' => some '\x0c'
  | 'n' => some '\n'
  | 'r' => some '\r'
  | 't' => some '\t'
  | _ => none

/-- The characters of a string behind its opening quote, and the rest behind its closing quote.
Half a surrogate pair is an empty item. -/
def scanString : List Char → Option (List (Option Char) × List Char)
  | [] => none
  | '"' :: rest => some ([], rest)
  | '\\' :: 'u' :: a :: b :: c :: d :: rest =>
    match codeUnit? a b c d with
    | none => none
    | some unit =>
      if 0xD800 ≤ unit ∧ unit < 0xDC00 then
        match rest with
        | '\\' :: 'u' :: a' :: b' :: c' :: d' :: rest' =>
          match codeUnit? a' b' c' d' with
          | none => none
          | some low =>
            if 0xDC00 ≤ low ∧ low < 0xE000 then
              let char := Char.ofNat (0x10000 + (unit - 0xD800) * 0x400 + (low - 0xDC00))
              (scanString rest').map fun (cs, tail) => (some char :: cs, tail)
            else (scanString rest').map fun (cs, tail) => (none :: cs, tail)
        | rest => (scanString rest).map fun (cs, tail) => (none :: cs, tail)
      else if 0xDC00 ≤ unit ∧ unit < 0xE000 then
        (scanString rest).map fun (cs, tail) => (none :: cs, tail)
      else (scanString rest).map fun (cs, tail) => (some (Char.ofNat unit) :: cs, tail)
  | '\\' :: c :: rest =>
    match simpleEscape? c with
    | none => none
    | some char => (scanString rest).map fun (cs, tail) => (some char :: cs, tail)
  | c :: rest =>
    if c = '\\' ∨ c.toNat < 0x20 then none
    else (scanString rest).map fun (cs, tail) => (some c :: cs, tail)

/-- A string behind its opening quote, unless an item of it is empty. -/
def readString (s : List Char) : Option (Option String × List Char) :=
  (scanString s).map fun (cs, rest) => ((cs.mapM id).map String.ofList, rest)

/-- The number without a fraction and an exponent that a sign and digits stand for. -/
def integerNumber (negative : Bool) (digits : List Char) : Json :=
  let n := digitsValue 0 digits
  let asDouble : Json :=
    match readScaled? negative ⟨digits, [], 0⟩ with
    | some bits => .number (.double bits.toUInt64)
    | none => .unreadable
  if negative then
    if n = 0 ∨ Nat.pow 2 63 < n then asDouble else .int (-n)
  else if n < Nat.pow 2 64 then .int n
  else asDouble

/-- A number behind its sign, and the rest. -/
def readNumber (negative : Bool) (s : List Char) : Option (Json × List Char) := do
  let (whole, rest) := takeDigits s
  guard (!whole.isEmpty && (whole.length = 1 || whole.head? ≠ some '0'))
  let (point, fraction, rest) : Bool × List Char × List Char :=
    match rest with
    | '.' :: rest => let (digits, rest) := takeDigits rest; (true, digits, rest)
    | rest => (false, [], rest)
  guard (!point || !fraction.isEmpty)
  let hasExponent := rest.head? = some 'e' ∨ rest.head? = some 'E'
  let (exponent, rest) ← takeExponent? rest
  if point ∨ hasExponent then
    match readScaled? negative ⟨whole, fraction, exponent⟩ with
    | some bits => return (.number (.double bits.toUInt64), rest)
    | none => return (.unreadable, rest)
  else return (integerNumber negative whole, rest)

/-- The object of some members; an object with an unreadable name is unreadable. -/
def ofMembers (members : List (Option String × Json)) : Json :=
  let readable := members.mapM fun member => member.1.map fun name => (name, member.2)
  (readable.map Json.object).getD .unreadable

mutual

/-- A value at the front of a text, and the rest. -/
def readValue : Nat → List Char → Option (Json × List Char)
  | 0, _ => none
  | fuel + 1, s =>
    match skipBlanks s with
    | 'n' :: 'u' :: 'l' :: 'l' :: rest => some (.null, rest)
    | 't' :: 'r' :: 'u' :: 'e' :: rest => some (.bool true, rest)
    | 'f' :: 'a' :: 'l' :: 's' :: 'e' :: rest => some (.bool false, rest)
    | '"' :: rest =>
      (readString rest).map fun (text, rest) => ((text.map Json.string).getD .unreadable, rest)
    | '-' :: rest => readNumber true rest
    | '[' :: rest =>
      match skipBlanks rest with
      | ']' :: rest => some (.array [], rest)
      | rest => (readItems fuel rest).map fun (items, rest) => (.array items, rest)
    | '\x7b' :: rest =>
      match skipBlanks rest with
      | '\x7d' :: rest => some (.object [], rest)
      | rest => (readMembers fuel rest).map fun (members, rest) => (ofMembers members, rest)
    | rest => readNumber false rest

/-- The items of an array up to its closing bracket, and the rest. -/
def readItems : Nat → List Char → Option (List Json × List Char)
  | 0, _ => none
  | fuel + 1, s => do
    let (item, rest) ← readValue fuel s
    match skipBlanks rest with
    | ']' :: rest => return ([item], rest)
    | ',' :: rest =>
      let (items, rest) ← readItems fuel rest
      return (item :: items, rest)
    | _ => none

/-- The members of an object up to its closing brace, and the rest. -/
def readMembers : Nat → List Char → Option (List (Option String × Json) × List Char)
  | 0, _ => none
  | fuel + 1, s => do
    let '"' :: rest := skipBlanks s | none
    let (name, rest) ← readString rest
    let ':' :: rest := skipBlanks rest | none
    let (value, rest) ← readValue fuel rest
    match skipBlanks rest with
    | '\x7d' :: rest => return ([(name, value)], rest)
    | ',' :: rest =>
      let (members, rest) ← readMembers fuel rest
      return ((name, value) :: members, rest)
    | _ => none

end

/-- The value that a whole text is. -/
def parse (text : String) : Option Json := do
  let (value, rest) ← readValue (text.length + 1) text.toList
  guard (skipBlanks rest).isEmpty
  return value

end PlainSchema.Json
