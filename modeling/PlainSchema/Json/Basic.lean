/-!
# JSON values

Objects keep their members in order, repeated names included.  A value that is well formed but
stands for nothing, such as a string with half a surrogate pair, is `unreadable`: it may be
skipped but not used.
-/

namespace PlainSchema

/-- A number of a JSON text. -/
inductive JsonNumber where
  /-- An integer without point and exponent. -/
  | int (n : Int)
  /-- A double-precision number by its bits. -/
  | double (bits : UInt64)
  /-- A single-precision number by its bits. -/
  | single (bits : UInt32)
  deriving DecidableEq, Repr, Inhabited

/-- A JSON value. -/
inductive Json where
  | null
  | bool (b : Bool)
  | number (n : JsonNumber)
  | string (s : String)
  | array (items : List Json)
  | object (members : List (String × Json))
  /-- A string with an unpaired surrogate, an object with a member of such a name, or a number
  beyond all doubles. -/
  | unreadable
  deriving Repr, Inhabited

namespace Json

/-- An integer. -/
def int (n : Int) : Json :=
  .number (.int n)

/-- An array of strings. -/
def strings (items : List String) : Json :=
  .array (items.map .string)

/-- A string, or null when there is none. -/
def optString (s : Option String) : Json :=
  (s.map Json.string).getD .null

/-- A natural number, or null when there is none. -/
def optNat (n : Option Nat) : Json :=
  (n.map fun n => Json.int n).getD .null

end Json

end PlainSchema
