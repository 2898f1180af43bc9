import PlainSchema.Pool.Load
import PlainSchema.Proto.Builtin
import PlainSchema.Value.Path

/-!
# Messages of the built-in schema files

A part is a message that the built-in schema files declare, such as a field of a schema file in
a request.  Its fields are read by name; what is not set reads as its default.
-/

namespace PlainSchema

open Proto

/-- The pool that declares requests and responses. -/
def generatorPool : Pool :=
  (Pool.load [schemaFile, optionsFile, generatorFile]).toOption.getD {}

/-- A message of the built-in schema files that is being read. -/
structure Part where
  pool : Pool
  message : Message

namespace Part

/-- The value of a field that is set. -/
def value? (part : Part) (name : String) : Option Value :=
  (part.message.read? part.pool [name]).map (·.2)

/-- A text, empty when it is not set. -/
def text (part : Part) (name : String) : String :=
  match part.value? name with
  | some (.string s) => s
  | _ => ""

/-- A text that may be missing. -/
def text? (part : Part) (name : String) : Option String :=
  match part.value? name with
  | some (.string s) => some s
  | _ => none

/-- A byte sequence that may be missing. -/
def bytes? (part : Part) (name : String) : Option (List UInt8) :=
  match part.value? name with
  | some (.bytes b) => some b
  | _ => none

/-- The number of a 64-bit integer that is set. -/
def wide? (part : Part) (name : String) : Option Int :=
  match part.value? name with
  | some (.u64 n) => some n.toNat
  | some (.i64 n) => some n.toInt
  | _ => none

/-- The bits of a double that is set. -/
def double? (part : Part) (name : String) : Option UInt64 :=
  match part.value? name with
  | some (.f64 bits) => some bits
  | _ => none

/-- An integer or the number of an enum value, if it is set. -/
def int? (part : Part) (name : String) : Option Int :=
  match part.value? name with
  | some (.i32 n) => some n.toInt
  | some (.enum n) => some n.toInt
  | _ => none

/-- An integer or the number of an enum value, zero when it is not set. -/
def int (part : Part) (name : String) : Int :=
  (part.int? name).getD 0

/-- A flag, false when it is not set. -/
def flag (part : Part) (name : String) : Bool :=
  match part.value? name with
  | some (.bool b) => b
  | _ => false

/-- A message that is set. -/
def part? (part : Part) (name : String) : Option Part :=
  match part.value? name with
  | some (.message message) => some { part with message }
  | _ => none

/-- A message, empty when it is not set. -/
def part (part : Part) (name : String) : Part :=
  (part.part? name).getD { part with message := default }

/-- The items of a list. -/
def items (part : Part) (name : String) : List Value :=
  match part.value? name with
  | some (.list items) => items
  | _ => []

/-- The messages of a list. -/
def parts (part : Part) (name : String) : List Part :=
  (part.items name).filterMap fun item =>
    match item with
    | .message message => some { part with message }
    | _ => none

/-- The texts of a list. -/
def texts (part : Part) (name : String) : List String :=
  (part.items name).filterMap fun item =>
    match item with
    | .string s => some s
    | _ => none

/-- The integers of a list. -/
def ints (part : Part) (name : String) : List Int :=
  (part.items name).filterMap fun item =>
    match item with
    | .i32 n => some n.toInt
    | _ => none

end Part

end PlainSchema
