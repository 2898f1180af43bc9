import PlainSchema.Value.Message

/-!
# Navigating messages by field names

A path is a chain of field names; every name but the last is that of a singular message field.
Reading requires every hop to be set and changes nothing.  Writing creates the messages that
are missing on the way; a path or a value that does not fit is refused before anything is
created.
-/

namespace PlainSchema

open Proto

/-- The field that a path leads to from a message type. -/
def Pool.resolvePath (pool : Pool) : MessageType → List String → Option Field
  | _, [] => none
  | type, [name] => type.field? name
  | type, name :: rest => do
    let field ← type.field? name
    guard field.isSingular
    let child ← pool.messageTypeOf? field
    pool.resolvePath child rest

namespace Message

/-- The type of a message in a pool. -/
def type? (pool : Pool) (m : Message) : Option MessageType :=
  pool.message? m.type

/-- The field at the end of a path with its value, when every hop and the field itself count
as set. -/
def read? (pool : Pool) : Message → List String → Option (Field × Value)
  | _, [] => none
  | m, [name] => do
    let field ← (← m.type? pool).field? name
    let value ← m.get? pool field
    return (field, value)
  | m, name :: rest => do
    let field ← (← m.type? pool).field? name
    guard field.isSingular
    match m.get? pool field with
    | some (.message child) => read? pool child rest
    | _ => none

/-- Whether the messages that a value holds directly are of the type of a field.  The values of
a map are not looked at. -/
def sameType (field : Field) (value : Value) : Bool :=
  match field.type with
  | .message name _ =>
    let fits : Value → Bool
      | .message m => m.type == name
      | _ => true
    match value with
    | .list items => items.all fits
    | .map _ => true
    | value => fits value
  | _ => true

/-- The message with a value written at the end of a path; missing messages are created. -/
def writeIn? (pool : Pool) (value : Value) : Message → List String → Option Message
  | _, [] => none
  | m, [name] => do
    let type ← m.type? pool
    let field ← type.field? name
    m.set? pool type field value
  | m, name :: rest => do
    let type ← m.type? pool
    let field ← type.field? name
    let .message child _ := field.type | none
    let inner ←
      if m.has pool field then
        match m.value? field.number with
        | some (.message inner) => some inner
        | _ => none
      else some { type := child }
    return m.set type field (.message (← writeIn? pool value inner rest))

/-- The message with a value written at the end of a path, unless the path or the value does
not fit. -/
def write? (pool : Pool) (m : Message) (path : List String) (value : Value) :
    Option Message := do
  let field ← pool.resolvePath (← m.type? pool) path
  guard (pool.accepts field value && sameType field value)
  writeIn? pool value m path

/-! ## Typed access -/

end Message

/-- The forms in which a single scalar or enum value is asked for. -/
inductive Form where
  | bool | i32 | i64 | u32 | u64 | f32 | f64 | string | bytes | enum
  deriving DecidableEq, Repr

/-- Whether the fields of a type hold values of a form. -/
def Form.fits : Form → FieldType → Bool
  | .bool, .scalar .bool => true
  | .i32, .scalar .int32 | .i32, .scalar .sint32 | .i32, .scalar .sfixed32 => true
  | .i64, .scalar .int64 | .i64, .scalar .sint64 | .i64, .scalar .sfixed64 => true
  | .u32, .scalar .uint32 | .u32, .scalar .fixed32 => true
  | .u64, .scalar .uint64 | .u64, .scalar .fixed64 => true
  | .f32, .scalar .float => true
  | .f64, .scalar .double => true
  | .string, .scalar .string => true
  | .bytes, .scalar .bytes => true
  | .enum, .enum _ => true
  | _, _ => false

/-- Whether a value has a form. -/
def Form.holds : Form → Value → Bool
  | .bool, .bool _ | .i32, .i32 _ | .i64, .i64 _ | .u32, .u32 _ | .u64, .u64 _ => true
  | .f32, .f32 _ | .f64, .f64 _ | .string, .string _ | .bytes, .bytes _ => true
  | .enum, .enum _ => true
  | _, _ => false

namespace Message

/-- A singular scalar or enum value in a form. -/
def readAs? (pool : Pool) (m : Message) (path : List String) (form : Form) :
    Option Value := do
  let (field, value) ← m.read? pool path
  guard (field.isSingular && form.fits field.type && form.holds value)
  return value

/-- The items of a list field in a form; an empty list reads as nothing. -/
def readList? (pool : Pool) (m : Message) (path : List String) (form : Form) :
    Option (List Value) := do
  let (field, value) ← m.read? pool path
  guard (pool.isList field && form.fits field.type)
  match value with
  | .list items =>
    guard (!items.isEmpty && items.all form.holds)
    return items
  | _ => none

/-- A singular message. -/
def readMessage? (pool : Pool) (m : Message) (path : List String) : Option Message := do
  match ← m.read? pool path with
  | (field, .message inner) => if field.isSingular then some inner else none
  | _ => none

end Message

end PlainSchema
