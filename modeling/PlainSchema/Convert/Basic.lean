import PlainSchema.Discriminator
import PlainSchema.Plan.Build
import PlainSchema.Text.Integer
import PlainSchema.Value.Path

/-!
# Converting messages: casters and errors

A conversion runs strictly, stopping at the first error, or leniently, leaving out every field
that fails.  Fields with a type override are converted by casters, which the caller supplies for
the Plain message and the Plain field.
-/

namespace PlainSchema

/-- Why a message cannot be converted. -/
inductive ConvertError where
  /-- There is no plan for the message type. -/
  | unknownMessage (name : String)
  /-- There is no caster for a field of a Plain message. -/
  | missingCaster (message field : String)
  | castFailed (field reason : String)
  | invalidValue (field : String)
  /-- Serialized bytes hold no message of the expected type. -/
  | malformedPayload (field : String)
  /-- The tag of a oneof selects one member and another one holds values. -/
  | dispatchMismatch (oneof expected found : String)
  /-- A second member of a oneof of an embedded message holds values. -/
  | memberConflict (oneof existing found : String)
  /-- The tag of a oneof selects no member. -/
  | unknownDiscriminator (oneof value : String)
  | unknownEnumValue (field value : String)
  /-- The source message has no field at the path. -/
  | unwritable (field path : String)
  deriving DecidableEq, Repr

/-- The message of a convert error. -/
def ConvertError.message : ConvertError → String
  | unknownMessage name => "no conversion registered for message " ++ name
  | missingCaster message field => "missing caster for " ++ message ++ "." ++ field
  | castFailed field reason => "caster for " ++ field ++ " failed: " ++ reason
  | invalidValue field => "value for " ++ field ++ " does not match the field type"
  | malformedPayload field => "failed to decode payload for " ++ field
  | dispatchMismatch oneof expected found =>
    "oneof " ++ oneof ++ ": discriminator selects " ++ expected ++ " but " ++ found
      ++ " is populated"
  | memberConflict oneof existing found =>
    "oneof " ++ oneof ++ ": " ++ found ++ " conflicts with " ++ existing
      ++ ", which is already set"
  | unknownDiscriminator oneof value => "oneof " ++ oneof ++ ": unknown discriminator " ++ value
  | unknownEnumValue field value => "unknown enum value " ++ value ++ " for " ++ field
  | unwritable field path => "cannot write " ++ field ++ " through path " ++ path

/-! ## Casters -/

/-- Casters by the full name of a Plain message and the name of a Plain field. -/
structure Casters (α : Type) where
  entries : List ((String × String) × α) := []

namespace Casters

variable {α : Type}

/-- The casters with one more, which replaces an earlier one of its field. -/
def insert (casters : Casters α) (message field : String) (caster : α) : Casters α :=
  let key := (dotted message, field)
  ⟨casters.entries.filter (·.1 != key) ++ [(key, caster)]⟩

/-- The caster of a field. -/
def get? (casters : Casters α) (message field : String) : Option α :=
  casters.entries.lookup (dotted message, field)

/-- The number of casters. -/
def size (casters : Casters α) : Nat :=
  casters.entries.length

end Casters

/-- How a conversion treats fields that fail, with the casters it uses. -/
inductive Mode where
  /-- Fields that fail are left out. -/
  | lenient (casters : Casters (Value → Value))
  /-- The first failing field is the error. -/
  | strict (casters : Casters (Value → Except String Value))

namespace Mode

/-- A value cast for a field of a Plain message. -/
def cast (mode : Mode) (message field : String) (value : Value) : Except ConvertError Value :=
  match mode with
  | lenient casters =>
    match casters.get? message field with
    | some f => .ok (f value)
    | none => .error (.missingCaster message field)
  | strict casters =>
    match casters.get? message field with
    | some f =>
      match f value with
      | .ok v => .ok v
      | .error reason => .error (.castFailed field reason)
    | none => .error (.missingCaster message field)

/-- The outcome of a step: where the mode is lenient, a failing step counts with what it left. -/
def settle {α : Type} (mode : Mode) (left : α) (result : Except ConvertError α) :
    Except ConvertError α :=
  match mode, result with
  | lenient _, .error _ => .ok left
  | _, result => result

end Mode

/-! ## Depth -/

mutual

/-- The number of messages nested in a value. -/
def Value.depth : Value → Nat
  | .message m => m.depth
  | .list items => Value.listDepth items
  | .map entries => Value.mapDepth entries
  | _ => 0

/-- The largest depth of the items of a list. -/
def Value.listDepth : List Value → Nat
  | [] => 0
  | v :: vs => max v.depth (Value.listDepth vs)

/-- The largest depth of the values of a map. -/
def Value.mapDepth : List (MapKey × Value) → Nat
  | [] => 0
  | (_, v) :: rest => max v.depth (Value.mapDepth rest)

/-- The number of messages nested in one another, the outermost one included. -/
def Message.depth : Message → Nat
  | ⟨_, fields, _⟩ => Message.fieldsDepth fields + 1

/-- The largest depth of the values of fields. -/
def Message.fieldsDepth : List (Nat × Value) → Nat
  | [] => 0
  | (_, v) :: rest => max v.depth (Message.fieldsDepth rest)

end

/-! ## Values -/

/-- How a message inside a value is converted to a target type. -/
abbrev ConvertNested := String → Message → Except ConvertError Message

/-- A single value converted for a target type. -/
def convertSingle (nested : ConvertNested) (target : FieldType) (value : Value) :
    Except ConvertError Value :=
  match value, target with
  | .message m, .message name _ => do return .message (← nested name m)
  | value, _ => .ok value

/-- The entries of a map with their values converted for a target type. -/
def convertEntries (nested : ConvertNested) (target : FieldType)
    (entries : List (MapKey × Value)) : Except ConvertError (List (MapKey × Value)) :=
  entries.mapM fun (key, value) => do return (key, ← convertSingle nested target value)

/-- A value converted for a target type of a pool.  The target of a map is its entry type. -/
def convertValue (pool : Pool) (nested : ConvertNested) (target : FieldType) (value : Value) :
    Except ConvertError Value :=
  match value with
  | .list items => do return .list (← items.mapM (convertSingle nested target))
  | .map entries =>
    match target.typeName?.bind fun name => (pool.message? name).bind (·.fieldByNumber? 2) with
    | some field => do return .map (← convertEntries nested field.type entries)
    | none => .ok (.map entries)
  | value => convertSingle nested target value

/-- A function applied to a value, or to every item of a list. -/
def eachItem (f : Value → Except ConvertError Value) (value : Value) :
    Except ConvertError Value :=
  match value with
  | .list items => do return .list (← items.mapM f)
  | value => f value

/-- A message with a field written, or the error that the value does not fit. -/
def setField (pool : Pool) (out : Message) (type : MessageType) (field : Field)
    (value : Value) : Except ConvertError Message :=
  match out.set? pool type field value with
  | some out => .ok out
  | none => .error (.invalidValue field.name)

/-- A field of a message type, or the error that there is none. -/
def requireField (type : MessageType) (name : String) : Except ConvertError Field :=
  match type.field? name with
  | some field => .ok field
  | none => .error (.invalidValue name)

/-- The value of a named field, its default when it is not set. -/
def valueNamed? (pool : Pool) (m : Message) (name : String) : Option Value := do
  let type ← m.type? pool
  let field ← type.field? name
  return m.get pool field

/-- Whether a named field counts as set. -/
def hasNamed (pool : Pool) (m : Message) (name : String) : Bool :=
  (((m.type? pool).bind (·.field? name)).map (m.has pool)).getD false

/-- The position of the populated member of a oneof. -/
def populatedMember? (pool : Pool) (m : Message) (oneof : OneofPlan) : Option Nat :=
  oneof.members.findIdx? fun member => hasNamed pool m member.name

end PlainSchema
