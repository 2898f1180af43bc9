import PlainSchema.Convert.ToPlain
import PlainSchema.Convert.ToSource
import PlainSchema.Derive
import PlainSchema.Pool.Load

/-!
# Converting between source messages and Plain messages

A converter holds the linked types of both sides and the plan between them.  `toPlain` and
`toSource` stop at the first error; `toPlain?` and `toSource?` leave out every field that fails
and give nothing only for a message that has no plan.

A message inside a message is converted by its own plan when it has one, and is otherwise moved
to the other side field by field.  Messages found in a value are less deep than the value itself,
unless a caster made them; `levels` leaves room for casters that make messages inside of messages
that casters made.
-/

namespace PlainSchema

/-- The types and the plan of a schema and its Plain schema. -/
structure Converter where
  /-- The types of the source schema. -/
  source : Pool
  /-- The types of the Plain schema. -/
  plain : Pool
  plan : SchemaPlan
  deriving Repr, Inhabited

/-- Which way a message is converted. -/
inductive Direction where
  | toPlain
  | toSource
  deriving DecidableEq, Repr, Inhabited

namespace Converter

/-- The converter of a linked schema with its plan, unless the derived Plain schema cannot be
linked. -/
def ofPool (source : Pool) (plan : SchemaPlan) : Except PoolError Converter := do
  return { source, plan, plain := ← Pool.load (plan.derive source.files) }

/-- The types that a conversion leads to. -/
def target (c : Converter) : Direction → Pool
  | .toPlain => c.plain
  | .toSource => c.source

/-- The plan by which a message of a type is converted. -/
def planFor? (c : Converter) (type : String) : Direction → Option MessagePlan
  | .toPlain => (c.plan.message? (dotted type)).filter (·.generate)
  | .toSource => c.plan.messageByNewName? (dotted type)

/-- A type that a plan names. -/
def requireType (pool : Pool) (name : String) : Except ConvertError MessageType :=
  match pool.message? (Text.trimFront name '.') with
  | some type => .ok type
  | none => .error (.unknownMessage name)

/-- A message converted by its plan. -/
def byPlan (c : Converter) (mode : Mode) (nested : ConvertNested) (pool : Pool)
    (m : Message) (plan : MessagePlan) : Direction → Except ConvertError Message
  | .toPlain => do
    let type ← requireType c.plain plan.newFullName
    Flattening.run { pool, plain := c.plain, mode, nested, plan, type, source := m }
  | .toSource => do
    let type ← requireType c.source plan.fullName
    Restoring.run { pool, source := c.source, mode, nested, plan, type, plain := m }

/-- A message moved to a type of another pool, field by field number.  Fields that the type does
not have are left out, and so are unknown fields. -/
def transcode (pool target : Pool) (nested : ConvertNested) (type : String) (m : Message) :
    Except ConvertError Message := do
  let before ← ((m.type? pool).map .ok).getD (.error (.unknownMessage (dotted m.type)))
  let after ← requireType target type
  (m.setFields pool before).foldlM (fun out (field, value) =>
      match after.fieldByNumber? field.number with
      | none => .ok out
      | some field => do
        setField target out after field (← convertValue target nested field.type value))
    { type := after.fullName }

/-- A message inside a value converted to a type: by its plan when it has one, and else field by
field. -/
def convertMessage (c : Converter) (mode : Mode) (direction : Direction) (pool : Pool)
    (nested : ConvertNested) : ConvertNested := fun type m =>
  match c.planFor? m.type direction with
  | some plan => c.byPlan mode nested pool m plan direction
  | none => transcode pool (c.target direction) nested type m

/-- A message inside a value converted to a type, if it has no more levels than are left.  A deeper
one, which only a caster makes, is converted by `beyond`. -/
def convertWithin (c : Converter) (mode : Mode) (direction : Direction) (pool : Pool)
    (beyond : ConvertNested) : Nat → ConvertNested
  | 0, type, m => beyond type m
  | levels + 1, type, m =>
    if levels + 1 < m.depth then beyond type m
    else
      c.convertMessage mode direction pool (c.convertWithin mode direction pool beyond levels) type m

/-- A message inside a value converted to a type, with a number of messages left that are deeper
than the message around them. -/
def convertNested (c : Converter) (mode : Mode) (direction : Direction) (pool : Pool) :
    Nat → ConvertNested
  | 0, _, m => .error (.unknownMessage (dotted m.type))
  | deeper + 1, type, m =>
    c.convertWithin mode direction pool (c.convertNested mode direction pool deeper) m.depth type m

/-- How many messages may lie in one another each of which is deeper than the one around it.  Only
casters make such messages, so the number is the same for every message. -/
def levels (_ : Message) : Nat :=
  Wire.nestingLimit

/-- A message of the types of `pool` converted by its plan. -/
def convert (c : Converter) (mode : Mode) (direction : Direction) (pool : Pool) (m : Message) :
    Except ConvertError Message :=
  match c.planFor? m.type direction with
  | some plan =>
    c.byPlan mode (c.convertNested mode direction pool (levels m)) pool m plan direction
  | none => .error (.unknownMessage (dotted m.type))

/-! ## Strict and lenient conversions -/

/-- The Plain message of a message, or the first error. -/
def toPlain (c : Converter) (casters : Casters (Value → Except String Value)) (pool : Pool)
    (m : Message) : Except ConvertError Message :=
  c.convert (.strict casters) .toPlain pool m

/-- The source message of a message, or the first error. -/
def toSource (c : Converter) (casters : Casters (Value → Except String Value)) (pool : Pool)
    (m : Message) : Except ConvertError Message :=
  c.convert (.strict casters) .toSource pool m

/-- The Plain message of a message, without the fields that cannot be converted. -/
def toPlain? (c : Converter) (casters : Casters (Value → Value)) (pool : Pool) (m : Message) :
    Option Message :=
  (c.convert (.lenient casters) .toPlain pool m).toOption

/-- The source message of a message, without the fields that cannot be converted. -/
def toSource? (c : Converter) (casters : Casters (Value → Value)) (pool : Pool) (m : Message) :
    Option Message :=
  (c.convert (.lenient casters) .toSource pool m).toOption

end Converter

end PlainSchema
