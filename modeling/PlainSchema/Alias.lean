import PlainSchema.Schema.Basic
import PlainSchema.Text.Quoted

/-!
# Type aliases

A message marked as a type alias that has one scalar field stands for that scalar wherever a
Plain field refers to it.
-/

namespace PlainSchema

open Proto

/-- A message that stands for its only field. -/
structure Alias where
  /-- The full name of the message. -/
  message : String
  /-- The name of the field. -/
  field : String
  kind : Kind
  deriving DecidableEq, Repr, Inhabited

/-- The alias with its scalar, as plans record it. -/
def Alias.describe (a : Alias) : String :=
  a.message ++ "(" ++ a.kind.name ++ ")"

/-- Why a message cannot be an alias. -/
inductive AliasError where
  | mapEntry
  | fieldCount (count : Nat)
  | fieldName (expected found : String)
  | repeatedField
  | notScalar (kind : Kind)
  deriving DecidableEq, Repr

/-- The message of an alias error. -/
def AliasError.message : AliasError → String
  | mapEntry => "type_alias is not allowed on map entries"
  | fieldCount count => "type_alias requires exactly one field, found " ++ toString count
  | fieldName expected found =>
    "type_alias field must be named " ++ Text.quoted expected ++ ", found " ++ Text.quoted found
  | repeatedField => "type_alias field must not be repeated"
  | notScalar kind => "type_alias field must be a scalar, found " ++ kind.name

/-- The alias that a message is by its shape, whatever its options say. -/
def SourceMessage.aliasShape (m : SourceMessage) : Except AliasError Alias :=
  if m.isMapEntry then .error .mapEntry
  else
    match m.fields with
    | [field] =>
      if field.name ≠ m.options.aliasField then
        .error (.fieldName m.options.aliasField field.name)
      else if field.isRepeated then .error .repeatedField
      else if !field.kind.isScalar then .error (.notScalar field.kind)
      else .ok { message := m.fullName, field := field.name, kind := field.kind }
    | fields => .error (.fieldCount fields.length)

/-- The alias that a message is marked as, if its shape allows it. -/
def SourceMessage.alias? (m : SourceMessage) : Option Alias :=
  if m.options.typeAlias then m.aliasShape.toOption else none

namespace Schema

/-- The aliases of a schema. -/
def aliases (schema : Schema) : List Alias :=
  schema.messages.filterMap (·.alias?)

/-- The alias that a full name stands for; of two with one name the last one counts. -/
def alias? (schema : Schema) (name : String) : Option Alias :=
  schema.aliases.reverse.find? (·.message == name)

/-- The number of names that are aliases. -/
def aliasCount (schema : Schema) : Nat :=
  (schema.aliases.map (·.message)).eraseDups.length

end Schema

end PlainSchema
