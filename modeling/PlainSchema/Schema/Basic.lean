import PlainSchema.Pool.Types
import PlainSchema.Text.Split

/-!
# Source schemas

The messages, fields, oneofs and enums from which Plain messages are derived, with their
options.  A schema is either the view of a linked pool, `Schema.ofPool`, or assembled from
parts.  Full names carry a leading dot; where two messages have one name, the last one counts.
-/

namespace PlainSchema

open Proto

/-- A field of a source message. -/
structure SourceField where
  name : String
  number : Int
  kind : Kind
  cardinality : Cardinality := .singular
  /-- The full name of the message or enum type. -/
  typeRef : Option String := none
  /-- The position of the containing oneof. -/
  oneofIndex : Option Nat := none
  proto3Optional : Bool := false
  isMap : Bool := false
  options : FieldOptions := {}
  deriving DecidableEq, Repr, Inhabited

/-- A oneof of a source message. -/
structure SourceOneof where
  name : String
  /-- The names of the members in the order of declaration. -/
  members : List String := []
  /-- Whether the oneof only backs a proto3 `optional` field. -/
  synthetic : Bool := false
  options : OneofOptions := {}
  deriving DecidableEq, Repr, Inhabited

/-- A source message. -/
structure SourceMessage where
  fullName : String
  name : String
  file : String
  parent : Option String := none
  fields : List SourceField := []
  /-- The full names of the nested messages. -/
  nested : List String := []
  oneofs : List SourceOneof := []
  isMapEntry : Bool := false
  options : MessageOptions := {}
  deriving DecidableEq, Repr, Inhabited

/-- A source enum. -/
structure SourceEnum where
  fullName : String
  values : List (String × Int)
  deriving DecidableEq, Repr, Inhabited

/-- A source file. -/
structure SourceFile where
  name : String
  package : String := ""
  /-- The full names of the messages, parents before children. -/
  messages : List String := []
  options : FileOptions := {}
  deriving DecidableEq, Repr, Inhabited

/-- The input of a derivation. -/
structure Schema where
  files : List SourceFile := []
  messages : List SourceMessage := []
  enums : List SourceEnum := []
  /-- The files for which output was asked for. -/
  filesToGenerate : List String := []
  deriving DecidableEq, Repr, Inhabited

/-- A full name from the enclosing message, else the package, and a name. -/
def fullName (package : String) (parent : Option String) (name : String) : String :=
  match parent with
  | some parent => parent ++ "." ++ name
  | none => if package.isEmpty then "." ++ name else "." ++ package ++ "." ++ name

/-- A name with its leading dot. -/
def dotted (name : String) : String :=
  if name.toList.head? == some '.' then name else "." ++ name

/-! ## Looking things up -/

namespace SourceField

/-- Whether the field is a list or a map. -/
def isRepeated (field : SourceField) : Bool :=
  field.cardinality == .repeated

end SourceField

namespace SourceMessage

/-- The field with a name. -/
def field? (m : SourceMessage) (name : String) : Option SourceField :=
  m.fields.find? (·.name == name)

/-- The fields that point at the oneof with an index, in the order of the fields. -/
def oneofFields (m : SourceMessage) (index : Nat) : List SourceField :=
  m.fields.filter (·.oneofIndex == some index)

/-- The oneof at an index. -/
def oneof? (m : SourceMessage) (index : Nat) : Option SourceOneof :=
  m.oneofs[index]?

end SourceMessage

namespace Schema

/-- The file with a name. -/
def file? (schema : Schema) (name : String) : Option SourceFile :=
  schema.files.find? (·.name == name)

/-- The message with a full name; the leading dot may be missing. -/
def message? (schema : Schema) (name : String) : Option SourceMessage :=
  schema.messages.reverse.find? (·.fullName == dotted name)

/-- The enum with a full name; the leading dot may be missing. -/
def enum? (schema : Schema) (name : String) : Option SourceEnum :=
  schema.enums.reverse.find? (·.fullName == dotted name)

/-- Whether an enum value such as `pkg.Kind.KIND_A` exists. -/
def hasEnumValue (schema : Schema) (qualified : String) : Bool :=
  match Text.splitLast? qualified '.' with
  | none => false
  | some (enumName, value) =>
    ((schema.enum? enumName).map fun e => e.values.any (·.1 == value)).getD false

end Schema

end PlainSchema
