import PlainSchema.Text.Blank
import PlainSchema.Text.Words

/-!
# Kinds and cardinalities of fields

A field holds scalars, messages or enum values.  Every signed and fixed width is a scalar of
its own; a group is a message with a wire form of its own.  `Kind.name` is the word of schema
files, and `Kind.ofName?` reads it back in any letter case and between blanks.
-/

namespace PlainSchema.Proto

/-- The scalar types. -/
inductive Scalar where
  | double | float | int64 | uint64 | int32 | fixed64 | fixed32 | bool | string | bytes
  | uint32 | sfixed32 | sfixed64 | sint32 | sint64
  deriving DecidableEq, Repr, Inhabited

/-- What the values of a field are, without the type they refer to. -/
inductive Kind where
  | scalar (type : Scalar)
  | group
  | message
  | enum
  deriving DecidableEq, Repr, Inhabited

/-- The word for a scalar type in schema files. -/
def Scalar.name : Scalar → String
  | .double => "double"
  | .float => "float"
  | .int64 => "int64"
  | .uint64 => "uint64"
  | .int32 => "int32"
  | .fixed64 => "fixed64"
  | .fixed32 => "fixed32"
  | .bool => "bool"
  | .string => "string"
  | .bytes => "bytes"
  | .uint32 => "uint32"
  | .sfixed32 => "sfixed32"
  | .sfixed64 => "sfixed64"
  | .sint32 => "sint32"
  | .sint64 => "sint64"

/-- The scalar types in the order of their numbers. -/
def Scalar.all : List Scalar :=
  [.double, .float, .int64, .uint64, .int32, .fixed64, .fixed32, .bool, .string, .bytes,
    .uint32, .sfixed32, .sfixed64, .sint32, .sint64]

namespace Kind

/-- The word for a kind in schema files. -/
def name : Kind → String
  | .scalar type => type.name
  | .group => "group"
  | .message => "message"
  | .enum => "enum"

/-- Every kind. -/
def all : List Kind :=
  Scalar.all.map .scalar ++ [.group, .message, .enum]

/-- The kind of a word, which may have blanks around it and any letter case. -/
def ofName? (word : String) : Option Kind :=
  let word := Text.lowerAscii (Text.trimBlank word)
  all.find? fun kind => kind.name == word

/-- The number of a kind in serialized field declarations. -/
def number : Kind → Nat
  | .scalar .double => 1
  | .scalar .float => 2
  | .scalar .int64 => 3
  | .scalar .uint64 => 4
  | .scalar .int32 => 5
  | .scalar .fixed64 => 6
  | .scalar .fixed32 => 7
  | .scalar .bool => 8
  | .scalar .string => 9
  | .group => 10
  | .message => 11
  | .scalar .bytes => 12
  | .scalar .uint32 => 13
  | .enum => 14
  | .scalar .sfixed32 => 15
  | .scalar .sfixed64 => 16
  | .scalar .sint32 => 17
  | .scalar .sint64 => 18

/-- The kind with a number. -/
def ofNumber? (n : Nat) : Option Kind :=
  all.find? fun kind => kind.number == n

/-- Whether the values are neither messages nor enum values. -/
def isScalar : Kind → Bool
  | .scalar _ => true
  | _ => false

/-- Whether the values belong to a named type. -/
def hasTypeRef (kind : Kind) : Bool :=
  !kind.isScalar

end Kind

/-- How often a field may hold a value, and whether it tracks that it was set. -/
inductive Cardinality where
  /-- At most one value, without a record of having been set. -/
  | singular
  /-- At most one value, with such a record. -/
  | optional
  /-- Exactly one value. -/
  | required
  /-- A list or a map. -/
  | repeated
  deriving DecidableEq, Repr, Inhabited

namespace Cardinality

/-- The word for a cardinality. -/
def name : Cardinality → String
  | .singular => "singular"
  | .optional => "optional"
  | .required => "required"
  | .repeated => "repeated"

/-- The cardinality of a word. -/
def ofName? (word : String) : Option Cardinality :=
  [singular, optional, required, repeated].find? fun c => c.name == word

/-- The word that selects a cardinality in a type override. -/
def selectorName : Cardinality → String
  | .singular | .optional => "optional"
  | .required => "required"
  | .repeated => "repeated"

end Cardinality

/-- The label a field is declared with. -/
inductive Label where
  | optional | required | repeated
  deriving DecidableEq, Repr, Inhabited

namespace Label

/-- The word for a label. -/
def name : Label → String
  | .optional => "optional"
  | .required => "required"
  | .repeated => "repeated"

/-- The label of a word. -/
def ofName? (word : String) : Option Label :=
  [optional, required, repeated].find? fun l => l.name == word

end Label

/-- The label that declares a cardinality. -/
def Cardinality.label : Cardinality → Label
  | .singular | .optional => .optional
  | .required => .required
  | .repeated => .repeated

/-- The versions of the schema language. -/
inductive Dialect where
  | proto2 | proto3
  /-- A version that no file can be linked in. -/
  | other (name : String)
  deriving DecidableEq, Repr, Inhabited

/-- The version of a name. -/
def Dialect.ofName (name : String) : Dialect :=
  if name = "proto2" then .proto2 else if name = "proto3" then .proto3 else .other name

end PlainSchema.Proto
