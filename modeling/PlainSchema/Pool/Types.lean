import PlainSchema.Proto.Declaration

/-!
# Linked types

A pool holds the message and enum types of a set of schema files with every type reference
resolved.  Names of linked types have no leading dot.  The fields of a message stand in
ascending order of their numbers, the members of a oneof in the order of declaration.
-/

namespace PlainSchema

open Proto

/-- The type of the values of a field. -/
inductive FieldType where
  | scalar (type : Scalar)
  /-- Messages of the named type; a group is delimited by tags on the wire. -/
  | message (name : String) (group : Bool)
  | enum (name : String)
  deriving DecidableEq, Repr, Inhabited

/-- The kind of a field type. -/
def FieldType.kind : FieldType → Kind
  | .scalar type => .scalar type
  | .message _ true => .group
  | .message _ false => .message
  | .enum _ => .enum

/-- The message or enum type that a field type names. -/
def FieldType.typeName? : FieldType → Option String
  | .scalar _ => none
  | .message name _ => some name
  | .enum name => some name

/-- Whether lists of a type can be written as one run. -/
def FieldType.isPackable : FieldType → Bool
  | .scalar .string | .scalar .bytes | .message .. => false
  | _ => true

/-- A linked field or extension. -/
structure Field where
  name : String
  /-- The full name, behind the message it belongs to or the scope that declares it. -/
  fullName : String
  jsonName : String
  number : Nat
  type : FieldType
  label : Label
  /-- The position of the containing oneof. -/
  oneof : Option Nat
  proto3Optional : Bool
  /-- Whether the field records that it was set. -/
  tracksPresence : Bool
  /-- Whether a list of scalars is written as one length-delimited run. -/
  packed : Bool
  options : FieldOptions
  deriving DecidableEq, Repr, Inhabited

/-- A linked oneof. -/
structure Oneof where
  name : String
  /-- The names of the members in the order of declaration. -/
  members : List String
  options : OneofOptions
  deriving DecidableEq, Repr, Inhabited

/-- A linked message type. -/
structure MessageType where
  fullName : String
  name : String
  /-- The name of the declaring file. -/
  file : String
  /-- The full name of the enclosing message. -/
  parent : Option String
  /-- The fields in ascending order of their numbers. -/
  fields : List Field
  /-- The full names of the nested messages. -/
  nested : List String
  oneofs : List Oneof
  isMapEntry : Bool
  options : MessageOptions
  deriving DecidableEq, Repr, Inhabited

/-- A linked enum type. -/
structure EnumType where
  fullName : String
  /-- Names and numbers in the order of declaration. -/
  values : List (String × Int)
  deriving DecidableEq, Repr, Inhabited

/-- A linked extension field. -/
structure Extension where
  /-- The full name of the extended message. -/
  extendee : String
  field : Field
  deriving DecidableEq, Repr, Inhabited

/-- The linked types of a set of files. -/
structure Pool where
  /-- The files in the order in which they were given, with all references absolute. -/
  files : List FileDecl := []
  /-- The message types, file by file, parents before children. -/
  messages : List MessageType := []
  enums : List EnumType := []
  extensions : List Extension := []
  deriving Repr, Inhabited

/-! ## Looking things up -/

/-- The field with a name. -/
def MessageType.field? (type : MessageType) (name : String) : Option Field :=
  type.fields.find? (·.name == name)

/-- The field with a number. -/
def MessageType.fieldByNumber? (type : MessageType) (number : Nat) : Option Field :=
  type.fields.find? (·.number == number)

/-- The members of the oneof at an index, in ascending order of their numbers. -/
def MessageType.oneofFields (type : MessageType) (index : Nat) : List Field :=
  type.fields.filter (·.oneof == some index)

/-- The number of a value name. -/
def EnumType.number? (type : EnumType) (name : String) : Option Int :=
  type.values.lookup name

/-- The first name of a number. -/
def EnumType.name? (type : EnumType) (number : Int) : Option String :=
  (type.values.find? fun value => value.2 == number).map (·.1)

/-- The number of the value declared first. -/
def EnumType.default (type : EnumType) : Int :=
  (type.values.head?.map (·.2)).getD 0

namespace Pool

/-- The message type with a full name. -/
def message? (pool : Pool) (name : String) : Option MessageType :=
  pool.messages.find? (·.fullName == name)

/-- The enum type with a full name. -/
def enum? (pool : Pool) (name : String) : Option EnumType :=
  pool.enums.find? (·.fullName == name)

/-- The extension with a full name. -/
def extension? (pool : Pool) (name : String) : Option Extension :=
  pool.extensions.find? (·.field.fullName == name)

/-- The extension of a message with a number. -/
def extensionByNumber? (pool : Pool) (extendee : String) (number : Nat) : Option Field :=
  (pool.extensions.find? fun e => e.extendee == extendee && e.field.number == number).map
    (·.field)

/-- The field or extension of a message type with a number. -/
def fieldByNumber? (pool : Pool) (type : MessageType) (number : Nat) : Option Field :=
  type.fieldByNumber? number <|> pool.extensionByNumber? type.fullName number

end Pool

/-! ## Lists and maps -/

/-- The message type of the values of a field. -/
def Pool.messageTypeOf? (pool : Pool) (field : Field) : Option MessageType :=
  match field.type with
  | .message name _ => pool.message? name
  | _ => none

/-- The key and value fields of the entries of a map field. -/
def Pool.entryFields? (pool : Pool) (field : Field) : Option (Field × Field) := do
  guard (field.label = .repeated)
  let entry ← pool.messageTypeOf? field
  guard entry.isMapEntry
  let key ← entry.fieldByNumber? 1
  let value ← entry.fieldByNumber? 2
  return (key, value)

/-- Whether a field holds a map. -/
def Pool.isMap (pool : Pool) (field : Field) : Bool :=
  field.label == .repeated && ((pool.messageTypeOf? field).map (·.isMapEntry)).getD false

/-- Whether a field holds a list. -/
def Pool.isList (pool : Pool) (field : Field) : Bool :=
  field.label == .repeated && !pool.isMap field

/-- Whether a field holds at most one value. -/
def Field.isSingular (field : Field) : Bool :=
  field.label != .repeated

end PlainSchema
