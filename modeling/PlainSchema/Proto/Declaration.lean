import PlainSchema.Proto.Kind
import PlainSchema.Proto.Options

/-!
# Declarations of schema files

What a schema file declares, as it was written: messages with their fields and oneofs, enums,
services and extensions, and the Plain options of each.  Type references are texts; whether
they name anything is decided when a set of files is linked.
-/

namespace PlainSchema.Proto

/-- A field or an extension. -/
structure FieldDecl where
  name : String
  number : Int
  kind : Kind
  label : Label := .optional
  /-- The message or enum type, absent for scalars. -/
  typeRef : Option String := none
  /-- The position of the containing oneof. -/
  oneofIndex : Option Int := none
  proto3Optional : Bool := false
  /-- The extended message, for extensions. -/
  extendee : Option String := none
  /-- The name in JSON, when it was given explicitly. -/
  jsonName : Option String := none
  /-- The default value, as it was written. -/
  defaultText : Option String := none
  /-- Whether a list is packed, when the field has options; without any, the dialect decides. -/
  packed : Option Bool := none
  options : FieldOptions := {}
  deriving DecidableEq, Repr, Inhabited

/-- A oneof; its members are the fields that point at it. -/
structure OneofDecl where
  name : String
  options : OneofOptions := {}
  deriving DecidableEq, Repr, Inhabited

/-- An enum with its values in the order of declaration. -/
structure EnumDecl where
  name : String
  values : List (String × Int)
  /-- Several values may share a number. -/
  allowAlias : Bool := false
  /-- The reserved numbers, as ranges with both their ends. -/
  reserved : List (Int × Int) := []
  deriving DecidableEq, Repr, Inhabited

/-- A message with everything declared inside it. -/
structure MessageDecl where
  name : String
  fields : List FieldDecl := []
  oneofs : List OneofDecl := []
  /-- The nested messages. -/
  messages : List MessageDecl := []
  enums : List EnumDecl := []
  /-- The extensions declared inside the message. -/
  extensions : List FieldDecl := []
  /-- Whether the message is the entry of a map field. -/
  isMapEntry : Bool := false
  /-- The reserved number ranges, without their ends. -/
  reserved : List (Int × Int) := []
  reservedNames : List String := []
  /-- The number ranges open to extensions, without their ends. -/
  extensionRanges : List (Int × Int) := []
  options : MessageOptions := {}
  deriving Repr, Inhabited

/-- A method of a service. -/
structure MethodDecl where
  name : String
  input : String
  output : String
  deriving DecidableEq, Repr, Inhabited

/-- A service. -/
structure ServiceDecl where
  name : String
  methods : List MethodDecl
  deriving DecidableEq, Repr, Inhabited

/-- A schema file. -/
structure FileDecl where
  name : String
  package : String := ""
  dialect : Dialect := .proto3
  dependencies : List String := []
  /-- The positions of the dependencies that importers of this file see too. -/
  publicDependencies : List Int := []
  /-- The positions of the dependencies that may be missing when the file is used. -/
  weakDependencies : List Int := []
  messages : List MessageDecl := []
  enums : List EnumDecl := []
  services : List ServiceDecl := []
  extensions : List FieldDecl := []
  options : FileOptions := {}
  deriving Repr, Inhabited

end PlainSchema.Proto
