import PlainSchema.Text.Split

/-!
# Plain options

The options with which files, messages, fields and oneofs say how their Plain counterparts
are derived.
-/

namespace PlainSchema.Proto

/-- A target type whose conversion the caller supplies. -/
structure OverrideType where
  name : String := ""
  /-- The module the type lives in, empty for built-in types. -/
  importPath : String := ""
  deriving DecidableEq, Repr, Inhabited

/-- A field that only the Plain message has. -/
structure VirtualField where
  name : String := ""
  kind : String := ""
  /-- Zero asks for the next free number. -/
  number : Int := 0
  typeRef : String := ""
  repeated : Bool := false
  deriving DecidableEq, Repr, Inhabited

/-- A message that only the Plain schema has. -/
structure VirtualType where
  name : String := ""
  fields : List VirtualField := []
  deriving DecidableEq, Repr, Inhabited

/-- Filters for the fields a type override applies to.  Every filter that is not empty has
to match. -/
structure Selector where
  targetFullPath : String := ""
  fieldKind : String := ""
  fieldCardinality : String := ""
  fieldTypeUrl : String := ""
  deriving DecidableEq, Repr, Inhabited

/-- An override for the fields of a file that a selector picks. -/
structure TypeOverride where
  selector : Option Selector := none
  target : Option OverrideType := none
  deriving DecidableEq, Repr, Inhabited

/-- The options of a file. -/
structure FileOptions where
  typeOverrides : List TypeOverride := []
  deriving DecidableEq, Repr, Inhabited

/-- The options of a message. -/
structure MessageOptions where
  /-- Derive a Plain message. -/
  generate : Bool := false
  /-- Stand for the wrapped scalar wherever a field refers to the message. -/
  typeAlias : Bool := false
  typeAliasField : String := ""
  virtualFields : List VirtualField := []
  virtualTypes : List VirtualType := []
  deriving DecidableEq, Repr, Inhabited

/-- The options of a field. -/
structure FieldOptions where
  embed : Bool := false
  embedWithPrefix : Bool := false
  serialize : Bool := false
  overrideType : Option OverrideType := none
  enumAsString : Bool := false
  enumAsInt : Bool := false
  /-- The enum values that select this oneof member. -/
  withEnums : List String := []
  deriving DecidableEq, Repr, Inhabited

/-- The options of a oneof. -/
structure OneofOptions where
  embed : Bool := false
  embedWithPrefix : Bool := false
  enumDispatched : Bool := false
  enumDispatchedWithPrefix : Bool := false
  deriving DecidableEq, Repr, Inhabited

/-- The path of a target type in generated code: the import path, with `/` and `.` for module
separators, and the name. -/
def OverrideType.codePath (target : OverrideType) : String :=
  let module := Text.trimChar target.importPath ':'
  if module.isEmpty then target.name
  else
    let parts := module.toList.map fun c => if c = '/' ∨ c = '.' then "::" else c.toString
    String.join parts ++ "::" ++ target.name

/-- The name of the field that a type alias wraps. -/
def MessageOptions.aliasField (options : MessageOptions) : String :=
  if options.typeAliasField.isEmpty then "value" else options.typeAliasField

/-- Whether the field is inlined into its parent. -/
def FieldOptions.embeds (options : FieldOptions) : Bool :=
  options.embed || options.embedWithPrefix

/-- Whether the members are inlined into the parent. -/
def OneofOptions.embeds (options : OneofOptions) : Bool :=
  options.embed || options.embedWithPrefix

/-- Whether an enum names the populated member. -/
def OneofOptions.dispatches (options : OneofOptions) : Bool :=
  options.enumDispatched || options.enumDispatchedWithPrefix

end PlainSchema.Proto
