import PlainSchema.Generator.Part
import PlainSchema.Wire.Decode
import PlainSchema.Wire.Encode

/-!
# The Plain options of a request

The schema files of a request say themselves which extensions carry the Plain options: the
options of an element are read by the declarations of the request's own pool, and what they hold
under the extension is then read as Plain options.  Options that were left as names and values
are set first.
-/

namespace PlainSchema

open Proto

/-! ## Plain options -/

/-- The override that a message holds. -/
def OverrideType.ofPart (p : Part) : OverrideType :=
  { name := p.text "name", importPath := p.text "import_path" }

/-- The virtual field that a message holds. -/
def VirtualField.ofPart (p : Part) : VirtualField :=
  { name := p.text "name", kind := p.text "kind", number := p.int "number"
    typeRef := p.text "type_ref", repeated := p.flag "repeated" }

/-- The selector that a message holds. -/
def Selector.ofPart (p : Part) : Selector :=
  { targetFullPath := p.text "target_full_path", fieldKind := p.text "field_kind"
    fieldCardinality := p.text "field_cardinality", fieldTypeUrl := p.text "field_type_url" }

/-- The file options that a message holds. -/
def FileOptions.ofPart (p : Part) : FileOptions :=
  { typeOverrides := (p.parts "go_types_overrides").map fun rule =>
      { selector := (rule.part? "selector").map Selector.ofPart
        target := (rule.part? "target").map OverrideType.ofPart } }

/-- The message options that a message holds. -/
def MessageOptions.ofPart (p : Part) : MessageOptions :=
  { generate := p.flag "generate", typeAlias := p.flag "type_alias"
    typeAliasField := p.text "type_alias_field"
    virtualFields := (p.parts "virtual_fields").map VirtualField.ofPart
    virtualTypes := (p.parts "virtual_types").map fun type =>
      { name := type.text "name", fields := (type.parts "fields").map VirtualField.ofPart } }

/-- The field options that a message holds. -/
def FieldOptions.ofPart (p : Part) : FieldOptions :=
  { embed := p.flag "embed", embedWithPrefix := p.flag "embed_with_prefix"
    serialize := p.flag "serialize"
    overrideType := (p.part? "override_type").map OverrideType.ofPart
    enumAsString := p.flag "enum_as_string", enumAsInt := p.flag "enum_as_int"
    withEnums := p.texts "with_enums" }

/-- The oneof options that a message holds. -/
def OneofOptions.ofPart (p : Part) : OneofOptions :=
  { embed := p.flag "embed", embedWithPrefix := p.flag "embed_with_prefix"
    enumDispatched := p.flag "enum_dispatched"
    enumDispatchedWithPrefix := p.flag "enum_dispatched_with_prefix" }

/-! ## Options by name -/

/-- What the options of an element are read by: the pool of the request, what the references of
the file can name, and the scope of the element. -/
structure OptionScope where
  pool : Pool
  visible : Visibility
  scope : String

/-- The scope of a declaration in an outer one. -/
def OptionScope.inside (outer : OptionScope) (name : String) : OptionScope :=
  { outer with scope := qualify outer.scope name }

/-- The pool of the schema of schema files. -/
def schemaPool : Pool :=
  (Pool.load [schemaFile]).toOption.getD {}

/-- The pool that declares a type of options: that of the request, if it does. -/
def OptionScope.poolOf (s : OptionScope) (options : String) : Pool :=
  if (s.pool.message? options).isSome then s.pool else schemaPool

/-- The field or extension of a message type that a part of an option name stands for. -/
def OptionScope.field? (s : OptionScope) (type : MessageType) (part : Part) : Option Field :=
  let name := part.text "name_part"
  if part.flag "is_extension" then do
    let symbol ← s.visible.find? (·.sort == .extension) s.scope name
    let extension ← s.pool.extension? symbol.name
    guard (extension.extendee == type.fullName)
    return extension.field
  else type.field? name

/-- The integer between two bounds that an option is set to. -/
def optionInteger? (low high : Int) (option : Part) : Option Int := do
  let n ← option.wide? "positive_int_value" <|> option.wide? "negative_int_value"
  guard (low ≤ n && n ≤ high)
  return n

/-- The bits of the double that an option is set to. -/
def optionDouble? (option : Part) : Option UInt64 :=
  let ofInt (n : Int) : UInt64 :=
    (Decimal.double.withSign (decide (n < 0)) (Decimal.double.round n.natAbs 1)).toUInt64
  option.double? "double_value"
    <|> ((option.wide? "positive_int_value" <|> option.wide? "negative_int_value").map ofInt)
    <|> match option.text? "identifier_value" with
      | some "inf" => some Decimal.double.infinityBits.toUInt64
      | some "nan" => some Decimal.double.nanBits.toUInt64
      | _ => none

/-- The value of a field type that an option is set to. -/
def optionValue? (pool : Pool) (type : FieldType) (option : Part) : Option Value :=
  match type with
  | .scalar .double => (optionDouble? option).map .f64
  | .scalar .float => (optionDouble? option).map fun bits =>
    .f32 (Decimal.convert Decimal.double Decimal.single bits.toNat).toUInt32
  | .scalar .int32 | .scalar .sint32 | .scalar .sfixed32 =>
    (optionInteger? (-2147483648) 2147483647 option).map fun n => .i32 (Int32.ofInt n)
  | .scalar .int64 | .scalar .sint64 | .scalar .sfixed64 =>
    (optionInteger? (-9223372036854775808) 9223372036854775807 option).map fun n =>
      .i64 (Int64.ofInt n)
  | .scalar .uint32 | .scalar .fixed32 =>
    (optionInteger? 0 4294967295 option).map fun n => .u32 n.toNat.toUInt32
  | .scalar .uint64 | .scalar .fixed64 =>
    (optionInteger? 0 18446744073709551615 option).map fun n => .u64 n.toNat.toUInt64
  | .scalar .bool =>
    match option.text? "identifier_value" with
    | some "true" => some (.bool true)
    | some "false" => some (.bool false)
    | _ => none
  | .scalar .string => do
    return .string (← Utf8.decode? (← option.bytes? "string_value"))
  | .scalar .bytes => (option.bytes? "string_value").map .bytes
  | .enum name => do
    let n ← (← pool.enum? name).number? (option.text "identifier_value")
    return .enum (Int32.ofInt n)
  | .message .. => none

/-- The options with one more option set.  The parts of its name lead through messages; a
single field may not be set twice, and a list grows. -/
def OptionScope.set? (s : OptionScope) (pool : Pool) (option : Part) :
    List Part → Message → Option Message
  | [], _ => none
  | [part], m => do
    let type ← pool.message? m.type
    let field ← s.field? type part
    let value ← optionValue? pool field.type option
    if field.label = .repeated then
      let items : List Value :=
        match m.value? field.number with
        | some (.list items) => items
        | _ => []
      return m.set type field (.list (items ++ [value]))
    else
      guard (!m.has pool field)
      return m.set type field value
  | part :: rest, m => do
    let type ← pool.message? m.type
    let field ← s.field? type part
    guard field.isSingular
    let .message name _ := field.type | none
    let inner : Message :=
      match m.value? field.number with
      | some (.message inner) => inner
      | _ => { type := name }
    return m.set type field (.message (← s.set? pool option rest inner))

/-- The options of an element as a message of the pool that declares them. -/
def OptionScope.read? (s : OptionScope) (options : Part) : Option Message := do
  let pool := s.poolOf options.message.type
  let uninterpreted := options.parts "uninterpreted_option"
  let written := { options.message with
    fields := options.message.fields.filter (·.1 != uninterpretedNumber) }
  let m ← Wire.decode? pool written.type (Wire.encode options.pool written)
  uninterpreted.foldlM (fun m option => s.set? pool option (option.parts "name") m) m

/-! ## Plain options of an element -/

/-- A sort of elements that have Plain options. -/
structure OptionSort where
  /-- The full name of the extension that carries the Plain options. -/
  extension : String
  /-- The full name of the message type of the Plain options. -/
  type : String

/-- The options of files. -/
def OptionSort.file : OptionSort := ⟨"plain.file", "plain.FileOptions"⟩

/-- The options of messages. -/
def OptionSort.message : OptionSort := ⟨"plain.message", "plain.MessageOptions"⟩

/-- The options of fields. -/
def OptionSort.field : OptionSort := ⟨"plain.field", "plain.FieldOptions"⟩

/-- The options of oneofs. -/
def OptionSort.oneof : OptionSort := ⟨"plain.oneof", "plain.OneofOptions"⟩

/-- The Plain options in the options of an element, which are empty when no extension of the
pool carries them; nothing when they are malformed. -/
def OptionScope.plain? (s : OptionScope) (sort : OptionSort) (p : Part) : Option Part :=
  let empty : Part := { p with message := default }
  match s.pool.extension? sort.extension, p.part? "options" with
  | some extension, some options => do
    match (← s.read? options).value? extension.field.number with
    | some (.message carried) =>
      let bytes := Wire.encode (s.poolOf options.message.type) carried
      return { p with message := ← Wire.decode? generatorPool sort.type bytes }
    | _ => return empty
  | _, _ => some empty

/-- How the Plain options of an element are found in the scope of the element, if at all. -/
abbrev OptionReader := Option OptionScope

/-- The reader for what is declared in a named element. -/
def OptionReader.inside (read : OptionReader) (name : String) : OptionReader :=
  read.map (OptionScope.inside · name)

/-- The Plain options of an element, empty without a reader; nothing when they are malformed. -/
def OptionReader.plain? (read : OptionReader) (sort : OptionSort) (p : Part) : Option Part :=
  match read with
  | none => some { p with message := default }
  | some scope => scope.plain? sort p

/-! ## Whether options fit -/

/-- The message types of options. -/
def optionTypes : List String :=
  ["File", "Message", "Field", "Oneof", "Enum", "EnumValue", "Service", "Method",
    "ExtensionRange"].map ("google.protobuf." ++ · ++ "Options")

/-- The scope inside an element of a schema file: the package of a file, and otherwise the outer
scope with the name of the element, if it has one. -/
def innerScope (scope type : String) (fields : List (Nat × Value)) : String :=
  if type = "google.protobuf.FileDescriptorProto" then
    match fields.lookup 2 with
    | some (.string package) => package
    | _ => ""
  else
    match fields.lookup 1 with
    | some (.string name) => qualify scope name
    | _ => scope

mutual

/-- The options of all elements that a value in a scope holds, with their scopes. -/
def Value.optionBags (scope : String) : Value → List (String × Message)
  | .message m => m.optionBags scope
  | .list items => optionBagsOfAll scope items
  | _ => []

/-- The options of all elements that a message in a scope holds, with their scopes. -/
def Message.optionBags (scope : String) : Message → List (String × Message)
  | m@{ type, fields, .. } =>
    if optionTypes.contains type then [(scope, m)]
    else optionBagsOfFields (innerScope scope type fields) fields

/-- The options of all elements that the items of a list hold, with their scopes. -/
def optionBagsOfAll (scope : String) : List Value → List (String × Message)
  | [] => []
  | item :: items => item.optionBags scope ++ optionBagsOfAll scope items

/-- The options of all elements that fields hold, with their scopes. -/
def optionBagsOfFields (scope : String) : List (Nat × Value) → List (String × Message)
  | [] => []
  | (_, value) :: fields => value.optionBags scope ++ optionBagsOfFields scope fields

end

/-- All options in a schema file can be read. -/
def OptionScope.check (s : OptionScope) (file : Part) : Except PoolError Unit :=
  let bags := file.message.optionBags ""
  require (bags.all fun (scope, message) =>
      ({ s with scope }.read? { file with message }).isSome)
    (.invalidOptions (file.text "name"))

end PlainSchema
