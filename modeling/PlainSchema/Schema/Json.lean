import PlainSchema.Json.Basic
import PlainSchema.Schema.Basic

/-!
# Schemas as JSON

A listing of what a schema holds.  Options are listed without those that have their defaults; a
message field of an option that was given is listed even when nothing in it was set.
-/

namespace PlainSchema

open Proto

namespace Json

/-- Whether a value is the default of an option. -/
def isDefaultOption : Json → Bool
  | .null | .bool false | .number (.int 0) | .string "" | .array [] => true
  | _ => false

/-- An object of the options that differ from their defaults. -/
def options (members : List (String × Json)) : Json :=
  .object (members.filter fun option => !option.2.isDefaultOption)

end Json

/-! ## Options -/

/-- The target type as JSON. -/
def Proto.OverrideType.toJson (target : OverrideType) : Json :=
  .options [("name", .string target.name), ("import_path", .string target.importPath)]

/-- The selector as JSON. -/
def Proto.Selector.toJson (selector : Selector) : Json :=
  .options [("target_full_path", .string selector.targetFullPath),
    ("field_kind", .string selector.fieldKind),
    ("field_cardinality", .string selector.fieldCardinality),
    ("field_type_url", .string selector.fieldTypeUrl)]

/-- The override as JSON. -/
def Proto.TypeOverride.toJson (override : TypeOverride) : Json :=
  .options [("selector", (override.selector.map Selector.toJson).getD .null),
    ("target", (override.target.map OverrideType.toJson).getD .null)]

/-- The options of a file as JSON. -/
def Proto.FileOptions.toJson (options : FileOptions) : Json :=
  .options [("go_types_overrides", .array (options.typeOverrides.map (·.toJson)))]

/-- The virtual field as JSON. -/
def Proto.VirtualField.toJson (field : VirtualField) : Json :=
  .options [("name", .string field.name), ("kind", .string field.kind),
    ("number", .int field.number), ("type_ref", .string field.typeRef),
    ("repeated", .bool field.repeated)]

/-- The virtual type as JSON. -/
def Proto.VirtualType.toJson (type : VirtualType) : Json :=
  .options [("name", .string type.name), ("fields", .array (type.fields.map (·.toJson)))]

/-- The options of a message as JSON. -/
def Proto.MessageOptions.toJson (options : MessageOptions) : Json :=
  .options [("generate", .bool options.generate), ("type_alias", .bool options.typeAlias),
    ("type_alias_field", .string options.typeAliasField),
    ("virtual_fields", .array (options.virtualFields.map (·.toJson))),
    ("virtual_types", .array (options.virtualTypes.map (·.toJson)))]

/-- The options of a field as JSON. -/
def Proto.FieldOptions.toJson (options : FieldOptions) : Json :=
  .options [("embed", .bool options.embed),
    ("embed_with_prefix", .bool options.embedWithPrefix),
    ("serialize", .bool options.serialize),
    ("override_type", (options.overrideType.map OverrideType.toJson).getD .null),
    ("enum_as_string", .bool options.enumAsString), ("enum_as_int", .bool options.enumAsInt),
    ("with_enums", .strings options.withEnums)]

/-- The options of a oneof as JSON. -/
def Proto.OneofOptions.toJson (options : OneofOptions) : Json :=
  .options [("embed", .bool options.embed),
    ("embed_with_prefix", .bool options.embedWithPrefix),
    ("enum_dispatched", .bool options.enumDispatched),
    ("enum_dispatched_with_prefix", .bool options.enumDispatchedWithPrefix)]

/-! ## The contents of a schema -/

/-- The file as JSON. -/
def SourceFile.toJson (file : SourceFile) : Json :=
  .object [("name", .string file.name), ("package", .string file.package),
    ("messages", .strings file.messages), ("opt", file.options.toJson)]

/-- The enum as JSON. -/
def SourceEnum.toJson (enum : SourceEnum) : Json :=
  .object [("full_name", .string enum.fullName),
    ("values", .array (enum.values.map fun value => .array [.string value.1, .int value.2]))]

/-- The field as JSON. -/
def SourceField.toJson (field : SourceField) : Json :=
  .object [("name", .string field.name), ("number", .int field.number),
    ("kind", .string field.kind.name), ("cardinality", .string field.cardinality.name),
    ("type_ref", .optString field.typeRef), ("oneof_index", .optNat field.oneofIndex),
    ("proto3_optional", .bool field.proto3Optional), ("is_map", .bool field.isMap),
    ("is_repeated", .bool field.isRepeated), ("embeds", .bool field.options.embeds),
    ("opt", field.options.toJson)]

/-- The oneof at an index of a message as JSON. -/
def SourceMessage.oneofJson (m : SourceMessage) (index : Nat) (oneof : SourceOneof) : Json :=
  .object [("name", .string oneof.name), ("fields", .strings oneof.members),
    ("synthetic", .bool oneof.synthetic), ("embeds", .bool oneof.options.embeds),
    ("dispatches", .bool oneof.options.dispatches),
    ("members", .strings ((m.oneofFields index).map (·.name))),
    ("opt", oneof.options.toJson)]

/-- The message as JSON. -/
def SourceMessage.toJson (m : SourceMessage) : Json :=
  .object [("full_name", .string m.fullName), ("name", .string m.name),
    ("file", .string m.file), ("parent", .optString m.parent), ("nested", .strings m.nested),
    ("is_map_entry", .bool m.isMapEntry), ("alias_field", .string m.options.aliasField),
    ("opt", m.options.toJson), ("fields", .array (m.fields.map (·.toJson))),
    ("oneofs", .array (m.oneofs.mapIdx m.oneofJson))]

end PlainSchema
