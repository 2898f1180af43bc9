import PlainSchema.Json.Basic
import PlainSchema.Plan.Renames

/-!
# Plans as JSON

The form in which plans are published.  Members stand in the order in which they are read;
a missing value is null, and a step lists its data by name.
-/

namespace PlainSchema

/-- An object of strings. -/
def Json.stringMembers (members : List (String × String)) : Json :=
  .object (members.map fun (k, v) => (k, .string v))

namespace FieldRef

/-- The reference as JSON. -/
def toJson (ref : FieldRef) : Json :=
  .object [("message", .string ref.message), ("name", .string ref.name),
    ("number", .int ref.number)]

end FieldRef

/-- The shape as JSON. -/
def FieldShape.toJson (shape : FieldShape) : Json :=
  .object [("name", .string shape.name), ("number", .int shape.number),
    ("kind", .string shape.kind.name), ("cardinality", .string shape.cardinality.name),
    ("type_ref", .optString shape.typeRef), ("oneof_index", .optNat shape.oneofIndex),
    ("proto3_optional", .bool shape.proto3Optional), ("is_map", .bool shape.isMap)]

/-- The role as JSON. -/
def Role.toJson : Role → Json
  | .dispatchTag oneof => Json.stringMembers [("role", "dispatch_tag"), ("oneof", oneof)]
  | .discriminator oneof => Json.stringMembers [("role", "discriminator"), ("oneof", oneof)]
  | .payload oneof => Json.stringMembers [("role", "payload"), ("oneof", oneof)]
  | .crfPath field => Json.stringMembers [("role", "crf_path"), ("field", field)]

/-- The origin as JSON. -/
def Origin.toJson (origin : Origin) : Json :=
  .object [("is_virtual", .bool origin.isVirtual),
    ("is_embedded", .bool origin.embedSource.isSome),
    ("embed_source", (origin.embedSource.map FieldRef.toJson).getD .null),
    ("is_type_alias", .bool origin.aliasType.isSome),
    ("original_type", .optString origin.aliasType),
    ("is_serialized", .bool origin.isSerialized),
    ("is_oneof", .bool origin.oneofGroup.isSome),
    ("oneof_group", .optString origin.oneofGroup),
    ("oneof_variant", .optString origin.oneofVariant),
    ("oneof_enums", .strings origin.oneofEnums),
    ("enum_format", .optString (origin.enumFormat.map EnumFormat.name)),
    ("synthetic", (origin.role.map Role.toJson).getD .null),
    ("source_path", .strings origin.sourcePath)]

/-- The reason that an override step gives. -/
def OverrideCause.reason : OverrideCause → String
  | .field => "field override"
  | .file => "file type override"
  | .discriminator => "oneof discriminator"
  | .payload => "oneof discriminator payload"
  | .given => "given"

/-- The data of an override, by name. -/
def Override.data (target : Override) : List (String × String) :=
  (target.importPath.map fun path => ("import_path", path)).toList
    ++ (if target.known then [("known", "true")] else [])
    ++ [("name", target.name)]

namespace Step

/-- The word for the kind of a step. -/
def kindName : Step → String
  | rename .. => "rename"
  | typeAlias .. => "type_alias"
  | serialize .. => "serialize"
  | embed .. => "embed"
  | override .. => "override_type"
  | enumFormat .. => "enum_format"
  | virtualField .. | dispatchTag .. | crfPath .. => "virtual"
  | merge .. => "merge"

/-- Why a step was taken. -/
def reason : Step → String
  | rename .. => "type renamed"
  | typeAlias .. => "type alias"
  | serialize .. => "serialized message"
  | embed .. => "embedded field"
  | override target => target.cause.reason
  | enumFormat .. => "enum format"
  | virtualField .. => "virtual field"
  | dispatchTag .. => "oneof dispatch tag"
  | crfPath .. => "collision resolution path"
  | merge .. => "name collision"

/-- The data of a step, by name in ascending order. -/
def data : Step → List (String × String)
  | rename old new => [("from", old), ("to", new)]
  | typeAlias wrapper field => [("alias", wrapper), ("field", field)]
  | serialize type => [("type", type)]
  | embed source namePrefix => [("prefix", namePrefix), ("source", source)]
  | override target => target.data
  | enumFormat enum format => [("enum", enum), ("format", format.kind.name)]
  | virtualField kind => [("kind", kind)]
  | dispatchTag enum => [("enum", enum)]
  | crfPath field => [("field", field)]
  | merge source => [("source", source)]

/-- The step as JSON. -/
def toJson (step : Step) : Json :=
  .object [("kind", .string step.kindName), ("reason", .string step.reason),
    ("data", .stringMembers step.data)]

end Step

/-- The field plan as JSON. -/
def FieldPlan.toJson (plan : FieldPlan) : Json :=
  .object [("source", (plan.source.map FieldRef.toJson).getD .null),
    ("field", plan.shape.toJson), ("origin", plan.origin.toJson),
    ("ops", .array (plan.steps.map Step.toJson))]

/-- The member as JSON. -/
def OneofMember.toJson (m : OneofMember) : Json :=
  .object [("name", .string m.name), ("with_enums", .strings m.withEnums)]

/-- The dispatch plan as JSON. -/
def DispatchPlan.toJson (d : DispatchPlan) : Json :=
  .object [("enum_full_name", .string d.enumFullName), ("field_name", .string d.fieldName),
    ("with_prefix", .bool d.withPrefix)]

/-- The oneof plan as JSON. -/
def OneofPlan.toJson (plan : OneofPlan) : Json :=
  .object [("name", .string plan.name), ("strategy", .string plan.strategy.name),
    ("members", .array (plan.members.map OneofMember.toJson)),
    ("dispatch", (plan.dispatch.map DispatchPlan.toJson).getD .null),
    ("prefixed", .bool plan.prefixed), ("new_index", .optNat plan.newIndex)]

/-- The generated enum as JSON. -/
def GeneratedEnum.toJson (e : GeneratedEnum) : Json :=
  .object [("name", .string e.name), ("full_name", .string e.fullName),
    ("values", .array (e.values.map fun (name, number) =>
      .object [("name", .string name), ("number", .int number)]))]

/-- The virtual type as JSON. -/
def VirtualTypePlan.toJson (type : VirtualTypePlan) : Json :=
  .object [("name", .string type.name), ("full_name", .string type.fullName),
    ("fields", .array (type.fields.map FieldShape.toJson))]

/-- The origins of a merged field as JSON. -/
def CrfEntry.toJson (entry : CrfEntry) : Json :=
  .object [("field", .string entry.field), ("crf_field", .string entry.crfField),
    ("sources", .strings entry.sources)]

/-- The message plan as JSON. -/
def MessagePlan.toJson (m : MessagePlan) : Json :=
  .object [("full_name", .string m.fullName), ("new_full_name", .string m.newFullName),
    ("name", .string m.name), ("new_name", .string m.newName), ("file", .string m.file),
    ("generate", .bool m.generate), ("is_map_entry", .bool m.isMapEntry),
    ("fields", .array (m.fields.map FieldPlan.toJson)),
    ("oneofs", .array (m.oneofs.map OneofPlan.toJson)),
    ("virtual_fields", .strings m.virtualFields),
    ("enums", .array (m.enums.map GeneratedEnum.toJson)),
    ("virtual_types", .array (m.virtualTypes.map VirtualTypePlan.toJson)),
    ("crf", .array (m.crf.map CrfEntry.toJson))]

/-- The renames as JSON. -/
def Renames.toJson (renames : Renames) : Json :=
  .object [("messages", .stringMembers renames.messages), ("enums", .stringMembers renames.enums)]

/-- The finding as JSON. -/
def Diagnostic.toJson (d : Diagnostic) : Json :=
  .object [("level", .string d.level.name), ("subject", .string d.subject),
    ("message", .string d.message)]

end PlainSchema
