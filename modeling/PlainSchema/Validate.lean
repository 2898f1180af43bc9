import PlainSchema.Alias
import PlainSchema.Diagnostic
import PlainSchema.Plan.Strategy

/-!
# Checking the options of a schema

`Schema.findings` lists everything that is wrong with the Plain options of a schema.  No plan is
made while one of the findings is an error; in particular, embedded messages then form no
cycle.
-/

namespace PlainSchema

open Proto Diagnostic

/-! ## Type overrides -/

/-- Whether a selector filters nothing. -/
def selectsEverything (selector : Selector) : Bool :=
  selector.targetFullPath.isEmpty && selector.fieldKind.isEmpty
    && selector.fieldCardinality.isEmpty && selector.fieldTypeUrl.isEmpty

/-- The findings about a selector. -/
def selectorFindings (subject : String) : Option Selector → List Diagnostic
  | none => [error subject "selector is required"]
  | some selector =>
    errorIf (selectsEverything selector) subject "selector must set at least one filter"
      ++ errorIf (!selector.fieldKind.isEmpty && (Kind.ofName? selector.fieldKind).isNone)
        subject ("unknown field kind " ++ Text.quoted selector.fieldKind)
      ++ errorIf (!(["", "optional", "required", "repeated"].contains selector.fieldCardinality))
        subject ("unknown cardinality " ++ Text.quoted selector.fieldCardinality)

/-- The findings about the type overrides of a file. -/
def SourceFile.findings (file : SourceFile) : List Diagnostic :=
  (file.options.typeOverrides.mapIdx fun i rule =>
    let subject := file.name ++ ":go_types_overrides[" ++ toString i ++ "]"
    selectorFindings subject rule.selector
      ++ errorIf (rule.target.all (·.name.isEmpty)) subject "target name is required").flatten

/-! ## Virtual fields and types -/

/-- The findings about the kind and the type of a virtual field of a message. -/
def virtualKindFindings (schema : Schema) (m : SourceMessage) (subject : String)
    (field : VirtualField) : List Diagnostic :=
  let unresolved :=
    [error subject ("type_ref " ++ Text.quoted field.typeRef ++ " does not resolve")]
  if field.kind.isEmpty then [error subject "kind is required"]
  else
    match Kind.ofName? field.kind with
    | none => [error subject ("unknown kind " ++ Text.quoted field.kind)]
    | some .group => [error subject "group kind is not supported"]
    | some (.scalar _) => []
    | some .message =>
      if field.typeRef.isEmpty then [error subject "message kind requires type_ref"]
      else if m.options.virtualTypes.any (·.name == field.typeRef)
          || (schema.message? field.typeRef).isSome then []
      else unresolved
    | some .enum =>
      if field.typeRef.isEmpty then [error subject "enum kind requires type_ref"]
      else if (schema.enum? field.typeRef).isSome then []
      else unresolved

/-- The findings about a virtual field that concern nothing but the field. -/
def virtualFieldFindings (schema : Schema) (m : SourceMessage) (subject : String)
    (field : VirtualField) : List Diagnostic :=
  errorIf field.name.isEmpty subject "name is required"
    ++ errorIf (field.number < 0) subject "number must not be negative"
    ++ virtualKindFindings schema m subject field

namespace SourceMessage

/-- The findings about the virtual fields of a message. -/
def virtualFieldsFindings (schema : Schema) (m : SourceMessage) : List Diagnostic :=
  let fields := m.options.virtualFields
  (fields.mapIdx fun i field =>
    let subject := m.fullName ++ ":virtual_fields[" ++ toString i ++ "]"
    let earlier := fields.take i
    let number := toString field.number
    let taken := m.fields.any (·.number == field.number)
    virtualFieldFindings schema m subject field
      ++ errorIf (0 < field.number && taken) subject
        ("number " ++ number ++ " is already used by a field")
      ++ errorIf (0 < field.number && !taken && earlier.any (·.number == field.number)) subject
        ("number " ++ number ++ " is used by another virtual field")
      ++ errorIf (!field.name.isEmpty && earlier.any (·.name == field.name)) subject
        ("duplicate virtual field " ++ Text.quoted field.name)).flatten

/-- The findings about the fields of a virtual type. -/
def virtualTypeFindings (schema : Schema) (m : SourceMessage) (subject : String)
    (fields : List VirtualField) : List Diagnostic :=
  (fields.mapIdx fun i field =>
    let subject := subject ++ ".fields[" ++ toString i ++ "]"
    virtualFieldFindings schema m subject field
      ++ errorIf (0 < field.number && (fields.take i).any (·.number == field.number)) subject
        ("number " ++ toString field.number ++ " is used by another field")).flatten

/-- The findings about the virtual types of a message. -/
def virtualTypesFindings (schema : Schema) (m : SourceMessage) : List Diagnostic :=
  let types := m.options.virtualTypes
  (types.mapIdx fun i type =>
    let subject := m.fullName ++ ":virtual_types[" ++ toString i ++ "]"
    errorIf type.name.isEmpty subject "name is required"
      ++ errorIf (!type.name.isEmpty && (types.take i).any (·.name == type.name)) subject
        ("duplicate virtual type " ++ Text.quoted type.name)
      ++ m.virtualTypeFindings schema subject type.fields).flatten

/-! ## Fields and oneofs -/

/-- Whether a field is a member of a oneof that stays a oneof in the Plain message. -/
def keepsOneofOf (m : SourceMessage) (field : SourceField) : Bool :=
  match field.oneofIndex with
  | none => false
  | some i => (m.oneof? i).any (!·.synthetic) && !(m.strategy i).flattens

/-- The findings about the embedding of a field. -/
def embedFindings (schema : Schema) (m : SourceMessage) (subject : String)
    (field : SourceField) : List Diagnostic :=
  if !field.options.embeds then []
  else
    (if field.kind ≠ .message then [error subject "embed requires a message field"]
      else if field.isRepeated then [error subject "embed requires a singular field"]
      else errorIf (field.typeRef.all fun type => (schema.message? type).isNone) subject
        "embedded message not found")
      ++ errorIf (m.options.generate && m.keepsOneofOf field) subject
        "embed is not allowed on members of a oneof that is not flattened"

/-- The findings about a field. -/
def fieldFindings (schema : Schema) (m : SourceMessage) (field : SourceField) :
    List Diagnostic :=
  let subject := m.fullName ++ "." ++ field.name
  let options := field.options
  errorIf (options.serialize && options.embeds) subject
      "serialize and embed are mutually exclusive"
    ++ m.embedFindings schema subject field
    ++ errorIf (options.serialize && field.kind != .message) subject
      "serialize requires a message field"
    ++ errorIf (options.enumAsString && options.enumAsInt) subject
      "enum_as_string and enum_as_int are mutually exclusive"
    ++ errorIf ((options.enumAsString || options.enumAsInt) && field.kind != .enum) subject
      "enum_as_string and enum_as_int require an enum field"
    ++ errorIf (options.overrideType.any (·.name.isEmpty)) subject
      "override_type.name is required"
    ++ warnIf (field.isTagged && field.oneofIndex.isNone) subject
      "with_enums is ignored outside a oneof"
    ++ options.withEnums.flatMap fun value =>
      warnIf (!schema.hasEnumValue value) subject
        ("with_enums value " ++ Text.quoted value ++ " does not name a known enum value")

/-- The findings about the members of a discriminated oneof. -/
def discriminatorFindings (subject : String) (members : List SourceField) : List Diagnostic :=
  let untagged := members.filter (!·.isTagged)
  let values := members.flatMap (·.options.withEnums)
  errorIf (!untagged.isEmpty) subject
      ("every member of a discriminated oneof must declare with_enums; missing on "
        ++ ", ".intercalate (untagged.map (·.name)))
    ++ (values.mapIdx fun i value =>
      let name := Text.trimFront value '.'
      errorIf ((values.take i).any fun v => Text.trimFront v '.' == name) subject
        ("with_enums value " ++ Text.quoted value ++ " selects more than one member")).flatten

/-- The findings about the oneof at an index. -/
def oneofFindings (m : SourceMessage) (index : Nat) (oneof : SourceOneof) : List Diagnostic :=
  let subject := m.fullName ++ ".oneof:" ++ oneof.name
  if oneof.synthetic then
    warnIf (oneof.options.embeds || oneof.options.dispatches) subject
      "options on a synthetic oneof are ignored"
  else if m.strategy index = .discriminatorOnly then
    discriminatorFindings subject (m.oneofFields index)
  else []

/-- The findings about a message. -/
def findings (schema : Schema) (m : SourceMessage) : List Diagnostic :=
  let options := m.options
  let ofAlias :=
    match m.aliasShape with
    | .error reason => errorIf options.typeAlias m.fullName reason.message
    | .ok _ => []
  let additions :=
    if options.generate then
      m.virtualTypesFindings schema ++ m.virtualFieldsFindings schema
    else if options.virtualFields.isEmpty && options.virtualTypes.isEmpty then []
    else [info m.fullName
      "virtual fields and types are ignored on messages that are not generated"]
  ofAlias ++ additions ++ m.fields.flatMap (m.fieldFindings schema)
    ++ (m.oneofs.mapIdx m.oneofFindings).flatten

/-! ## Embed cycles -/

/-- Whether the members of the oneof that holds a field are inlined. -/
def inlinesOneofOf (m : SourceMessage) (field : SourceField) : Bool :=
  match field.oneofIndex with
  | none => false
  | some i =>
    (m.oneof? i).any fun oneof =>
      !oneof.synthetic && (oneof.options.embeds || oneof.options.dispatches)

/-- The message fields that are inlined, with the messages they refer to.  Oneof members count
only in the message that is being planned, since the oneofs of an embedded message are left
alone. -/
def embedEdges (m : SourceMessage) (planned : Bool) : List (String × String) :=
  m.fields.filterMap fun field =>
    if field.kind = .message && (field.options.embeds || planned && m.inlinesOneofOf field) then
      field.typeRef.map (field.name, ·)
    else none

end SourceMessage

/-- A chain of embedded messages that leads back into itself. -/
structure EmbedCycle where
  /-- The field that closes the cycle. -/
  subject : String
  /-- The messages from the one that is met again to itself. -/
  chain : List String
  deriving DecidableEq, Repr, Inhabited

namespace EmbedCycle

/-- The finding about a cycle. -/
def finding (cycle : EmbedCycle) : Diagnostic :=
  error cycle.subject ("embed cycle: " ++ " -> ".intercalate cycle.chain)

/-- The first cycle of each subject. -/
def firsts : List EmbedCycle → List EmbedCycle
  | [] => []
  | cycle :: cycles =>
    cycle :: (firsts cycles).filter (·.subject != cycle.subject)

end EmbedCycle

namespace Schema

/-- The cycles met on the way from a message along embedded fields.  `chain` holds the messages
from the planned one to this one; a chain without a repetition is no longer than the schema has
messages. -/
def embedCyclesFrom (schema : Schema) : Nat → Bool → SourceMessage → List String →
    List EmbedCycle
  | 0, _, _, _ => []
  | steps + 1, planned, m, chain =>
    (m.embedEdges planned).flatMap fun (field, target) =>
      match chain.idxOf? target with
      | some start =>
        [{ subject := m.fullName ++ "." ++ field, chain := chain.drop start ++ [target] }]
      | none =>
        match schema.message? target with
        | none => []
        | some next => embedCyclesFrom schema steps false next (chain ++ [next.fullName])

/-- The cycles of embedded messages met from the generated messages. -/
def embedCycles (schema : Schema) : List EmbedCycle :=
  (schema.messages.filter (·.options.generate)).flatMap fun m =>
    schema.embedCyclesFrom schema.messages.length true m [m.fullName]

/-- Everything that is wrong with the options of a schema, errors first. -/
def findings (schema : Schema) : List Diagnostic :=
  sorted (schema.files.flatMap (·.findings)
    ++ schema.messages.flatMap (·.findings schema)
    ++ (EmbedCycle.firsts schema.embedCycles).map (·.finding))

end Schema

end PlainSchema
