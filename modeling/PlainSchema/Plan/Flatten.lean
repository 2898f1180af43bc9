import PlainSchema.Alias
import PlainSchema.Plan.Basic

/-!
# Flattening fields

A source field becomes the Plain fields that stand for it: the fields of an embedded message,
recursively, or one field, which may be serialized, unwrapped from an alias, carry an enum value
as a scalar, and have its type overridden.  Virtual fields and types are planned here too.
-/

namespace PlainSchema

open Proto

/-- Where a field stands below the message that is being planned. -/
structure Scope where
  /-- The field names that lead to the parent of the field. -/
  path : List String := []
  /-- What the names of the Plain fields begin with. -/
  namePrefix : String := ""
  /-- The outermost inlined field above. -/
  embedSource : Option FieldRef := none
  /-- The oneof and the member that the field belongs to. -/
  oneofMember : Option (String × String) := none
  deriving DecidableEq, Repr, Inhabited

/-- The scope of a member of a oneof. -/
def Scope.member (group variant : String) : Scope :=
  { oneofMember := some (group, variant) }

/-- What the plans of a message depend on. -/
structure PlanContext where
  schema : Schema
  /-- The type overrides of the file that declares the message. -/
  overrides : List TypeOverride := []
  deriving Repr, Inhabited

/-- The reference to a field of a message. -/
def SourceMessage.refTo (m : SourceMessage) (field : SourceField) : FieldRef :=
  { message := m.fullName, name := field.name, number := field.number }

/-! ## Type overrides -/

/-- Whether a selector picks a field of a message. -/
def selects (selector : Selector) (m : SourceMessage) (field : SourceField) : Bool :=
  let sameName (a b : String) := Text.trimFront a '.' == Text.trimFront b '.'
  (selector.targetFullPath.isEmpty
      || sameName selector.targetFullPath (m.fullName ++ "." ++ field.name))
    && (selector.fieldKind.isEmpty || Kind.ofName? selector.fieldKind == some field.kind)
    && (selector.fieldCardinality.isEmpty
      || selector.fieldCardinality == field.cardinality.selectorName)
    && (selector.fieldTypeUrl.isEmpty
      || field.typeRef.any fun type => sameName type selector.fieldTypeUrl)

/-- The target of a rule that picks a field. -/
def targetOf? (m : SourceMessage) (field : SourceField) (rule : TypeOverride) :
    Option OverrideType := do
  let selector ← rule.selector
  let target ← rule.target
  guard (selects selector m field)
  return target

namespace PlanContext

/-- The context for the messages of a file. -/
def ofFile (schema : Schema) (file : String) : PlanContext :=
  { schema, overrides := ((schema.file? file).map (·.options.typeOverrides)).getD [] }

/-- The override of a field: its own, else that of the first rule that picks it. -/
def override? (ctx : PlanContext) (m : SourceMessage) (field : SourceField) :
    Option Override :=
  let asOverride (cause : OverrideCause) (target : OverrideType) : Override :=
    { cause, name := target.name, importPath := some target.importPath }
  match field.options.overrideType with
  | some target => some (asOverride .field target)
  | none => (ctx.overrides.findSome? (targetOf? m field)).map (asOverride .file)

/-! ## Single fields -/

/-- The alias that stands for the type of a field. -/
def aliasOf? (ctx : PlanContext) (field : SourceField) : Option Alias :=
  if field.kind = .message then field.typeRef.bind ctx.schema.alias? else none

/-- The enum format that a field asks for. -/
def enumFormat? (field : SourceField) : Option EnumFormat :=
  if field.kind ≠ .enum then none
  else if field.options.enumAsString then some .asString
  else if field.options.enumAsInt then some .asInt
  else none

/-- A plan whose value is carried by a scalar in place of the type it has. -/
def carriedAs (plan : FieldPlan) (kind : Kind) (origin : Origin → Origin) (step : Step) :
    FieldPlan :=
  { plan with
    shape := { plan.shape with kind, typeRef := none }
    origin := origin plan.origin }.addStep step

/-- The plan of a field that is copied as it stands. -/
def copyPlan (m : SourceMessage) (field : SourceField) (scope : Scope) : FieldPlan where
  source := some (m.refTo field)
  shape :=
    { name := scope.namePrefix ++ field.name
      number := if scope.path.isEmpty then field.number else 0
      kind := field.kind
      cardinality := field.cardinality
      typeRef := field.typeRef
      proto3Optional := field.proto3Optional
      isMap := field.isMap }
  origin :=
    { embedSource := scope.embedSource
      oneofGroup := scope.oneofMember.map (·.1)
      oneofVariant := scope.oneofMember.map (·.2)
      sourcePath := scope.path ++ [field.name] }

/-- The plan of a field with the way its value is carried. -/
def valuePlan (ctx : PlanContext) (m : SourceMessage) (field : SourceField) (scope : Scope) :
    FieldPlan :=
  let plan := copyPlan m field scope
  let type := field.typeRef.getD ""
  if field.options.serialize then
    carriedAs plan (.scalar .bytes) ({ · with isSerialized := true }) (.serialize type)
  else
    match ctx.aliasOf? field with
    | some wrapper =>
      carriedAs plan wrapper.kind ({ · with aliasType := some wrapper.describe })
        (.typeAlias wrapper.message wrapper.field)
    | none =>
      match enumFormat? field with
      | some format =>
        carriedAs plan format.kind ({ · with enumFormat := some format })
          (.enumFormat type format)
      | none => plan

/-- The plan of a field that is not inlined. -/
def planField (ctx : PlanContext) (m : SourceMessage) (field : SourceField) (scope : Scope) :
    FieldPlan :=
  let plan := ctx.valuePlan m field scope
  match ctx.override? m field with
  | some target => plan.addStep (.override target)
  | none => plan

/-! ## Embedded messages -/

/-- Whether the options of a field ask for its message to be inlined. -/
def isInlined (field : SourceField) : Bool :=
  field.options.embeds && !field.options.serialize && field.kind == .message

/-- The scope of the fields of the message that a field embeds. -/
def innerScope (m : SourceMessage) (field : SourceField) (scope : Scope) (prefixed : Bool) :
    Scope :=
  { scope with
    path := scope.path ++ [field.name]
    namePrefix := if prefixed then scope.namePrefix ++ field.name ++ "_" else scope.namePrefix
    embedSource := scope.embedSource <|> some (m.refTo field) }

/-- The fields of the message that a field refers to, inlined down to a number of levels. -/
def embedWithin (ctx : PlanContext) : Nat → SourceMessage → SourceField → Scope → Bool →
    List FieldPlan
  | 0, _, _, _, _ => []
  | levels + 1, m, field, scope, prefixed =>
    match field.typeRef.bind ctx.schema.message? with
    | none => []
    | some target =>
      let inner := innerScope m field scope prefixed
      target.fields.flatMap fun f =>
        let plans :=
          if isInlined f then
            embedWithin ctx levels target f inner f.options.embedWithPrefix
          else [ctx.planField target f inner]
        plans.map fun plan => plan.addStep (.embed field.name inner.namePrefix)

/-- The fields of the message that a field refers to.  In a schema without embed cycles no chain
of embedded messages is longer than the list of all messages. -/
def embedField (ctx : PlanContext) (m : SourceMessage) (field : SourceField) (scope : Scope)
    (prefixed : Bool) : List FieldPlan :=
  ctx.embedWithin (ctx.schema.messages.length + 1) m field scope prefixed

/-- The Plain fields that stand for a field of a message, in order. -/
def flattenField (ctx : PlanContext) (m : SourceMessage) (field : SourceField)
    (scope : Scope) : List FieldPlan :=
  if isInlined field then ctx.embedField m field scope field.options.embedWithPrefix
  else [ctx.planField m field scope]

/-- Whether a field of a message type can be inlined: the message exists, is no map entry and no
alias. -/
def isEmbeddable (ctx : PlanContext) (type : String) : Bool :=
  (ctx.schema.alias? type).isNone && (ctx.schema.message? type).any (!·.isMapEntry)

end PlanContext

/-! ## Virtual fields and types -/

/-- The name of the Plain message of a virtual type. -/
def virtualTypeName (name suffix : String) : String :=
  Text.upperCamel name ++ suffix

/-- The type of a virtual field, which may be a virtual type of its message. -/
def virtualTypeRef (m : SourceMessage) (newFullName suffix type : String) : String :=
  if m.options.virtualTypes.any (·.name == type) then
    newFullName ++ "." ++ virtualTypeName type suffix
  else dotted type

/-- The shape of a virtual field of a message. -/
def virtualShape (m : SourceMessage) (newFullName suffix : String) (field : VirtualField) :
    FieldShape :=
  let kind := (Kind.ofName? field.kind).getD (.scalar .string)
  { name := field.name
    number := max field.number 0
    kind
    cardinality := if field.repeated then .repeated else .singular
    typeRef :=
      if kind.hasTypeRef then some (virtualTypeRef m newFullName suffix field.typeRef)
      else none }

/-- The plan of a virtual field of a message. -/
def virtualFieldPlan (m : SourceMessage) (newFullName suffix : String)
    (field : VirtualField) : FieldPlan where
  shape := virtualShape m newFullName suffix field
  origin := { isVirtual := true }
  steps := [.virtualField field.kind]

/-- The smallest number from `next` on that is not taken. -/
def firstFree (taken : List Int) (next : Int) : Int :=
  let candidates := (List.range (taken.length + 1)).map fun i => next + Int.ofNat i
  (candidates.find? fun n => !taken.contains n).getD next

/-- Shapes with the free numbers from `next` on in place of zeros. -/
def numberFrom (taken : List Int) : Int → List FieldShape → List FieldShape
  | _, [] => []
  | next, shape :: shapes =>
    if shape.number = 0 then
      let number := firstFree taken next
      { shape with number } :: numberFrom taken (number + 1) shapes
    else shape :: numberFrom taken next shapes

/-- The plan of a virtual type of a message. -/
def virtualTypePlan (m : SourceMessage) (newFullName suffix : String) (type : VirtualType) :
    VirtualTypePlan :=
  let name := virtualTypeName type.name suffix
  let shapes := type.fields.map (virtualShape m newFullName suffix)
  let taken := (shapes.map (·.number)).filter (0 < ·)
  { name, fullName := newFullName ++ "." ++ name, fields := numberFrom taken 1 shapes }

end PlainSchema
