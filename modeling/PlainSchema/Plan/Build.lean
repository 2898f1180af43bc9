import PlainSchema.Plan.Collision
import PlainSchema.Plan.Expand
import PlainSchema.Plan.Numbering
import PlainSchema.Plan.Renames
import PlainSchema.Settings
import PlainSchema.Validate

/-!
# Planning a schema

`Schema.plan` checks the options, plans every generated message, and then renames the type
references of all plans.  The plan depends on the schema and the settings only.
-/

namespace PlainSchema

open Proto

/-- The plan of a whole schema. -/
structure SchemaPlan where
  /-- The suffix of Plain message names. -/
  suffix : String
  /-- One plan for each message, in the order of the schema. -/
  messages : List MessagePlan
  renames : Renames
  /-- The findings, none of which is an error. -/
  diagnostics : List Diagnostic
  deriving DecidableEq, Repr, Inhabited

namespace SchemaPlan

/-- The plan of the message with a full name. -/
def message? (plan : SchemaPlan) (fullName : String) : Option MessagePlan :=
  plan.messages.find? (·.fullName == fullName)

/-- The plan of the generated message whose Plain message has a full name. -/
def messageByNewName? (plan : SchemaPlan) (newFullName : String) : Option MessagePlan :=
  plan.messages.find? fun m => m.generate && m.newFullName == newFullName

/-- The plans of the messages that have Plain messages. -/
def generated (plan : SchemaPlan) : List MessagePlan :=
  plan.messages.filter (·.generate)

end SchemaPlan

/-- Why there is no plan. -/
inductive PlanError where
  /-- The findings about a schema, one of which is an error. -/
  | invalidOptions (findings : List Diagnostic)
  /-- Errors about the numbers of the Plain fields of one message. -/
  | invalidNumbers (findings : List Diagnostic)
  | collision (error : CollisionError)
  deriving DecidableEq, Repr

namespace PlanError

/-- The text of a plan error. -/
def message : PlanError → String
  | invalidOptions findings => "invalid options: " ++ Diagnostic.summary findings
  | invalidNumbers findings => "invalid field numbers: " ++ Diagnostic.summary findings
  | collision error => error.text

/-- The findings that explain a plan error. -/
def diagnostics : PlanError → List Diagnostic
  | invalidOptions findings | invalidNumbers findings => findings
  | collision error => [error.diagnostic]

end PlanError

/-! ## The fields of a message -/

/-- What planning the fields of a message has produced so far. -/
structure Expanding where
  plans : List FieldPlan := []
  enums : List GeneratedEnum := []
  /-- The plans of the oneofs met so far, by position. -/
  oneofs : List (Nat × OneofPlan) := []
  deriving DecidableEq, Repr, Inhabited

namespace Expanding

/-- The number of oneofs met so far that are copied. -/
def keptCount (e : Expanding) : Nat :=
  (e.oneofs.filter fun oneof => !oneof.2.strategy.flattens).length

/-- After a field of a oneof that is dissolved.  The whole group lands where its first member
stands. -/
def addDissolved (ctx : PlanContext) (m : SourceMessage) (newFullName : String) (index : Nat)
    (e : Expanding) : Expanding :=
  if (e.oneofs.lookup index).isSome then e
  else
    let expansion := ctx.expand m index (m.strategy index) newFullName
    { plans := e.plans ++ expansion.fields
      enums := e.enums ++ expansion.generatedEnum.toList
      oneofs := e.oneofs ++ [(index, expansion.plan)] }

/-- After a field of a oneof that is copied. -/
def addKept (ctx : PlanContext) (m : SourceMessage) (index : Nat) (field : SourceField)
    (e : Expanding) : Expanding :=
  let known := (e.oneofs.lookup index).bind (·.newIndex)
  let newIndex := known.getD e.keptCount
  let plans := (ctx.flattenField m field {}).map fun plan =>
    { plan with shape := { plan.shape with oneofIndex := some newIndex } }
  { e with
    plans := e.plans ++ plans
    oneofs :=
      if known.isSome then e.oneofs
      else e.oneofs ++ [(index, m.untouchedPlan index (some newIndex))] }

/-- After one more field of a message.  The oneof of an optional field does not count. -/
def addField (ctx : PlanContext) (m : SourceMessage) (newFullName : String) (e : Expanding)
    (field : SourceField) : Expanding :=
  let direct := { e with plans := e.plans ++ ctx.flattenField m field {} }
  match field.oneofIndex with
  | none => direct
  | some index =>
    if (m.strategy index).flattens then e.addDissolved ctx m newFullName index
    else if (m.oneof? index).any (!·.synthetic) then e.addKept ctx m index field
    else direct

end Expanding

/-- What the fields of a message are replaced by, before collisions are resolved. -/
def expandFields (ctx : PlanContext) (m : SourceMessage) (newFullName : String) : Expanding :=
  m.fields.foldl (Expanding.addField ctx m newFullName) {}

/-! ## Messages -/

/-- The last part of a full name. -/
def lastName (fullName : String) : String :=
  ((Text.splitLast? fullName '.').map (·.2)).getD fullName

/-- The plan of a message without its fields. -/
def MessagePlan.outline (renames : Renames) (m : SourceMessage) : MessagePlan :=
  let newFullName := renames.rename m.fullName
  { fullName := m.fullName
    newFullName
    name := m.name
    newName := lastName newFullName
    file := m.file
    generate := m.options.generate
    isMapEntry := m.isMapEntry }

/-- The plan of a generated message whose outline is given, with type references not yet
renamed. -/
def SourceMessage.plan (m : SourceMessage) (schema : Schema) (settings : Settings)
    (outline : MessagePlan) : Except PlanError MessagePlan := do
  let new := outline.newFullName
  let expanded := expandFields (PlanContext.ofFile schema m.file) m new
  let virtuals := m.options.virtualFields.map (virtualFieldPlan m new settings.suffix)
  let plans := expanded.plans ++ virtuals
  match resolveCollisions m.fullName plans settings.enableCrf with
  | .error error => .error (.collision error)
  | .ok (merged, crf) =>
    let fields := assignNumbers merged
    let problems := numberProblems fields
    if !problems.isEmpty then
      .error (.invalidNumbers (problems.map (Diagnostic.error m.fullName)))
    else
      .ok
        { outline with
          fields
          oneofs := m.oneofs.mapIdx fun i _ =>
            (expanded.oneofs.lookup i).getD (m.untouchedPlan i none)
          virtualFields := (fields.filter (·.origin.isVirtual)).map (·.shape.name)
          enums := expanded.enums
          virtualTypes := m.options.virtualTypes.map (virtualTypePlan m new settings.suffix)
          crf }

/-- The plan of a message with the type references of its Plain fields renamed. -/
def MessagePlan.rename (renames : Renames) (m : MessagePlan) : MessagePlan :=
  { m with
    fields := m.fields.map renames.retargetPlan
    virtualTypes := m.virtualTypes.map fun type =>
      { type with fields := type.fields.map renames.retargetShape } }

/-- The plan of a schema, or the reason why there is none. -/
def Schema.plan (schema : Schema) (settings : Settings) : Except PlanError SchemaPlan := do
  let diagnostics := schema.findings
  if diagnostics.any (·.isError) then .error (.invalidOptions diagnostics)
  let renames := Renames.ofSchema schema settings.suffix
  let messages ← schema.messages.mapM fun m =>
    let outline := MessagePlan.outline renames m
    if m.options.generate then m.plan schema settings outline else .ok outline
  return {
    suffix := settings.suffix
    messages := messages.map (MessagePlan.rename renames)
    renames
    diagnostics }

end PlainSchema
