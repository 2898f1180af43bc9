import PlainSchema.Crf.Path
import PlainSchema.Plan.Basic
import PlainSchema.Text.Quoted

/-!
# Colliding fields

Flattening can give several source fields one Plain name.  Unless merging is enabled that is an
error.  Merged, the first field stays, the origins of all are recorded, and a companion text
field beside it says which of them a value came from.
-/

namespace PlainSchema

open Proto

/-- The name of the companion of a merged field. -/
def companionName (field : String) : String :=
  field ++ "CRF"

/-- The origin of a plan as a path.  The segment of a oneof member is marked with the oneof; a
field without an origin has a placeholder. -/
def FieldPlan.originPath (plan : FieldPlan) : String :=
  match plan.origin.sourcePath with
  | [] =>
    if plan.origin.isVirtual then "<virtual " ++ plan.shape.name ++ ">"
    else "<synthetic " ++ plan.shape.name ++ ">"
  | first :: rest =>
    let segment : Crf.Segment := { name := first }
    let segment :=
      match plan.origin.oneofGroup with
      | some group => segment.withMarker "oneof" group
      | none => segment
    Crf.Path.render ⟨segment :: (Crf.Path.ofNames rest).segments⟩

/-- Why fields of one name cannot be one field. -/
inductive CollisionReason where
  /-- Merging is not enabled. -/
  | disabled
  | notReversible
  | differentTypes
  | differentCardinalities
  | differentOverrides
  /-- Another field has the name of the companion. -/
  | companionTaken
  deriving DecidableEq, Repr

/-- The text of a reason. -/
def CollisionReason.text : CollisionReason → String
  | disabled => "duplicate field name and collision resolution is disabled"
  | notReversible => "virtual and synthesized fields cannot be merged"
  | differentTypes => "merged fields must have the same type"
  | differentCardinalities => "merged fields must have the same cardinality"
  | differentOverrides => "merged fields must have the same type override"
  | companionTaken => "collision resolution field name is already taken"

/-- A collision that was not resolved. -/
structure CollisionError where
  /-- The full name of the message that is being planned. -/
  message : String
  field : String
  /-- The origins of the fields of that name. -/
  sources : List String
  reason : CollisionReason
  deriving DecidableEq, Repr

namespace CollisionError

/-- The text of a collision error. -/
def text (e : CollisionError) : String :=
  "field " ++ Text.quoted e.field ++ " of " ++ e.message ++ " is produced by "
    ++ ", ".intercalate e.sources ++ ": " ++ e.reason.text

/-- The collision as a finding. -/
def diagnostic (e : CollisionError) : Diagnostic :=
  .error (e.message ++ "." ++ e.field) (e.reason.text ++ ": " ++ ", ".intercalate e.sources)

end CollisionError

/-- Why a plan cannot be merged into one that was kept. -/
def incompatibility? (kept other : FieldPlan) : Option CollisionReason :=
  if !kept.isReversible || !other.isReversible then some .notReversible
  else if kept.shape.kind ≠ other.shape.kind ∨ kept.shape.typeRef ≠ other.shape.typeRef
      ∨ kept.shape.isMap ≠ other.shape.isMap then some .differentTypes
  else if (kept.shape.cardinality = .repeated) ≠ (other.shape.cardinality = .repeated) then
    some .differentCardinalities
  else if kept.override?.map (·.name) ≠ other.override?.map (·.name) then
    some .differentOverrides
  else none

/-- The companion of a merged field. -/
def companionPlan (field : String) : FieldPlan where
  shape := { name := companionName field, kind := .scalar .string }
  origin := { role := some (.crfPath field) }
  steps := [.crfPath field]

/-- The origins of all plans of a name. -/
def originsOf (plans : List FieldPlan) (name : String) : List String :=
  (plans.filter (·.shape.name == name)).map (·.originPath)

/-- The plans kept so far, with the origins of the merged ones. -/
structure Merging where
  kept : List FieldPlan := []
  entries : List CrfEntry := []
  deriving DecidableEq, Repr, Inhabited

namespace Merging

/-- The entries after one more origin of a merged field whose first origin is given. -/
def addOrigin (field first origin : String) : List CrfEntry → List CrfEntry
  | [] =>
    let sources := if origin = first then [first] else [first, origin]
    [{ field, crfField := companionName field, sources }]
  | entry :: entries =>
    if entry.field = field then
      (if entry.sources.contains origin then entry
        else { entry with sources := entry.sources ++ [origin] }) :: entries
    else entry :: addOrigin field first origin entries

/-- The plans with one more step on the first of a name. -/
def addStepTo (name : String) (step : Step) : List FieldPlan → List FieldPlan
  | [] => []
  | plan :: plans =>
    if plan.shape.name = name then plan.addStep step :: plans
    else plan :: addStepTo name step plans

/-- The merging after one more plan, which is kept when its name is new. -/
def add (message : String) (plans : List FieldPlan) (merging : Merging) (plan : FieldPlan) :
    Except CollisionError Merging :=
  let name := plan.shape.name
  match merging.kept.find? (·.shape.name == name) with
  | none => .ok { merging with kept := merging.kept ++ [plan] }
  | some first =>
    match incompatibility? first plan with
    | some reason => .error { message, field := name, sources := originsOf plans name, reason }
    | none =>
      let origin := plan.originPath
      .ok
        { kept := addStepTo name (.merge origin) merging.kept
          entries := addOrigin name first.originPath origin merging.entries }

/-- A kept plan with its companion, if it was merged. -/
def withCompanion (message : String) (merging : Merging) (plan : FieldPlan) :
    Except CollisionError (List FieldPlan) :=
  match merging.entries.find? (·.field == plan.shape.name) with
  | none => .ok [plan]
  | some entry =>
    if merging.kept.any (·.shape.name == entry.crfField) then
      .error
        { message, field := entry.crfField, sources := entry.sources, reason := .companionTaken }
    else .ok [plan, companionPlan entry.field]

end Merging

/-- The first plan whose name another plan has too. -/
def firstCollision? (plans : List FieldPlan) : Option FieldPlan :=
  plans.find? fun plan => 1 < (originsOf plans plan.shape.name).length

/-- The plans of a message with the colliding ones merged, and the origins of the merged fields;
an error when there is a collision and merging is not enabled or not possible. -/
def resolveCollisions (message : String) (plans : List FieldPlan) (enableCrf : Bool) :
    Except CollisionError (List FieldPlan × List CrfEntry) := do
  if enableCrf then
    let merging ← plans.foldlM (Merging.add message plans) {}
    let out ← merging.kept.mapM (merging.withCompanion message)
    return (out.flatten, merging.entries)
  else
    match firstCollision? plans with
    | none => return (plans, [])
    | some plan =>
      let field := plan.shape.name
      .error { message, field, sources := originsOf plans field, reason := .disabled }

end PlainSchema
