import PlainSchema.Diagnostic
import PlainSchema.Plan.Strategy

/-!
# Plans

A plan says which Plain messages a schema has and how every Plain field gets its value.  A field
plan holds the shape of the Plain field, where its value comes from, and the steps that led
from the source field to it.  Plans are built once and only read afterwards.
-/

namespace PlainSchema

open Proto

/-- A field of a source message. -/
structure FieldRef where
  /-- The full name of the declaring message. -/
  message : String
  name : String
  number : Int
  deriving DecidableEq, Repr, Inhabited

/-- The shape of a Plain field. -/
structure FieldShape where
  name : String
  /-- Zero until numbers are assigned. -/
  number : Int := 0
  kind : Kind
  cardinality : Cardinality := .singular
  typeRef : Option String := none
  /-- The position of the containing oneof of the Plain message. -/
  oneofIndex : Option Nat := none
  proto3Optional : Bool := false
  isMap : Bool := false
  deriving DecidableEq, Repr, Inhabited

/-- How a field of an enum type is carried. -/
inductive EnumFormat where
  /-- A text field holds the name of the value. -/
  | asString
  /-- An integer field holds the number of the value. -/
  | asInt
  deriving DecidableEq, Repr, Inhabited

/-- The word for an enum format. -/
def EnumFormat.name : EnumFormat → String
  | .asString => "as_string"
  | .asInt => "as_int"

/-- The kind of the field that carries an enum value in a format. -/
def EnumFormat.kind : EnumFormat → Kind
  | .asString => .scalar .string
  | .asInt => .scalar .int32

/-- What a field without a source field of its own is for. -/
inductive Role where
  /-- The enum that names the populated member of a oneof. -/
  | dispatchTag (oneof : String)
  /-- The text that names an enum value for the populated member. -/
  | discriminator (oneof : String)
  /-- The serialized member of a discriminated oneof. -/
  | payload (oneof : String)
  /-- The source path of a merged field. -/
  | crfPath (field : String)
  deriving DecidableEq, Repr, Inhabited

/-- Where the value of a Plain field comes from. -/
structure Origin where
  /-- The field exists only in the Plain message. -/
  isVirtual : Bool := false
  /-- The outermost field that was inlined to produce this one. -/
  embedSource : Option FieldRef := none
  /-- The alias message with its scalar, such as `.pkg.UserId(string)`. -/
  aliasType : Option String := none
  isSerialized : Bool := false
  /-- The oneof the field belongs to. -/
  oneofGroup : Option String := none
  /-- The member of that oneof the field belongs to. -/
  oneofVariant : Option String := none
  /-- The enum values that select members, for discriminated oneofs. -/
  oneofEnums : List String := []
  enumFormat : Option EnumFormat := none
  role : Option Role := none
  /-- The field names from the message root to the source value. -/
  sourcePath : List String := []
  deriving DecidableEq, Repr, Inhabited

/-- What asked for a type override. -/
inductive OverrideCause where
  | field
  | file
  | discriminator
  | payload
  /-- The plan was made by hand. -/
  | given
  deriving DecidableEq, Repr, Inhabited

/-- A type override as it stands in a field plan. -/
structure Override where
  cause : OverrideCause
  name : String
  importPath : Option String := none
  /-- The conversion is built in and needs no caster. -/
  known : Bool := false
  deriving DecidableEq, Repr, Inhabited

/-- A step on the way from a source field to a Plain field. -/
inductive Step where
  /-- The type reference follows a renamed message. -/
  | rename (old new : String)
  /-- The field of an alias message stands for the message. -/
  | typeAlias (wrapper field : String)
  /-- The message is carried as its bytes. -/
  | serialize (type : String)
  /-- The field was inlined from a message field, behind a name prefix. -/
  | embed (source namePrefix : String)
  | override (target : Override)
  /-- The enum value is carried as a scalar. -/
  | enumFormat (enum : String) (format : EnumFormat)
  | virtualField (kind : String)
  | dispatchTag (enum : String)
  | crfPath (field : String)
  /-- A second source path was merged into the field. -/
  | merge (source : String)
  deriving DecidableEq, Repr, Inhabited

/-- The plan for a Plain field. -/
structure FieldPlan where
  /-- The innermost source field, absent for fields that have none. -/
  source : Option FieldRef := none
  shape : FieldShape
  origin : Origin := {}
  /-- The steps in the order in which they were taken. -/
  steps : List Step := []
  deriving DecidableEq, Repr, Inhabited

/-- A member of a oneof. -/
structure OneofMember where
  name : String
  /-- The enum values that select the member, without leading dots. -/
  withEnums : List String := []
  deriving DecidableEq, Repr, Inhabited

/-- The enum and the field that name the populated member of a oneof. -/
structure DispatchPlan where
  enumFullName : String
  fieldName : String
  withPrefix : Bool
  deriving DecidableEq, Repr, Inhabited

/-- The plan for a source oneof. -/
structure OneofPlan where
  name : String
  strategy : Strategy
  members : List OneofMember
  dispatch : Option DispatchPlan := none
  /-- The names of the member fields begin with the name of the oneof. -/
  prefixed : Bool := false
  /-- The position in the Plain message of a copied oneof. -/
  newIndex : Option Nat := none
  deriving DecidableEq, Repr, Inhabited

/-- An enum made for a dispatched oneof. -/
structure GeneratedEnum where
  name : String
  fullName : String
  values : List (String × Int)
  deriving DecidableEq, Repr, Inhabited

/-- A message that only the Plain schema has. -/
structure VirtualTypePlan where
  name : String
  fullName : String
  fields : List FieldShape
  deriving DecidableEq, Repr, Inhabited

/-- The origins of a merged field. -/
structure CrfEntry where
  field : String
  /-- The companion that holds the path of the populated origin. -/
  crfField : String
  /-- The origin paths in the order of declaration; the first one is the default. -/
  sources : List String
  deriving DecidableEq, Repr, Inhabited

/-- The plan for a message. -/
structure MessagePlan where
  fullName : String
  newFullName : String
  name : String
  newName : String
  file : String
  /-- Whether there is a Plain message; without one the plan has no fields. -/
  generate : Bool
  isMapEntry : Bool
  /-- The Plain fields in their final order. -/
  fields : List FieldPlan := []
  /-- One plan for each source oneof. -/
  oneofs : List OneofPlan := []
  /-- The names of the fields that only the Plain message has. -/
  virtualFields : List String := []
  enums : List GeneratedEnum := []
  virtualTypes : List VirtualTypePlan := []
  crf : List CrfEntry := []
  deriving DecidableEq, Repr, Inhabited

/-! ## Reading plans -/

/-- The name of the source message or oneof, or of the merged field, that a role serves. -/
def Role.target : Role → String
  | .dispatchTag oneof | .discriminator oneof | .payload oneof => oneof
  | .crfPath field => field

/-- The override of an override step. -/
def Step.override? : Step → Option Override
  | .override target => some target
  | _ => none

/-- The field that an alias step unwraps. -/
def Step.aliasField? : Step → Option String
  | .typeAlias _ field => some field
  | _ => none

namespace FieldPlan

/-- The plan with one more step. -/
def addStep (plan : FieldPlan) (step : Step) : FieldPlan :=
  { plan with steps := plan.steps ++ [step] }

/-- The override that counts, which is the last one. -/
def override? (plan : FieldPlan) : Option Override :=
  (plan.steps.filterMap Step.override?).getLast?

/-- Whether the conversion of the field is supplied by the caller. -/
def needsCaster (plan : FieldPlan) : Bool :=
  plan.override?.any fun target => !target.known

/-- Whether the field has a way back into the source message. -/
def isReversible (plan : FieldPlan) : Bool :=
  !plan.origin.isVirtual && plan.origin.role.isNone

/-- The field of the alias message that the plan unwraps. -/
def aliasField (plan : FieldPlan) : String :=
  (plan.steps.findSome? Step.aliasField?).getD "value"

end FieldPlan

/-- The path that counts when no other one is recorded. -/
def CrfEntry.defaultSource? (entry : CrfEntry) : Option String :=
  entry.sources.head?

namespace MessagePlan

/-- The plan of the Plain field with a name. -/
def field? (m : MessagePlan) (name : String) : Option FieldPlan :=
  m.fields.find? (·.shape.name == name)

/-- The plan of the oneof with a name. -/
def oneof? (m : MessagePlan) (name : String) : Option OneofPlan :=
  m.oneofs.find? (·.name == name)

/-- The origins of the merged field with a name. -/
def mergedField? (m : MessagePlan) (field : String) : Option CrfEntry :=
  m.crf.find? (·.field == field)

end MessagePlan

end PlainSchema
