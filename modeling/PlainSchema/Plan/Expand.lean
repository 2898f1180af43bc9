import PlainSchema.Plan.Flatten

/-!
# Dissolving oneofs

A oneof that is not copied is replaced by Plain fields: those of all its members, preceded by
the enum field that dispatches between them, or a discriminator and a payload.  The members are
taken in the order in which the message lists its fields.
-/

namespace PlainSchema

open Proto

/-- The members of the oneof at an index. -/
def SourceMessage.oneofMembers (m : SourceMessage) (index : Nat) : List OneofMember :=
  (m.oneofFields index).map fun field =>
    { name := field.name
      withEnums := field.options.withEnums.map (Text.trimFront · '.') }

/-- The plan of a oneof that is copied. -/
def SourceMessage.untouchedPlan (m : SourceMessage) (index : Nat) (newIndex : Option Nat) :
    OneofPlan where
  name := ((m.oneof? index).map (·.name)).getD ""
  strategy := .untouched
  members := m.oneofMembers index
  newIndex := newIndex

/-- What a dissolved oneof is replaced by. -/
structure Expansion where
  plan : OneofPlan
  /-- The Plain fields in place of the members. -/
  fields : List FieldPlan := []
  generatedEnum : Option GeneratedEnum := none
  deriving DecidableEq, Repr, Inhabited

/-- The plan of a field that serves a oneof as a whole. -/
def oneofFieldPlan (name : String) (kind : Kind) (oneof : String) (role : Role) (step : Step)
    (typeRef : Option String) (enums : List String) : FieldPlan where
  shape := { name, kind, typeRef }
  origin := { oneofGroup := some oneof, role := some role, oneofEnums := enums }
  steps := [step]

/-! ## Discriminators and payloads -/

/-- The type of discriminator fields. -/
def discriminatorOverride : Override where
  cause := .discriminator
  name := "EnumDiscriminator"
  importPath := some "plain_runtime::discriminator"
  known := true

/-- The type of payload fields. -/
def payloadOverride : Override where
  cause := .payload
  name := "any"
  importPath := some ""
  known := true

/-- The discriminator and the payload of a oneof. -/
def discriminatorPlans (oneof : String) (members : List OneofMember) : List FieldPlan :=
  let enums := members.flatMap (·.withEnums)
  [oneofFieldPlan (oneof ++ "_disc") (.scalar .string) oneof (.discriminator oneof)
      (.override discriminatorOverride) none enums,
    oneofFieldPlan oneof (.scalar .bytes) oneof (.payload oneof)
      (.override payloadOverride) none enums]

/-! ## Dispatch enums -/

/-- The name of the enum that dispatches a oneof. -/
def dispatchEnumName (oneof : String) : String :=
  Text.upperCamel oneof ++ "Type"

/-- The enum that dispatches a oneof.  Zero selects no member, and the number `i + 1` the member
at position `i`. -/
def dispatchEnum (oneof : String) (members : List OneofMember) (newFullName : String) :
    GeneratedEnum :=
  let name := dispatchEnumName oneof
  let valuePrefix := Text.upperSnake name ++ "_"
  { name
    fullName := newFullName ++ "." ++ name
    values := (valuePrefix ++ "UNSPECIFIED", 0)
      :: members.mapIdx fun i m => (valuePrefix ++ Text.upperSnake m.name, Int.ofNat i + 1) }

/-- The enum and the field that dispatch a oneof. -/
def dispatchPlan (oneof : SourceOneof) (enum : GeneratedEnum) : DispatchPlan :=
  let withPrefix := oneof.options.enumDispatchedWithPrefix
  { enumFullName := enum.fullName
    fieldName :=
      if withPrefix then oneof.name ++ "_" ++ oneof.name ++ "_type" else oneof.name ++ "_type"
    withPrefix }

/-- The plan of the field that dispatches a oneof. -/
def dispatchTagPlan (oneof : String) (dispatch : DispatchPlan) : FieldPlan :=
  oneofFieldPlan dispatch.fieldName .enum oneof (.dispatchTag oneof)
    (.dispatchTag dispatch.enumFullName) (some dispatch.enumFullName) []

/-! ## Members -/

/-- A plan whose field records that it was set, so that the populated member shows. -/
def FieldPlan.tracked (plan : FieldPlan) : FieldPlan :=
  { plan with shape := { plan.shape with cardinality := .optional, proto3Optional := true } }

namespace PlanContext

/-- The Plain fields of a member of a oneof.  Messages are inlined wherever that is possible. -/
def memberPlans (ctx : PlanContext) (m : SourceMessage) (oneof namePrefix : String)
    (member : SourceField) : List FieldPlan :=
  let scope := { Scope.member oneof member.name with namePrefix }
  if member.kind = .message && !member.options.serialize
      && member.typeRef.any ctx.isEmbeddable then
    ctx.embedField m member scope member.options.embedWithPrefix
  else (ctx.flattenField m member scope).map (·.tracked)

/-- The Plain fields of all members of the oneof at an index. -/
def membersPlans (ctx : PlanContext) (m : SourceMessage) (index : Nat) (oneof : SourceOneof)
    (prefixed : Bool) : List FieldPlan :=
  let namePrefix := if prefixed then oneof.name ++ "_" else ""
  (m.oneofFields index).flatMap (ctx.memberPlans m oneof.name namePrefix)

/-- What the oneof at an index is replaced by under a strategy. -/
def expand (ctx : PlanContext) (m : SourceMessage) (index : Nat) (strategy : Strategy)
    (newFullName : String) : Expansion :=
  let oneof := (m.oneof? index).getD { name := "" }
  let members := m.oneofMembers index
  let prefixed := oneof.options.embedWithPrefix || oneof.options.enumDispatchedWithPrefix
  let plan : OneofPlan := { name := oneof.name, strategy, members, prefixed }
  match strategy with
  | .untouched => { plan }
  | .discriminatorOnly => { plan, fields := discriminatorPlans oneof.name members }
  | .embedOnly => { plan, fields := ctx.membersPlans m index oneof prefixed }
  | .enumDispatch =>
    let enum := dispatchEnum oneof.name members newFullName
    let dispatch := dispatchPlan oneof enum
    { plan := { plan with dispatch := some dispatch }
      fields := dispatchTagPlan oneof.name dispatch :: ctx.membersPlans m index oneof prefixed
      generatedEnum := some enum }

end PlanContext

end PlainSchema
