import PlainSchema.Contract.Token
import PlainSchema.Plan.Build

/-!
# Conversion contracts

A contract says, for every field of a Plain message, how the conversion from and to the source
message treats it, and which conversions the caller has to supply.  A supplied conversion is a
caster; the names of the casters of a message are distinct identifiers.
-/

namespace PlainSchema.Contract

open Proto

/-- How a Plain field is converted. -/
inductive Conversion where
  | copy
  /-- Read and written through several field names. -/
  | path
  /-- Read from the first populated source, written through the recorded one. -/
  | merged (crfField : String) (sources : List String)
  | serialized
  /-- Unwrapped to the named field of an alias message. -/
  | typeAlias (field : String)
  | enumFormat (format : EnumFormat)
  /-- Set from nothing and never written back. -/
  | virtualField
  | role (role : Role)
  deriving DecidableEq, Repr, Inhabited

/-- A conversion that the caller supplies. -/
structure Caster where
  /-- The name of the parameter. -/
  param : String
  /-- The name of the type parameter. -/
  generic : String
  /-- The type of the Plain field. -/
  wireType : String
  /-- The type that the caster produces. -/
  targetType : String
  deriving DecidableEq, Repr, Inhabited

/-- The contract of a Plain field. -/
structure FieldContract where
  name : String
  /-- The field names that lead to the source value. -/
  path : List String
  conversion : Conversion
  caster : Option Caster
  deriving DecidableEq, Repr, Inhabited

/-- The contract of a message. -/
structure MessageContract where
  /-- The full name of the source message. -/
  source : String
  /-- The full name of the Plain message. -/
  plain : String
  fields : List FieldContract
  style : JsonStyle
  deriving DecidableEq, Repr, Inhabited

/-! ## Types -/

/-- The path of the type of a message.  Packages and enclosing messages are modules, and those
that begin with a capital letter are in snake case. -/
def messagePath (fullName : String) : String :=
  let segments := Text.split (Text.trimFront fullName '.') '.'
  let module (s : String) : String :=
    if s.toList.head?.any Char.isUpper then Text.snake s else s
  "::".intercalate (segments.dropLast.map module
    ++ [Text.upperCamel (segments.getLast?.getD "")])

/-- The type of a single value of a field. -/
def valueType (kind : Kind) (typeRef : Option String) : String :=
  match kind with
  | .scalar .double => "f64"
  | .scalar .float => "f32"
  | .scalar .int64 | .scalar .sint64 | .scalar .sfixed64 => "i64"
  | .scalar .uint64 | .scalar .fixed64 => "u64"
  | .scalar .int32 | .scalar .sint32 | .scalar .sfixed32 | .enum => "i32"
  | .scalar .uint32 | .scalar .fixed32 => "u32"
  | .scalar .bool => "bool"
  | .scalar .string => "String"
  | .scalar .bytes => "Vec<u8>"
  | .message | .group => messagePath (typeRef.getD "")

/-- The type of a Plain field.  A map is a list of its entries. -/
def wireType (shape : FieldShape) : String :=
  let value := valueType shape.kind shape.typeRef
  match shape.cardinality with
  | .repeated => "Vec<" ++ value ++ ">"
  | .optional => "Option<" ++ value ++ ">"
  | .singular | .required =>
    if shape.kind = .message || shape.proto3Optional then "Option<" ++ value ++ ">" else value

/-- The target type of an override. -/
def targetType (target : Override) : String :=
  OverrideType.codePath { name := target.name, importPath := target.importPath.getD "" }

/-! ## Fields -/

/-- How the field of a plan is converted. -/
def conversionOf (m : MessagePlan) (plan : FieldPlan) : Conversion :=
  let origin := plan.origin
  match origin.role with
  | some role => .role role
  | none =>
    if origin.isVirtual then .virtualField
    else
      match m.mergedField? plan.shape.name with
      | some entry => .merged entry.crfField entry.sources
      | none =>
        if origin.isSerialized then .serialized
        else if origin.aliasType.isSome then .typeAlias plan.aliasField
        else
          match origin.enumFormat with
          | some format => .enumFormat format
          | none => if 1 < origin.sourcePath.length then .path else .copy

/-- The caster of a field, with names that may not be usable yet. -/
def caster? (plan : FieldPlan) : Option Caster := do
  let target ← plan.override?
  guard plan.needsCaster
  return {
    param := Text.snake plan.shape.name
    generic := Text.upperCamel plan.shape.name
    wireType := wireType plan.shape
    targetType := targetType target }

/-- The contract of a field. -/
def FieldContract.ofPlan (m : MessagePlan) (plan : FieldPlan) : FieldContract where
  name := plan.shape.name
  path := plan.origin.sourcePath
  conversion := conversionOf m plan
  caster := caster? plan

/-! ## Names of casters -/

/-- The parameter names that every signature uses. -/
def takenParams : List String :=
  ["this"]

/-- The type names that every signature uses. -/
def takenGenerics : List String :=
  ["Self", "Sized", "Option", "Result", "Fn"]

/-- The type parameter for a parameter. -/
def genericName (param : String) : String :=
  let generic := Text.upperCamel param
  if isIdentifier generic then generic else "Cast" ++ generic

/-- The names to choose from for a caster, in order of preference: the base itself, then the
base with a number from two on. -/
def nameCandidates (base : String) (count : Nat) : List (String × String) :=
  (List.range count).map fun i =>
    let param := if i = 0 then base else base ++ "_" ++ toString (i + 1)
    (param, genericName param)

/-- The names of a caster beside names that are taken.  Each taken name rules out at most one
candidate. -/
def chooseNames (params generics : List String) (param : String) : String × String :=
  let base := if isIdentifier param then param else param ++ "_"
  let candidates := nameCandidates base (params.length + generics.length + 1)
  (candidates.find? fun (p, g) => !params.contains p && !generics.contains g).getD
    (base, genericName base)

/-- Fields whose casters have names that are distinct and differ from the taken ones. -/
def nameCasters (params generics : List String) : List FieldContract → List FieldContract
  | [] => []
  | field :: fields =>
    match field.caster with
    | none => field :: nameCasters params generics fields
    | some caster =>
      let (param, generic) := chooseNames params generics caster.param
      { field with caster := some { caster with param, generic } }
        :: nameCasters (param :: params) (generic :: generics) fields

/-! ## Messages -/

/-- The contract of a message plan. -/
def MessageContract.ofPlan (m : MessagePlan) (style : JsonStyle) : MessageContract where
  source := m.fullName
  plain := m.newFullName
  fields := nameCasters takenParams takenGenerics (m.fields.map (FieldContract.ofPlan m))
  style

/-- The casters of a contract, in the order of the fields. -/
def MessageContract.casters (contract : MessageContract) : List Caster :=
  contract.fields.filterMap (·.caster)

/-- Whether a field is written back into the source message. -/
def FieldContract.isReversible (field : FieldContract) : Bool :=
  match field.conversion with
  | .virtualField | .role (.dispatchTag _) | .role (.discriminator _) | .role (.crfPath _) => false
  | _ => true

/-- The fields that are written back into the source message. -/
def MessageContract.reversible (contract : MessageContract) : List FieldContract :=
  contract.fields.filter (·.isReversible)

end PlainSchema.Contract
