import PlainSchema.Plan.Basic

/-!
# Renamed types

Plain messages carry a suffix, and everything nested in a renamed message moves with it.
`Renames.resolve?` gives the new name of a type: its own entry, else the entry of the innermost
enclosing message that has one.
-/

namespace PlainSchema

/-- The name of the Plain message of a message. -/
def plainName (name suffix : String) : String :=
  name ++ suffix

/-- Entries in ascending order of their keys with one more, which replaces an earlier one of its
key. -/
def insertName (key value : String) : List (String × String) → List (String × String)
  | [] => [(key, value)]
  | (k, v) :: rest =>
    if k = key then (key, value) :: rest
    else if key < k then (key, value) :: (k, v) :: rest
    else (k, v) :: insertName key value rest

/-- The new full names of renamed types, by their old full names in ascending order. -/
structure Renames where
  messages : List (String × String) := []
  enums : List (String × String) := []
  deriving DecidableEq, Repr, Inhabited

/-- The ways to cut a text in front of a dot, the longest front first. -/
def dotCuts : List Char → List (List Char × List Char)
  | [] => []
  | c :: cs =>
    (dotCuts cs).map (fun (front, rest) => (c :: front, rest))
      ++ if c = '.' then [([], c :: cs)] else []

namespace Renames

/-- The index with one more renamed message. -/
def insertMessage (renames : Renames) (old new : String) : Renames :=
  { renames with messages := insertName old new renames.messages }

/-- The index with one more renamed enum. -/
def insertEnum (renames : Renames) (old new : String) : Renames :=
  { renames with enums := insertName old new renames.enums }

/-- The new name of exactly this message. -/
def message? (renames : Renames) (old : String) : Option String :=
  renames.messages.lookup old

/-- The new name of a type that was renamed or moved with an enclosing message. -/
def resolve? (renames : Renames) (name : String) : Option String :=
  renames.enums.lookup name <|> renames.messages.lookup name <|>
    (dotCuts name.toList).findSome? fun (front, rest) =>
      if front.isEmpty then none
      else (renames.message? (String.ofList front)).map (· ++ String.ofList rest)

/-- The new name of a type, which is its old name when it was not renamed. -/
def rename (renames : Renames) (name : String) : String :=
  (renames.resolve? name).getD name

/-- Whether the name itself was renamed away. -/
def isRenamed (renames : Renames) (name : String) : Bool :=
  (renames.messages.lookup name).isSome || (renames.enums.lookup name).isSome

/-- The number of renamed types. -/
def size (renames : Renames) : Nat :=
  renames.messages.length + renames.enums.length

/-! ## The index of a schema -/

/-- The new full name of the scope that declares a message. -/
def newScope (renames : Renames) (schema : Schema) (m : SourceMessage) : String :=
  match m.parent with
  | some parent => renames.rename parent
  | none =>
    match schema.file? m.file with
    | some file => if file.package.isEmpty then "" else "." ++ file.package
    | none => ""

/-- The index after one more message of a schema.  A generated message gets the suffix, another
one only moves with its parent. -/
def add (suffix : String) (schema : Schema) (renames : Renames) (m : SourceMessage) : Renames :=
  let name := if m.options.generate then plainName m.name suffix else m.name
  let new := renames.newScope schema m ++ "." ++ name
  if new = m.fullName then renames else renames.insertMessage m.fullName new

/-- The renames of the messages of a schema, in which parents stand before children. -/
def ofSchema (schema : Schema) (suffix : String) : Renames :=
  schema.messages.foldl (add suffix schema) {}

/-! ## Renaming references -/

/-- A shape with its type reference renamed. -/
def retargetShape (renames : Renames) (shape : FieldShape) : FieldShape :=
  { shape with typeRef := shape.typeRef.map renames.rename }

/-- A field plan with its type reference renamed.  A reference that changes is a step of the
plan. -/
def retargetPlan (renames : Renames) (plan : FieldPlan) : FieldPlan :=
  match plan.shape.typeRef.bind fun old => (renames.resolve? old).map (old, ·) with
  | some (old, new) =>
    { plan with shape := { plan.shape with typeRef := some new } }.addStep (.rename old new)
  | none => plan

end Renames

end PlainSchema
