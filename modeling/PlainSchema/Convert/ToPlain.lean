import PlainSchema.Convert.Basic
import PlainSchema.Crf.Path
import PlainSchema.Wire.Encode

/-!
# From a source message to its Plain message

Every Plain field is filled from the source message alone, so the order of the fields does not
matter, with one exception: a merged field also writes its companion, which records the path the
value was read from.  A source path that is not populated leaves the field unset.

The Plain message is written in place: what a field wrote before it failed stays in a lenient
conversion, `Flattening.leftBehind`.
-/

namespace PlainSchema

open Proto

/-! ## Values -/

/-- The text that carries an enum value: its name, or its number when it has none. -/
def EnumType.textOf (type : EnumType) (number : Int32) : String :=
  (type.name? number.toInt).getD (toString number.toInt)

/-- A source value as the Plain field carries it, before casting.  `leaf` is the field it was
read from, in `pool`; `target` is the type of the Plain field, in `plain`. -/
def FieldPlan.carry (plan : FieldPlan) (pool plain : Pool) (nested : ConvertNested)
    (leaf : Field) (target : FieldType) (value : Value) : Except ConvertError Value :=
  let invalid : Except ConvertError Value := .error (.invalidValue plan.shape.name)
  if plan.origin.isSerialized then
    eachItem (fun
      | .message m => .ok (.bytes (Wire.encode pool m))
      | _ => invalid) value
  else if plan.origin.aliasType.isSome then
    eachItem (fun
      | .message m => ((valueNamed? pool m plan.aliasField).map .ok).getD invalid
      | _ => invalid) value
  else
    match plan.origin.enumFormat with
    | some .asString =>
      match leaf.type with
      | .enum name =>
        eachItem (fun
          | .enum n => .ok (.string (((pool.enum? name).getD default).textOf n))
          | _ => invalid) value
      | _ => invalid
    | some .asInt =>
      eachItem (fun
        | .enum n => .ok (.i32 n)
        | _ => invalid) value
    | none => convertValue plain nested target value

/-! ## Sources -/

/-- A path that a Plain field can be read from. -/
structure SourcePath where
  /-- The field names from the message root to the value. -/
  names : List String
  /-- The companion field and the text that records the path in it. -/
  record : Option (String × String) := none
  deriving DecidableEq, Repr, Inhabited

/-- The paths that a Plain field can be read from, in the order in which they are tried. -/
def MessagePlan.sourcePaths (m : MessagePlan) (plan : FieldPlan) : List SourcePath :=
  match m.mergedField? plan.shape.name with
  | none => [{ names := plan.origin.sourcePath }]
  | some entry => entry.sources.map fun source =>
      { names := Crf.fieldNamesOf source, record := some (entry.crfField, source) }

/-- The first populated path, with the field it leads to and the value there. -/
def firstPopulated? (pool : Pool) (m : Message) (paths : List SourcePath) :
    Option (SourcePath × Field × Value) :=
  paths.findSome? fun path => (m.read? pool path.names).map (path, ·)

/-! ## Fields -/

/-- A conversion of one message into its Plain message. -/
structure Flattening where
  /-- The pool of the source message. -/
  pool : Pool
  /-- The pool of the Plain message. -/
  plain : Pool
  mode : Mode
  nested : ConvertNested
  /-- The plan of the message. -/
  plan : MessagePlan
  /-- The type of the Plain message. -/
  type : MessageType
  source : Message

namespace Flattening

/-- The Plain message with a field written. -/
def set (c : Flattening) (out : Message) (field : Field) (value : Value) :
    Except ConvertError Message :=
  setField c.plain out c.type field value

/-- The value at an origin as the Plain field holds it. -/
def adapted (c : Flattening) (plan : FieldPlan) (target leaf : Field) (value : Value) :
    Except ConvertError Value := do
  let carried ← plan.carry c.pool c.plain c.nested leaf target.type value
  if plan.needsCaster then c.mode.cast c.plan.newFullName plan.shape.name carried else .ok carried

/-- The Plain message with the value at an origin written. -/
def fillTarget (c : Flattening) (plan : FieldPlan) (target leaf : Field) (value : Value)
    (out : Message) : Except ConvertError Message := do
  c.set out target (← c.adapted plan target leaf value)

/-- The Plain message with the path recorded that a merged field was read from. -/
def fillCompanion (c : Flattening) (path : SourcePath) (out : Message) :
    Except ConvertError Message :=
  match path.record with
  | none => .ok out
  | some (companion, text) => do c.set out (← requireField c.type companion) (.string text)

/-- The Plain message with a field filled from the first populated path. -/
def fillValue (c : Flattening) (plan : FieldPlan) (target : Field) (out : Message) :
    Except ConvertError Message :=
  match firstPopulated? c.pool c.source (c.plan.sourcePaths plan) with
  | none => .ok out
  | some (path, leaf, value) => do
    c.fillCompanion path (← c.fillTarget plan target leaf value out)

/-- The tag that selects a member of a oneof: the first enum value it names. -/
def discriminatorOf? (member : OneofMember) : Option String :=
  member.withEnums.head?.map fun name => (Discriminator.ofName name).text

/-- The bytes of the message with nothing but one of its fields. -/
def payloadOf (c : Flattening) (field : Field) (type : MessageType) : List UInt8 :=
  Wire.encode c.pool
    (Message.set { type := c.source.type } type field (c.source.get c.pool field))

/-- The Plain message with the payload of a populated member written. -/
def fillPayload (c : Flattening) (member : OneofMember) (name : String) (target : Field)
    (out : Message) : Except ConvertError Message :=
  match c.source.type? c.pool with
  | none => .error (.invalidValue name)
  | some type =>
    match type.field? member.name with
    | none => .error (.invalidValue name)
    | some field => c.set out target (.bytes (c.payloadOf field type))

/-- The populated member of a oneof of the message, with its position. -/
def populated? (c : Flattening) (oneof : String) : Option (Nat × OneofMember) := do
  let oneof ← c.plan.oneof? oneof
  let index ← populatedMember? c.pool c.source oneof
  return (index, ← oneof.members[index]?)

/-- The Plain message with a field filled that has a role for a oneof.  Without a populated
member it stays unset. -/
def fillRole (c : Flattening) (role : Role) (target : Field) (out : Message) :
    Except ConvertError Message :=
  match role, c.populated? role.target with
  | .dispatchTag _, some (index, _) => c.set out target (.enum (Int32.ofNat (index + 1)))
  | .discriminator _, some (_, member) =>
    match discriminatorOf? member with
    | some tag => c.set out target (.string tag)
    | none => .ok out
  | .payload _, some (_, member) => c.fillPayload member target.name target out
  | _, _ => .ok out

/-- The Plain message with a field of the plan filled.  Virtual fields stay unset, and a path
companion is written with its merged field. -/
def fillField (c : Flattening) (out : Message) (plan : FieldPlan) :
    Except ConvertError Message := do
  let target ← requireField c.type plan.shape.name
  match plan.origin.role with
  | some (.crfPath _) => return out
  | some role => c.fillRole role target out
  | none => if plan.origin.isVirtual then return out else c.fillValue plan target out

/-- What a field of the plan leaves behind in the Plain message when it fails: a merged field is
written before its companion. -/
def leftBehind (c : Flattening) (out : Message) (plan : FieldPlan) : Message :=
  match requireField c.type plan.shape.name,
      firstPopulated? c.pool c.source (c.plan.sourcePaths plan) with
  | .ok target, some (_, leaf, value) =>
    if plan.isReversible then (c.fillTarget plan target leaf value out).toOption.getD out else out
  | _, _ => out

/-- The Plain message after a field of the plan, as the mode treats a field that fails. -/
def fillStep (c : Flattening) (out : Message) (plan : FieldPlan) : Except ConvertError Message :=
  c.mode.settle (c.leftBehind out plan) (c.fillField out plan)

/-- The Plain message. -/
def run (c : Flattening) : Except ConvertError Message :=
  c.plan.fields.foldlM c.fillStep { type := c.type.fullName }

end Flattening

end PlainSchema
