import PlainSchema.Convert.Basic
import PlainSchema.Crf.Path
import PlainSchema.Value.InPlace
import PlainSchema.Wire.Decode

/-!
# From a Plain message to its source message

The fields of the plan are written back one after another.  A merged field goes through the path
that its companion records, or else through the member that the tag of its oneof selects, or else
through its default path.  A write is refused when it contradicts a tag, or when it would clear
another member of a oneof inside an embedded message.

The source message is written in place.  A field that fails is left out of a lenient conversion, but
what its write created before it failed stays, `Restoring.leftBehind`.
-/

namespace PlainSchema

open Proto

/-! ## Values -/

/-- The number of the enum value that a text carries: a name, or a decimal number. -/
def EnumType.numberOf? (type : EnumType) (text : String) : Option Int :=
  type.number? text <|> Text.integer? (-2147483648) 2147483647 text

/-- The value of a Plain field as its source field holds it, after casting.  `leaf` is the
source field, in `source`. -/
def FieldPlan.uncarry (plan : FieldPlan) (source : Pool) (nested : ConvertNested)
    (leaf : Field) (value : Value) : Except ConvertError Value :=
  let name := plan.shape.name
  let invalid : Except ConvertError Value := .error (.invalidValue name)
  if plan.origin.isSerialized then
    match leaf.type with
    | .message type _ =>
      eachItem (fun
        | .bytes bytes =>
          match Wire.decode? source type bytes with
          | some m => .ok (.message m)
          | none => .error (.malformedPayload name)
        | _ => invalid) value
    | _ => invalid
  else if plan.origin.aliasType.isSome then
    match source.messageTypeOf? leaf with
    | some type =>
      eachItem (fun inner =>
        match type.field? plan.aliasField with
        | some field =>
          ((({ type := type.fullName } : Message).set? source type field inner).map fun m =>
            Except.ok (Value.message m)).getD invalid
        | none => invalid) value
    | none => invalid
  else
    match plan.origin.enumFormat with
    | some .asString =>
      match leaf.type with
      | .enum type =>
        eachItem (fun
          | .string text =>
            match ((source.enum? type).getD default).numberOf? text with
            | some n => .ok (.enum (Int32.ofInt n))
            | none => .error (.unknownEnumValue name text)
          | _ => invalid) value
      | _ => invalid
    | some .asInt =>
      eachItem (fun
        | .i32 n => .ok (.enum n)
        | _ => invalid) value
    | none => convertValue source nested leaf.type value

/-! ## Selected members -/

/-- The member of a oneof that its tag selects.  Zero and a missing tag select none. -/
def selectedMember (pool : Pool) (m : Message) (oneof : OneofPlan) :
    Except ConvertError (Option OneofMember) :=
  match oneof.dispatch.bind fun dispatch => valueNamed? pool m dispatch.fieldName with
  | some (.enum tag) =>
    let number := tag.toInt
    if number = 0 then .ok none
    else
      match if 0 < number then oneof.members[(number - 1).toNat]? else none with
      | some member => .ok (some member)
      | none => .error (.unknownDiscriminator oneof.name (toString number))
  | _ => .ok none

/-- Selected members by the names of their oneofs. -/
abbrev Selection := List (String × OneofMember)

/-- The selected members of the oneofs of a plan. -/
def selectMembers (mode : Mode) (pool : Pool) (m : Message) (oneofs : List OneofPlan) :
    Except ConvertError Selection :=
  oneofs.foldlM (fun selection oneof => mode.settle selection do
    match ← selectedMember pool m oneof with
    | some member => return selection ++ [(oneof.name, member)]
    | none => return selection) []

/-! ## Oneofs inside embedded messages -/

/-- Whether a oneof holds nothing but optional fields, so that each one stands alone. -/
def MessageType.isSynthetic (type : MessageType) (index : Nat) : Bool :=
  (type.oneofFields index).all (·.proto3Optional)

/-- The error that another member of the oneof of a field holds values. -/
def siblingConflict? (pool : Pool) (m : Message) (type : MessageType) (field : Field) :
    Option ConvertError := do
  let index ← field.oneof
  guard !(type.isSynthetic index)
  let other ← (type.oneofFields index).find? fun other =>
    other.number != field.number && m.has pool other
  let oneof ← type.oneofs[index]?
  return .memberConflict (type.fullName ++ "." ++ oneof.name) other.name field.name

/-- The conflict that a write through a path meets in the messages that are already there; the
message at the start of the path is looked at only if `inside` holds. -/
def pathConflict? (pool : Pool) (inside : Bool) :
    Message → List String → Option ConvertError
  | _, [] => none
  | m, name :: rest => do
    let type ← m.type? pool
    let field ← type.field? name
    let deeper : Option ConvertError :=
      match m.get? pool field with
      | some (.message child) => pathConflict? pool true child rest
      | _ => none
    if inside then siblingConflict? pool m type field <|> deeper else deeper

/-! ## Fields -/

/-- A value on its way into a source message. -/
structure Write where
  /-- The field names from the message root to the place of the value. -/
  path : List String
  value : Value

/-- The error that a path leads nowhere, or to a field that the value does not fit. -/
def unwritable (name : String) (path : List String) : ConvertError :=
  .unwritable name ("/".intercalate path)

/-- A conversion of one Plain message back into its source message. -/
structure Restoring where
  /-- The pool of the Plain message. -/
  pool : Pool
  /-- The pool of the source message. -/
  source : Pool
  mode : Mode
  nested : ConvertNested
  /-- The plan of the message. -/
  plan : MessagePlan
  /-- The type of the source message. -/
  type : MessageType
  plain : Message

namespace Restoring

/-- The path that the companion of a merged field records, empty when there is none. -/
def recordedPath (c : Restoring) (entry : CrfEntry) : List String :=
  match valueNamed? c.pool c.plain entry.crfField with
  | some (.string text) => Crf.fieldNamesOf text
  | _ => []

/-- The path that a Plain field is written back through. -/
def writePath (c : Restoring) (plan : FieldPlan) (selected : Option OneofMember) :
    List String :=
  match c.plan.mergedField? plan.shape.name with
  | none => plan.origin.sourcePath
  | some entry =>
    let recorded := c.recordedPath entry
    if !recorded.isEmpty then recorded
    else
      let ofMember := selected.bind fun member =>
        (entry.sources.map Crf.fieldNamesOf).find? (·.head? == some member.name)
      ofMember.getD plan.origin.sourcePath

/-- Refuses a path that starts with another member than the selected one. -/
def checkSelected (plan : FieldPlan) (selected : Option OneofMember) (path : List String) :
    Except ConvertError Unit :=
  match plan.origin.oneofGroup, selected, path.head? with
  | some oneof, some member, some found =>
    if member.name = found then .ok ()
    else .error (.dispatchMismatch oneof member.name found)
  | _, _, _ => .ok ()

/-- The write that puts the value of a Plain field back; a field that is not set asks for none. -/
def adapted (c : Restoring) (selection : Selection) (plan : FieldPlan) :
    Except ConvertError (Option Write) := do
  let name := plan.shape.name
  let type ← ((c.plain.type? c.pool).map .ok).getD (.error (.invalidValue name))
  let field ← requireField type name
  match c.plain.get? c.pool field with
  | none => return none
  | some value =>
    let selected := plan.origin.oneofGroup.bind fun oneof => List.lookup oneof selection
    let path := c.writePath plan selected
    checkSelected plan selected path
    match c.source.resolvePath c.type path with
    | none => .error (unwritable name path)
    | some leaf =>
      let value ←
        if plan.needsCaster then c.mode.cast c.plan.newFullName name value else .ok value
      return some { path, value := ← plan.uncarry c.source c.nested leaf value }

/-- The source message after the write of a Plain field. -/
def commit (c : Restoring) (name : String) (out : Message) (write : Write) :
    Except ConvertError Message :=
  match pathConflict? c.source false out write.path with
  | some conflict => .error conflict
  | none =>
    match out.write? c.source write.path write.value with
    | some out => .ok out
    | none => .error (unwritable name write.path)

/-- The source message with the value of a Plain field written back, if it is set. -/
def restoreValue (c : Restoring) (selection : Selection) (plan : FieldPlan) (out : Message) :
    Except ConvertError Message := do
  match ← c.adapted selection plan with
  | none => return out
  | some write => c.commit plan.shape.name out write

/-- The field that holds the discriminator of a oneof. -/
def discriminatorField? (plan : MessagePlan) (oneof : String) : Option String :=
  (plan.fields.find? (·.origin.role == some (.discriminator oneof))).map (·.shape.name)

/-- The discriminator that the Plain message holds for a oneof, if it names a value. -/
def discriminator? (c : Restoring) (oneof : String) : Option Discriminator := do
  match ← valueNamed? c.pool c.plain (← discriminatorField? c.plan oneof) with
  | .string text =>
    let tag := Discriminator.ofName text
    if tag.isEmpty then none else some tag
  | _ => none

/-- Refuses a discriminator that names no member, or another one than the payload holds. -/
def checkDiscriminator (oneof : OneofPlan) (tag : Discriminator) (member : OneofMember) :
    Except ConvertError Unit :=
  match oneof.members.find? fun member => member.withEnums.any tag.names with
  | none => .error (.unknownDiscriminator oneof.name tag.text)
  | some tagged =>
    if tagged.name = member.name then .ok ()
    else .error (.dispatchMismatch oneof.name tagged.name member.name)

/-- The source message with the member of a payload set, if the payload holds one. -/
def restorePayload (c : Restoring) (plan : FieldPlan) (oneof : String) (out : Message) :
    Except ConvertError Message := do
  let name := plan.shape.name
  match valueNamed? c.pool c.plain name with
  | some (.bytes (b :: bytes)) =>
    match Wire.decode? c.source c.type.fullName (b :: bytes) with
    | none => .error (.malformedPayload name)
    | some payload =>
      let populated := do
        let oneof ← c.plan.oneof? oneof
        return (oneof, ← oneof.members[← populatedMember? c.source payload oneof]?)
      match populated with
      | none => return out
      | some (oneof, member) =>
        if let some tag := c.discriminator? oneof.name then checkDiscriminator oneof tag member
        match c.type.field? member.name with
        | none => .error (.invalidValue name)
        | some field => setField c.source out c.type field (payload.get c.source field)
  | _ => return out

/-- The source message with a field of the plan written back.  Virtual fields and the fields
that only support others have no way back. -/
def restoreField (c : Restoring) (selection : Selection) (out : Message) (plan : FieldPlan) :
    Except ConvertError Message :=
  match plan.origin.role with
  | some (.payload oneof) => c.restorePayload plan oneof out
  | some _ => .ok out
  | none => if plan.origin.isVirtual then .ok out else c.restoreValue selection plan out

/-- What a write leaves behind when it fails: the messages that it created on its way. -/
def leftByWrite (c : Restoring) (out : Message) (write : Write) : Message :=
  match pathConflict? c.source false out write.path with
  | some _ => out
  | none => (out.setValue c.source write.path write.value).2

/-- What a field of the plan leaves behind in the source message when it fails. -/
def leftBehind (c : Restoring) (selection : Selection) (out : Message) (plan : FieldPlan) :
    Message :=
  if plan.isReversible then
    match c.adapted selection plan with
    | .ok (some write) => c.leftByWrite out write
    | _ => out
  else out

/-- The source message after a field of the plan, as the mode treats a field that fails. -/
def restoreStep (c : Restoring) (selection : Selection) (out : Message) (plan : FieldPlan) :
    Except ConvertError Message :=
  c.mode.settle (c.leftBehind selection out plan) (c.restoreField selection out plan)

/-- The source message with a selected member set to its default, unless it is set already. -/
def ensureSelected (c : Restoring) (out : Message) (member : OneofMember) :
    Except ConvertError Message :=
  match c.type.field? member.name with
  | none => .ok out
  | some field =>
    if out.has c.source field then .ok out
    else setField c.source out c.type field (c.source.defaultOf field.type)

/-- The source message. -/
def run (c : Restoring) : Except ConvertError Message := do
  let selection ← selectMembers c.mode c.pool c.plain c.plan.oneofs
  let out ← c.plan.fields.foldlM (c.restoreStep selection) { type := c.type.fullName }
  selection.foldlM
    (fun out selected => c.mode.settle out (c.ensureSelected out selected.2)) out

end Restoring

end PlainSchema
