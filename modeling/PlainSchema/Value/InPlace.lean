import PlainSchema.Value.Path

/-!
# Writing into a message in place

A write in place says whether it went through and what became of the message.  On its way down a
path it creates the messages that are missing, and they stay when it is refused further down, so
`Message.setValue` looks at the path and at the value before it begins.
-/

namespace PlainSchema

open Proto

namespace Message

/-- The field that a path leads to from a message. -/
def resolve? (pool : Pool) (m : Message) (path : List String) : Option Field := do
  pool.resolvePath (← m.type? pool) path

/-- The type of a message with its field of a name. -/
def fieldNamed? (pool : Pool) (m : Message) (name : String) : Option (MessageType × Field) := do
  let type ← m.type? pool
  return (type, ← type.field? name)

/-- Sets a field, if the value fits it. -/
def trySet (pool : Pool) (m : Message) (type : MessageType) (field : Field) (value : Value) :
    Bool × Message :=
  if pool.accepts field value then (true, m.set type field value) else (false, m)

/-- Creates the message of a field that does not count as set. -/
def ensureSet (pool : Pool) (m : Message) (type : MessageType) (field : Field) (child : String) :
    Bool × Message :=
  if m.has pool field then (true, m)
  else m.trySet pool type field (.message { type := child })

/-- Sets the value at the end of a path, without looking ahead. -/
def setIn (pool : Pool) (value : Value) : Message → List String → Bool × Message
  | m, [] => (false, m)
  | m, [name] =>
    match m.fieldNamed? pool name with
    | some (type, field) => m.trySet pool type field value
    | none => (false, m)
  | m, name :: rest =>
    match m.fieldNamed? pool name with
    | some (type, field) =>
      match field.type with
      | .message child _ =>
        match m.ensureSet pool type field child with
        | (true, m) =>
          -- Reaching into a member of a oneof clears the other members.
          match m.value? field.number with
          | some (.message inner) =>
            let (done, inner) := setIn pool value inner rest
            (done, m.set type field (.message inner))
          | some other => (false, m.set type field other)
          | none => (false, m)
        | refused => refused
      | _ => (false, m)
    | none => (false, m)

/-- Sets the value at the end of a path, unless the path or the value does not fit. -/
def setValue (pool : Pool) (m : Message) (path : List String) (value : Value) :
    Bool × Message :=
  match m.resolve? pool path with
  | some field =>
    if pool.accepts field value && sameType field value then setIn pool value m path
    else (false, m)
  | none => (false, m)

/-! ## Typed access -/

/-- Sets the value at the end of a path, if the field there has a property. -/
def setWhere (pool : Pool) (m : Message) (path : List String) (p : Field → Bool)
    (value : Value) : Bool × Message :=
  match m.resolve? pool path with
  | some field => if p field then m.setValue pool path value else (false, m)
  | none => (false, m)

/-- Sets a singular scalar or enum value of a form. -/
def setAs (pool : Pool) (m : Message) (path : List String) (form : Form) (value : Value) :
    Bool × Message :=
  m.setWhere pool path (fun field => field.isSingular && form.fits field.type) value

/-- Replaces the contents of a list field of scalars or enum values of a form. -/
def setList (pool : Pool) (m : Message) (path : List String) (form : Form)
    (items : List Value) : Bool × Message :=
  m.setWhere pool path (fun field => pool.isList field && form.fits field.type) (.list items)

/-- Sets a singular message, which has to be of the type of the field. -/
def setMessage (pool : Pool) (m : Message) (path : List String) (value : Message) :
    Bool × Message :=
  let named : FieldType → Bool
    | .message name _ => value.type == name
    | _ => false
  m.setWhere pool path (fun field => field.isSingular && named field.type) (.message value)

end Message

end PlainSchema
