import PlainSchema.Value.Basic

/-!
# Reading and writing the fields of a message

`Message.has` says whether a field counts as set, `Message.get` reads it and `Message.set`
writes it.  Writing a member of a oneof clears the other members.
-/

namespace PlainSchema

/-- An association list in ascending order of its numbers with one entry more, which replaces
an earlier one of its number. -/
def insertNumber {α : Type} (number : Nat) (value : α) : List (Nat × α) → List (Nat × α)
  | [] => [(number, value)]
  | (n, v) :: rest =>
    if n = number then (number, value) :: rest
    else if number < n then (number, value) :: (n, v) :: rest
    else (n, v) :: insertNumber number value rest

namespace Message

/-- The stored value of a field number. -/
def value? (m : Message) (number : Nat) : Option Value :=
  m.fields.lookup number

/-- The message with a value stored under a number. -/
def put (m : Message) (number : Nat) (value : Value) : Message :=
  { m with fields := insertNumber number value m.fields }

/-- The message without the members, other than the field itself, of the oneof that holds the
field. -/
def clearSiblings (m : Message) (type : MessageType) (field : Field) : Message :=
  match field.oneof with
  | none => m
  | some index =>
    let siblings := (type.oneofFields index).filter (·.number != field.number)
    { m with fields := m.fields.filter fun f => !siblings.any (·.number == f.1) }

/-- Whether a field counts as set: one that tracks presence when it was ever written, another
one when its value differs from the default. -/
def has (pool : Pool) (m : Message) (field : Field) : Bool :=
  match m.value? field.number with
  | none => false
  | some value => field.tracksPresence || !pool.isDefault field value

/-- The value of a field, its default when nothing is stored. -/
def get (pool : Pool) (m : Message) (field : Field) : Value :=
  (m.value? field.number).getD (pool.default field)

/-- The value of a field that counts as set. -/
def get? (pool : Pool) (m : Message) (field : Field) : Option Value :=
  if m.has pool field then m.value? field.number else none

/-- The message with a field written and its oneof siblings cleared. -/
def set (m : Message) (type : MessageType) (field : Field) (value : Value) : Message :=
  (m.clearSiblings type field).put field.number value

/-- The message with a field written, if the value fits the field. -/
def set? (pool : Pool) (m : Message) (type : MessageType) (field : Field) (value : Value) :
    Option Message :=
  if pool.accepts field value then some (m.set type field value) else none

/-- The fields that count as set, with their values, in ascending order of their numbers. -/
def setFields (pool : Pool) (m : Message) (type : MessageType) : List (Field × Value) :=
  type.fields.filterMap fun field => (m.get? pool field).map (field, ·)

end Message

end PlainSchema
