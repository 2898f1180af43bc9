import PlainSchema.Wire.Scalar
import PlainSchema.Value.Message

/-!
# Bytes to messages

Records are merged into a message one after another: the last value of a singular field wins,
messages merge, lists and maps grow, and a later member of a oneof clears an earlier one.
Records of unknown fields are kept.  A known field with the wrong wire type is an error; the tag
of a map entry, however, may have any.  Messages and groups are nested at most a hundred levels
deep; a map entry is no level of its own.
-/

namespace PlainSchema.Wire

/-- The deepest nesting of messages and groups in one another. -/
def nestingLimit : Nat := 100

/-- How a field of messages is read: the records one level further inside, unless there is no
such level. -/
abbrev Inside := Option (Step Message)

/-- A value of a field type merged with a record, and the rest; messages merge into the value
before. -/
def mergeSingle (inside : Inside) (type : FieldType) (before : Option Value)
    (number wireType : Nat) (bytes : List UInt8) : Option (Value × List UInt8) :=
  match type with
  | .message name group => do
    let inner : Message :=
      match before with
      | some (.message inner) => inner
      | _ => { type := name }
    let step ← inside
    if group then
      guard (wireType = 3)
      let (m, rest) ← mergeGroup step number inner bytes
      return (.message m, rest)
    else
      guard (wireType = 2)
      let (content, rest) ← readDelimited bytes
      return (.message (← mergeAll step inner content), rest)
  | type => do
    let (value, rest) ← readValue wireType bytes
    return (← singleOfWire? type value, rest)

/-- The items that a record adds to a list, and the rest. -/
def listItems (inside : Inside) (type : FieldType) (number wireType : Nat) (bytes : List UInt8) :
    Option (List Value × List UInt8) :=
  if type.isPackable && wireType == 2 then do
    let (content, rest) ← readDelimited bytes
    return (← readPacked type content.length content, rest)
  else (mergeSingle inside type none number wireType bytes).map fun (item, rest) => ([item], rest)

/-- How a record of a map entry is taken up by its key and value. -/
def entryStep (inside : Inside) (levels : Nat) (key value : FieldType) : Step (Value × Value) :=
  fun entry number wireType bytes =>
    if number = 1 then
      (mergeSingle inside key none number wireType bytes).map fun (k, rest) =>
        ((k, entry.2), rest)
    else if number = 2 then
      (mergeSingle inside value (some entry.2) number wireType bytes).map fun (v, rest) =>
        ((entry.1, v), rest)
    else (skip levels number wireType bytes).map (entry, ·)

/-- The entries of a map with one entry more, and the rest. -/
def mergeEntry (pool : Pool) (inside : Inside) (levels : Nat) (key value : FieldType)
    (entries : List (MapKey × Value)) (bytes : List UInt8) :
    Option (List (MapKey × Value) × List UInt8) := do
  let (content, rest) ← readDelimited bytes
  let (k, v) ← mergeAll (entryStep inside levels key value)
    (pool.defaultOf key, pool.defaultOf value) content
  return (MapKey.insert (← k.toMapKey?) v entries, rest)

/-- The value of a field after one more record, and the rest. -/
def mergeField (pool : Pool) (inside : Inside) (levels : Nat) (field : Field)
    (before : Option Value) (wireType : Nat) (bytes : List UInt8) :
    Option (Value × List UInt8) :=
  match pool.entryFields? field with
  | some (key, val) => do
    let entries : List (MapKey × Value) :=
      match before with
      | some (.map entries) => entries
      | _ => []
    let (entries, rest) ← mergeEntry pool inside levels key.type val.type entries bytes
    return (.map entries, rest)
  | none =>
    if field.label = .repeated then do
      let items : List Value :=
        match before with
        | some (.list items) => items
        | _ => []
      let (more, rest) ← listItems inside field.type field.number wireType bytes
      return (.list (items ++ more), rest)
    else mergeSingle inside field.type before field.number wireType bytes

/-- Unknown fields with one record more, in ascending order of their numbers; records of one
number keep their order. -/
def insertUnknown (number : Nat) (value : UnknownValue) :
    List (Nat × UnknownValue) → List (Nat × UnknownValue)
  | [] => [(number, value)]
  | (n, v) :: rest =>
    if number < n then (number, value) :: (n, v) :: rest
    else (n, v) :: insertUnknown number value rest

/-- How a record is taken up by a message, with a number of levels left for nesting. -/
def messageStep (pool : Pool) (levels : Nat) : Step Message :=
  let inside : Inside :=
    match levels with
    | 0 => none
    | levels + 1 => some (messageStep pool levels)
  fun m number wireType bytes => do
    let type ← pool.message? m.type
    match pool.fieldByNumber? type number with
    | some field =>
      let before := m.value? field.number
      let (value, rest) ← mergeField pool inside levels field before wireType bytes
      return (m.set type field value, rest)
    | none =>
      let (value, rest) ← readUnknown levels number wireType bytes
      return ({ m with unknown := insertUnknown number value m.unknown }, rest)
termination_by structural levels

/-- The message of a type that a byte sequence holds. -/
def decode? (pool : Pool) (type : String) (bytes : List UInt8) : Option Message :=
  mergeAll (messageStep pool nestingLimit) { type } bytes

end PlainSchema.Wire
