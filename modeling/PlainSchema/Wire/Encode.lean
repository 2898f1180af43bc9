import PlainSchema.Sorting
import PlainSchema.Wire.Scalar
import PlainSchema.Value.Message

/-!
# Messages to bytes

The declared fields that are set are written in ascending order of their numbers, and then
extensions and unknown fields together in ascending order of theirs.  A field that does not
track presence is skipped when it holds its default; so are the key and the value of a map entry.
-/

namespace PlainSchema.Wire

/-- The records of a list of scalars or enum values: one run when the field is packed. -/
def scalarList (field : Field) (items : List Value) : List UInt8 :=
  let values := items.filterMap (singleToWire? field.type)
  if field.packed then tag field.number 2 ++ delimited (values.flatMap bare)
  else values.flatMap (writeRecord field.number)

/-- The record of a message from its content. -/
def nestedRecord (field : Field) (content : List UInt8) : List UInt8 :=
  match field.type with
  | .message _ true => tag field.number 3 ++ content ++ tag field.number 4
  | _ => tag field.number 2 ++ delimited content

/-- Whether a value is not written: a default that is not tracked. -/
def isSkipped (pool : Pool) (field : Field) (value : Value) : Bool :=
  !field.tracksPresence && pool.isDefault field value

/-- The record of the key of a map entry. -/
def encodeKey (pool : Pool) (field : Field) (key : MapKey) : List UInt8 :=
  if isSkipped pool field key.toValue then []
  else ((singleToWire? field.type key.toValue).map (writeRecord field.number)).getD []

/-- The bytes of a message from the records of its set fields and its unknown fields. -/
def inOrder (type : MessageType) (records : List (Nat × List UInt8))
    (unknown : List (Nat × UnknownValue)) : List UInt8 :=
  let (declared, extensions) := records.partition fun r => (type.fieldByNumber? r.1).isSome
  let others := unknown.map fun field => (field.1, writeRecord field.1 field.2)
  let sorted := sortBy (fun a b => a.1 ≤ b.1) (extensions ++ others)
  (declared ++ sorted).flatMap (·.2)

mutual

/-- The records of the value of a field. -/
def encodeValue (pool : Pool) (field : Field) : Value → List UInt8
  | .message m => nestedRecord field (encode pool m)
  | .list items =>
    match field.type with
    | .message .. => encodeItems pool field items
    | _ => scalarList field items
  | .map entries => encodeEntries pool field entries
  | value => ((singleToWire? field.type value).map (writeRecord field.number)).getD []

/-- The records of a list of messages. -/
def encodeItems (pool : Pool) (field : Field) : List Value → List UInt8
  | [] => []
  | item :: items => encodeValue pool field item ++ encodeItems pool field items

/-- The records of the entries of a map. -/
def encodeEntries (pool : Pool) (field : Field) : List (MapKey × Value) → List UInt8
  | [] => []
  | (key, value) :: entries =>
    let content :=
      match pool.entryFields? field with
      | some (keyField, valueField) =>
        encodeKey pool keyField key
          ++ if isSkipped pool valueField value then [] else encodeValue pool valueField value
      | none => []
    tag field.number 2 ++ delimited content ++ encodeEntries pool field entries

/-- The bytes of a message. -/
def encode (pool : Pool) : Message → List UInt8
  | { type, fields, unknown } =>
    match pool.message? type with
    | none => []
    | some type => inOrder type (encodeFields pool type fields) unknown

/-- The records of the fields of a message, by field number. -/
def encodeFields (pool : Pool) (type : MessageType) :
    List (Nat × Value) → List (Nat × List UInt8)
  | [] => []
  | (number, value) :: fields =>
    let rest := encodeFields pool type fields
    match pool.fieldByNumber? type number with
    | some field =>
      if isSkipped pool field value then rest
      else (number, encodeValue pool field value) :: rest
    | none => rest

end

end PlainSchema.Wire
