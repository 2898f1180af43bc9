import PlainSchema.Value.Message
import PlainSchema.Json.Parser
import PlainSchema.Text.Base64
import PlainSchema.Text.Integer

/-!
# JSON to messages

Members are found by their JSON name or their declared name; unknown ones are skipped.  A field
given again replaces the earlier value, but a oneof may be given one value only, be it of one
member or of two.  `null` leaves every field of a message type alone, lists and maps too, and
sets any other field to its default; inside lists and maps it is an error.
-/

namespace PlainSchema.Codec

open Proto Decimal

/-- How deep arrays and objects may be nested. -/
def jsonNestingLimit : Nat := 127

/-! ## Numbers -/

/-- The integer between two bounds that a double stands for.  A fraction below the distance
from one to the next double does not count, but the double itself may not be below the lower
bound; where the upper bound has no double of its own, the double above it stands for it. -/
def integerOfDouble? (low high : Int) (bits : UInt64) : Option Int :=
  match double.decode bits.toNat with
  | .zero _ => some 0
  | .finite negative d => do
    let numerator : Int := if negative then -(d.num : Int) else d.num
    let n := numerator.tdiv d.den
    guard (d.num % d.den * Nat.pow 2 52 ≤ d.den)
    guard (low * d.den ≤ numerator && n ≤ if high < 9007199254740992 then high else high + 1)
    return min n high
  | _ => none

/-- The integer between two bounds that a JSON value stands for: an integer, a double without a
fraction, or a text of digits. -/
def integerOfJson? (low high : Int) : Json → Option Int
  | .number (.int n) => if low ≤ n ∧ n ≤ high then some n else none
  | .number (.double bits) => integerOfDouble? low high bits
  | .string s => Text.integer? low high s
  | _ => none

/-- The bits of the number of a format nearest to an integer. -/
def floatOfInt (f : BinaryFormat) (n : Int) : Nat :=
  f.withSign (decide (n < 0)) (f.round n.natAbs 1)

/-- The bits of a number of a format that a text stands for. -/
def floatOfText? (f : BinaryFormat) (s : String) : Option Nat :=
  readRounded? f s.toList

/-- The bits of the double that a JSON value stands for. -/
def doubleOfJson? : Json → Option UInt64
  | .number (.int n) => some (floatOfInt double n).toUInt64
  | .number (.double bits) => some bits
  | .string s => (floatOfText? double s).map Nat.toUInt64
  | _ => none

/-- The bits of the single-precision number next to a double, which may not be beyond the
largest one. -/
def singleOfDouble? (bits : Nat) : Option UInt32 :=
  let largest := convert single double (single.infinityBits - 1)
  if largest < bits % double.signBit then none
  else some (convert double single bits).toUInt32

/-- The bits of the single-precision number that a JSON value stands for. -/
def singleOfJson? : Json → Option UInt32
  | .number (.int n) => some (floatOfInt single n).toUInt32
  | .number (.double bits) => singleOfDouble? bits.toNat
  | .string s => (floatOfText? single s).map Nat.toUInt32
  | _ => none

/-! ## Single values -/

private def low32 : Int := -2147483648
private def high32 : Int := 2147483647
private def low64 : Int := -9223372036854775808
private def high64 : Int := 9223372036854775807
private def highWord32 : Int := 4294967295
private def highWord64 : Int := 18446744073709551615

/-- The scalar value that a JSON value stands for. -/
def scalarOfJson? (type : Scalar) (json : Json) : Option Value :=
  match type with
  | .double => (doubleOfJson? json).map .f64
  | .float => (singleOfJson? json).map .f32
  | .int64 | .sint64 | .sfixed64 =>
    (integerOfJson? low64 high64 json).map fun n => .i64 (Int64.ofInt n)
  | .uint64 | .fixed64 =>
    (integerOfJson? 0 highWord64 json).map fun n => .u64 n.toNat.toUInt64
  | .int32 | .sint32 | .sfixed32 =>
    (integerOfJson? low32 high32 json).map fun n => .i32 (Int32.ofInt n)
  | .uint32 | .fixed32 =>
    (integerOfJson? 0 highWord32 json).map fun n => .u32 n.toNat.toUInt32
  | .bool =>
    match json with
    | .bool b => some (.bool b)
    | _ => none
  | .string =>
    match json with
    | .string s => some (.string s)
    | _ => none
  | .bytes =>
    match json with
    | .string s => (Text.decodeBase64? s).map .bytes
    | _ => none

/-- The value of an enum that a JSON value names or numbers. -/
def enumOfJson? (pool : Pool) (name : String) : Json → Option Value
  | .string s => do
    let n ← (← pool.enum? name).number? s
    return .enum (Int32.ofInt n)
  | .number (.int n) =>
    if low32 ≤ n ∧ n ≤ high32 then some (.enum (Int32.ofInt n)) else none
  | _ => none

/-- The map key of a type that a text stands for. -/
def keyOfText? (type : FieldType) (s : String) : Option MapKey :=
  match type with
  | .scalar .bool =>
    if s = "true" then some (.bool true) else if s = "false" then some (.bool false) else none
  | .scalar .int32 | .scalar .sint32 | .scalar .sfixed32 =>
    (Text.integer? low32 high32 s).map fun n => .i32 (Int32.ofInt n)
  | .scalar .int64 | .scalar .sint64 | .scalar .sfixed64 =>
    (Text.integer? low64 high64 s).map fun n => .i64 (Int64.ofInt n)
  | .scalar .uint32 | .scalar .fixed32 =>
    (Text.integer? 0 highWord32 s).map fun n => .u32 n.toNat.toUInt32
  | .scalar .uint64 | .scalar .fixed64 =>
    (Text.integer? 0 highWord64 s).map fun n => .u64 n.toNat.toUInt64
  | .scalar .string => some (.string s)
  | _ => none

/-! ## Messages -/

/-- The field of a message type, or the extension of it, that a member name stands for. -/
def fieldOfMember? (pool : Pool) (type : MessageType) (name : String) : Option Field :=
  type.fields.find? (·.jsonName == name) <|> type.field? name
    <|> (pool.extensions.find? fun e =>
      e.extendee == type.fullName && "[" ++ e.field.fullName ++ "]" == name).map (·.field)

/-- Whether no member of the oneof of a field counts as set, nor the field itself. -/
def mayTake (pool : Pool) (type : MessageType) (m : Message) (field : Field) : Bool :=
  match field.oneof with
  | none => true
  | some index => !(type.oneofFields index).any (m.has pool)

mutual

/-- A single value of a type.  `levels` is how deep the value may still be nested. -/
def valueOfJson? (pool : Pool) (levels : Nat) (type : FieldType) (json : Json) :
    Option Value :=
  match type with
  | .scalar type => scalarOfJson? type json
  | .enum name => enumOfJson? pool name json
  | .message name _ =>
    match json with
    | .object members => do
      guard (0 < levels)
      let messageType ← pool.message? name
      let m ← membersOfJson? pool (levels - 1) messageType { type := name } members
      return .message m
    | _ => none
termination_by structural json

/-- The value of a field; nothing inside for a field of a message type that is `null`. -/
def fieldOfJson? (pool : Pool) (levels : Nat) (field : Field) (json : Json) :
    Option (Option Value) :=
  match json with
  | .null =>
    match field.type with
    | .message .. => some none
    | _ => some (some (pool.default field))
  | .array items =>
    if pool.isList field then do
      guard (0 < levels)
      return some (.list (← itemsOfJson? pool (levels - 1) field.type items))
    else none
  | .object members =>
    match pool.entryFields? field with
    | some (key, value) => do
      guard (0 < levels)
      return some (.map (← entriesOfJson? pool (levels - 1) key.type value.type [] members))
    | none =>
      match field.type, field.label with
      | .message .., .repeated => none
      | .message name _, _ => do
        guard (0 < levels)
        let messageType ← pool.message? name
        let m ← membersOfJson? pool (levels - 1) messageType { type := name } members
        return some (.message m)
      | _, _ => none
  | json =>
    if field.label = .repeated then none
    else
      match field.type with
      | .scalar type => (scalarOfJson? type json).map some
      | .enum name => (enumOfJson? pool name json).map some
      | .message .. => none
termination_by structural json

/-- The items of a list. -/
def itemsOfJson? (pool : Pool) (levels : Nat) (type : FieldType) (items : List Json) :
    Option (List Value) :=
  match items with
  | [] => some []
  | item :: items => do
    let value ← valueOfJson? pool levels type item
    return value :: (← itemsOfJson? pool levels type items)
termination_by structural items

/-- The entries of a map; a key given again replaces the earlier entry. -/
def entriesOfJson? (pool : Pool) (levels : Nat) (keyType valueType : FieldType)
    (entries : List (MapKey × Value)) (members : List (String × Json)) :
    Option (List (MapKey × Value)) :=
  match members with
  | [] => some entries
  | (name, json) :: members => do
    let key ← keyOfText? keyType name
    let value ← valueOfJson? pool levels valueType json
    entriesOfJson? pool levels keyType valueType (MapKey.insert key value entries) members
termination_by structural members

/-- A message after the members of an object. -/
def membersOfJson? (pool : Pool) (levels : Nat) (type : MessageType) (m : Message)
    (members : List (String × Json)) : Option Message :=
  match members with
  | [] => some m
  | (name, json) :: members =>
    match fieldOfMember? pool type name with
    | none => membersOfJson? pool levels type m members
    | some field => do
      match ← fieldOfJson? pool levels field json with
      | none => membersOfJson? pool levels type m members
      | some value =>
        guard (mayTake pool type m field)
        membersOfJson? pool levels type (m.set type field value) members
termination_by structural members

end

/-- The message of a type that a JSON text stands for. -/
def decodeJson? (pool : Pool) (type : String) (text : String) : Option Message := do
  let .object members ← Json.parse text | none
  let messageType ← pool.message? type
  membersOfJson? pool (jsonNestingLimit - 1) messageType { type } members

end PlainSchema.Codec
