import PlainSchema.Pool.Types

/-!
# Values and messages

A message holds its set fields by number, in ascending order, and the unknown fields it was
decoded with.  Floating-point values are kept as their bit patterns.  The entries of a map are
in the order of their keys, so that equal maps are equal values.
-/

namespace PlainSchema

open Proto

/-- The key of a map entry. -/
inductive MapKey where
  | bool (b : Bool)
  | i32 (n : Int32)
  | i64 (n : Int64)
  | u32 (n : UInt32)
  | u64 (n : UInt64)
  | string (s : String)
  deriving DecidableEq, Repr, Inhabited

/-- A field of a message that its type does not declare, as it stood on the wire. -/
inductive UnknownValue where
  | varint (n : UInt64)
  | fixed64 (n : UInt64)
  | fixed32 (n : UInt32)
  | bytes (b : List UInt8)
  /-- The fields of a group. -/
  | group (fields : List (Nat × UnknownValue))
  deriving Repr, Inhabited

mutual

/-- The value of a field. -/
inductive Value where
  | bool (b : Bool)
  | i32 (n : Int32)
  | i64 (n : Int64)
  | u32 (n : UInt32)
  | u64 (n : UInt64)
  /-- A single-precision number by its bits. -/
  | f32 (bits : UInt32)
  /-- A double-precision number by its bits. -/
  | f64 (bits : UInt64)
  | string (s : String)
  | bytes (b : List UInt8)
  /-- An enum value by its number. -/
  | enum (number : Int32)
  | message (m : Message)
  | list (items : List Value)
  | map (entries : List (MapKey × Value))

/-- A message. -/
structure Message where
  /-- The full name of the message type. -/
  type : String
  /-- The set fields in ascending order of their numbers. -/
  fields : List (Nat × Value) := []
  /-- The unknown fields in ascending order of their numbers. -/
  unknown : List (Nat × UnknownValue) := []

end

instance : Inhabited Value := ⟨.bool false⟩
instance : Inhabited Message := ⟨{ type := "" }⟩

/-! ## Keys in order -/

/-- The order of the map keys of one type: false before true, numbers by value, strings by
their characters. -/
def MapKey.le : MapKey → MapKey → Bool
  | .bool a, .bool b => !a || b
  | .i32 a, .i32 b => a ≤ b
  | .i64 a, .i64 b => a ≤ b
  | .u32 a, .u32 b => a ≤ b
  | .u64 a, .u64 b => a ≤ b
  | .string a, .string b => !(b < a)
  | _, _ => true

/-- The entries of a map with one entry more, which replaces an earlier one of its key. -/
def MapKey.insert {α : Type} (key : MapKey) (value : α) :
    List (MapKey × α) → List (MapKey × α)
  | [] => [(key, value)]
  | (k, v) :: rest =>
    if k = key then (key, value) :: rest
    else if key.le k then (key, value) :: (k, v) :: rest
    else (k, v) :: MapKey.insert key value rest

/-- The key as a value of its own. -/
def MapKey.toValue : MapKey → Value
  | .bool b => .bool b
  | .i32 n => .i32 n
  | .i64 n => .i64 n
  | .u32 n => .u32 n
  | .u64 n => .u64 n
  | .string s => .string s

/-- The map key that a value is. -/
def Value.toMapKey? : Value → Option MapKey
  | .bool b => some (.bool b)
  | .i32 n => some (.i32 n)
  | .i64 n => some (.i64 n)
  | .u32 n => some (.u32 n)
  | .u64 n => some (.u64 n)
  | .string s => some (.string s)
  | _ => none

/-! ## Defaults -/

/-- The default of a scalar type. -/
def Proto.Scalar.default : Scalar → Value
  | .double => .f64 0
  | .float => .f32 0
  | .int64 | .sint64 | .sfixed64 => .i64 0
  | .uint64 | .fixed64 => .u64 0
  | .int32 | .sint32 | .sfixed32 => .i32 0
  | .uint32 | .fixed32 => .u32 0
  | .bool => .bool false
  | .string => .string ""
  | .bytes => .bytes []

/-- The default of a single value of a type: zero, an empty text, the value an enum declares
first, or a message without fields. -/
def Pool.defaultOf (pool : Pool) : FieldType → Value
  | .scalar type => type.default
  | .enum name => .enum (Int32.ofInt (((pool.enum? name).map EnumType.default).getD 0))
  | .message name _ => .message { type := name }

/-- The default of a field; lists and maps are empty. -/
def Pool.default (pool : Pool) (field : Field) : Value :=
  if field.label = .repeated then
    if pool.isMap field then .map [] else .list []
  else pool.defaultOf field.type

/-- Whether a bit pattern is a zero of either sign. -/
def isZeroBits32 (bits : UInt32) : Bool :=
  bits <<< 1 == 0

/-- Whether a bit pattern is a zero of either sign. -/
def isZeroBits64 (bits : UInt64) : Bool :=
  bits <<< 1 == 0

/-- Whether a value is the default of a field that does not track presence.  Zeros of both signs
are; a message never is. -/
def Pool.isDefault (pool : Pool) (field : Field) (value : Value) : Bool :=
  match value, pool.default field with
  | .bool a, .bool b => a == b
  | .i32 a, .i32 b => a == b
  | .i64 a, .i64 b => a == b
  | .u32 a, .u32 b => a == b
  | .u64 a, .u64 b => a == b
  | .f32 a, .f32 _ => isZeroBits32 a
  | .f64 a, .f64 _ => isZeroBits64 a
  | .string a, .string b => a == b
  | .bytes a, .bytes b => a == b
  | .enum a, .enum b => a == b
  | .list items, .list _ => items.isEmpty
  | .map entries, .map _ => entries.isEmpty
  | _, _ => false

/-! ## Which values fit -/

/-- Whether a value has the form of a scalar type. -/
def Proto.Scalar.accepts : Scalar → Value → Bool
  | .double, .f64 _ | .float, .f32 _ => true
  | .int64, .i64 _ | .sint64, .i64 _ | .sfixed64, .i64 _ => true
  | .uint64, .u64 _ | .fixed64, .u64 _ => true
  | .int32, .i32 _ | .sint32, .i32 _ | .sfixed32, .i32 _ => true
  | .uint32, .u32 _ | .fixed32, .u32 _ => true
  | .bool, .bool _ | .string, .string _ | .bytes, .bytes _ => true
  | _, _ => false

/-- Whether a value has the form of a field type.  The type of a message is not looked at. -/
def FieldType.accepts : FieldType → Value → Bool
  | .scalar type, value => type.accepts value
  | .enum _, .enum _ => true
  | .message .., .message _ => true
  | _, _ => false

/-- Whether a value fits a field.  A list fits a list field and a map a map field when all they
hold fits; a single value fits every field of its type. -/
def Pool.accepts (pool : Pool) (field : Field) (value : Value) : Bool :=
  match value with
  | .list items => pool.isList field && items.all field.type.accepts
  | .map entries =>
    match pool.entryFields? field with
    | some (key, val) =>
      entries.all fun entry => key.type.accepts entry.1.toValue && val.type.accepts entry.2
    | none => false
  | value => field.type.accepts value

end PlainSchema
