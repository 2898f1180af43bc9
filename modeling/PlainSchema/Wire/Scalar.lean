import PlainSchema.Wire.Record
import PlainSchema.Text.Utf8

/-!
# Scalars on the wire

Integers are varints, signed ones in two's complement of 64 bits or in zigzag order; the fixed
kinds are little-endian words; texts and bytes stand behind their length.  `Scalar.ofWire?`
reads what `Scalar.toWire?` writes, and drops the high bits of a varint that is too wide.
-/

namespace PlainSchema.Wire

open Proto

/-- A signed number in zigzag order: 0, -1, 1, -2, … become 0, 1, 2, 3, …. -/
def zigzag (n : Int) : Nat :=
  if n < 0 then (-2 * n - 1).toNat else (2 * n).toNat

/-- The signed number of a zigzag number. -/
def unzigzag (n : Nat) : Int :=
  if n % 2 = 0 then (n / 2 : Nat) else -((n / 2 : Nat) : Int) - 1

/-- A scalar value as a record value. -/
def scalarToWire? (type : Scalar) (value : Value) : Option UnknownValue :=
  match type, value with
  | .double, .f64 bits => some (.fixed64 bits)
  | .float, .f32 bits => some (.fixed32 bits)
  | .int64, .i64 n => some (.varint n.toUInt64)
  | .uint64, .u64 n => some (.varint n)
  | .int32, .i32 n => some (.varint n.toInt64.toUInt64)
  | .fixed64, .u64 n => some (.fixed64 n)
  | .fixed32, .u32 n => some (.fixed32 n)
  | .bool, .bool b => some (.varint (if b then 1 else 0))
  | .string, .string s => some (.bytes (Utf8.encode s))
  | .bytes, .bytes b => some (.bytes b)
  | .uint32, .u32 n => some (.varint n.toUInt64)
  | .sfixed32, .i32 n => some (.fixed32 n.toUInt32)
  | .sfixed64, .i64 n => some (.fixed64 n.toUInt64)
  | .sint32, .i32 n => some (.varint (zigzag n.toInt).toUInt64)
  | .sint64, .i64 n => some (.varint (zigzag n.toInt).toUInt64)
  | _, _ => none

/-- The scalar value of a record value, if the wire type fits. -/
def scalarOfWire? (type : Scalar) (value : UnknownValue) : Option Value :=
  match type, value with
  | .double, .fixed64 bits => some (.f64 bits)
  | .float, .fixed32 bits => some (.f32 bits)
  | .int64, .varint n => some (.i64 n.toInt64)
  | .uint64, .varint n => some (.u64 n)
  | .int32, .varint n => some (.i32 n.toUInt32.toInt32)
  | .fixed64, .fixed64 n => some (.u64 n)
  | .fixed32, .fixed32 n => some (.u32 n)
  | .bool, .varint n => some (.bool (n != 0))
  | .string, .bytes b => (Utf8.decode? b).map .string
  | .bytes, .bytes b => some (.bytes b)
  | .uint32, .varint n => some (.u32 n.toUInt32)
  | .sfixed32, .fixed32 n => some (.i32 n.toInt32)
  | .sfixed64, .fixed64 n => some (.i64 n.toInt64)
  | .sint32, .varint n => some (.i32 (Int32.ofInt (unzigzag n.toUInt32.toNat)))
  | .sint64, .varint n => some (.i64 (Int64.ofInt (unzigzag n.toNat)))
  | _, _ => none

/-- A scalar or enum value as a record value. -/
def singleToWire? (type : FieldType) (value : Value) : Option UnknownValue :=
  match type, value with
  | .scalar type, value => scalarToWire? type value
  | .enum _, .enum n => some (.varint n.toInt64.toUInt64)
  | _, _ => none

/-- The scalar or enum value of a record value. -/
def singleOfWire? (type : FieldType) (value : UnknownValue) : Option Value :=
  match type, value with
  | .scalar type, value => scalarOfWire? type value
  | .enum _, .varint n => some (.enum n.toUInt32.toInt32)
  | _, _ => none

/-- The wire type of the items of a packed list. -/
def packedWireType : FieldType → Nat
  | .scalar .double | .scalar .fixed64 | .scalar .sfixed64 => 1
  | .scalar .float | .scalar .fixed32 | .scalar .sfixed32 => 5
  | _ => 0

/-- A record value without its tag. -/
def bare : UnknownValue → List UInt8
  | .varint n => varint n.toNat
  | .fixed64 n => fixed 8 n.toNat
  | .fixed32 n => fixed 4 n.toNat
  | .bytes b => delimited b
  | .group _ => []

/-- The items of a packed list.  The fuel bounds their number. -/
def readPacked (type : FieldType) : Nat → List UInt8 → Option (List Value)
  | _, [] => some []
  | 0, _ => none
  | fuel + 1, bytes => do
    let (value, rest) ← readValue (packedWireType type) bytes
    let item ← singleOfWire? type value
    return item :: (← readPacked type fuel rest)

end PlainSchema.Wire
