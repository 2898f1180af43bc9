import PlainSchema.Value.Message
import PlainSchema.Json.Printer
import PlainSchema.Text.Base64
import PlainSchema.Settings

/-!
# Messages to JSON

Set fields become members in ascending order of their numbers, the declared fields before the
extensions.  Enum values are written by name, bytes in Base64, and numbers that are not finite
as texts.  The style decides on the names of the members and on the form of 64-bit integers.
-/

namespace PlainSchema.Codec

/-- The name of a field in a style. -/
def memberName (style : JsonStyle) (field : Field) : String :=
  match style with
  | .protojson => field.jsonName
  | .jx => field.name

/-- A 64-bit integer in a style. -/
def wideInteger (style : JsonStyle) (n : Int) : Json :=
  match style with
  | .protojson => .string (toString n)
  | .jx => .int n

/-- The text of a number that is not finite. -/
def nonFiniteText? (f : Decimal.BinaryFormat) (bits : Nat) : Option String :=
  match f.decode bits with
  | .infinity negative => some (if negative then "-Infinity" else "Infinity")
  | .nan => some "NaN"
  | _ => none

/-- A double. -/
def doubleToJson (bits : UInt64) : Json :=
  match nonFiniteText? Decimal.double bits.toNat with
  | some text => .string text
  | none => .number (.double bits)

/-- A single-precision number. -/
def singleToJson (bits : UInt32) : Json :=
  match nonFiniteText? Decimal.single bits.toNat with
  | some text => .string text
  | none => .number (.single bits)

/-- An enum value by its name, or by its number when it has none. -/
def enumToJson (pool : Pool) (type : FieldType) (n : Int32) : Json :=
  let name :=
    match type with
    | .enum name => (pool.enum? name).bind (·.name? n.toInt)
    | _ => none
  match name with
  | some name => .string name
  | none => .int n.toInt

/-- The text of a map key. -/
def keyText : MapKey → String
  | .bool b => if b then "true" else "false"
  | .i32 n => toString n.toInt
  | .i64 n => toString n.toInt
  | .u32 n => toString n.toNat
  | .u64 n => toString n.toNat
  | .string s => s

/-- The name of a field of a message type, or of an extension of it, in a style. -/
def memberOf? (pool : Pool) (style : JsonStyle) (type : MessageType) (number : Nat) :
    Option (Field × String) :=
  match type.fieldByNumber? number with
  | some field => some (field, memberName style field)
  | none =>
    (pool.extensionByNumber? type.fullName number).map fun field =>
      (field, "[" ++ field.fullName ++ "]")

/-- The object of a message from its members by field number. -/
def ofMembers (type : MessageType) (members : List (Nat × String × Json)) : Json :=
  let (declared, extensions) := members.partition fun m => (type.fieldByNumber? m.1).isSome
  .object ((declared ++ extensions).map (·.2))

mutual

/-- The value of a field of a type, or an item of its list. -/
def valueToJson (pool : Pool) (style : JsonStyle) (type : FieldType) : Value → Json
  | .bool b => .bool b
  | .i32 n => .int n.toInt
  | .i64 n => wideInteger style n.toInt
  | .u32 n => .int n.toNat
  | .u64 n => wideInteger style n.toNat
  | .f32 bits => singleToJson bits
  | .f64 bits => doubleToJson bits
  | .string s => .string s
  | .bytes b => .string (String.ofList (Text.base64 b))
  | .enum n => enumToJson pool type n
  | .message m => messageToJson pool style m
  | .list items => .array (itemsToJson pool style type items)
  | .map entries =>
    let valueType :=
      match type with
      | .message name _ =>
        (((pool.message? name).bind (·.fieldByNumber? 2)).map (·.type)).getD type
      | type => type
    .object (entriesToJson pool style valueType entries)

/-- The items of a list. -/
def itemsToJson (pool : Pool) (style : JsonStyle) (type : FieldType) : List Value → List Json
  | [] => []
  | item :: items => valueToJson pool style type item :: itemsToJson pool style type items

/-- The entries of a map. -/
def entriesToJson (pool : Pool) (style : JsonStyle) (type : FieldType) :
    List (MapKey × Value) → List (String × Json)
  | [] => []
  | (key, value) :: entries =>
    (keyText key, valueToJson pool style type value) :: entriesToJson pool style type entries

/-- A message. -/
def messageToJson (pool : Pool) (style : JsonStyle) : Message → Json
  | { type, fields, .. } =>
    match pool.message? type with
    | none => .object []
    | some type => ofMembers type (fieldsToJson pool style type fields)

/-- The fields of a message that count as set, by their numbers. -/
def fieldsToJson (pool : Pool) (style : JsonStyle) (type : MessageType) :
    List (Nat × Value) → List (Nat × String × Json)
  | [] => []
  | (number, value) :: fields =>
    let rest := fieldsToJson pool style type fields
    match memberOf? pool style type number with
    | none => rest
    | some (field, name) =>
      if field.tracksPresence || !pool.isDefault field value then
        (number, name, valueToJson pool style field.type value) :: rest
      else rest

end

/-- The JSON text of a message. -/
def encodeJson (pool : Pool) (style : JsonStyle) (m : Message) : String :=
  (messageToJson pool style m).compact

end PlainSchema.Codec
