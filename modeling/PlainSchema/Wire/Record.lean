import PlainSchema.Value.Basic

/-!
# Records of the wire format

On the wire a message is a sequence of records: a tag with a field number and a wire type, and
a value of that wire type.  `mergeAll` takes up the records of a byte sequence one after
another, and `mergeGroup` those of a group.  `readUnknown` reads the value of a record without
looking at message types; `writeRecords` writes such records back.
-/

namespace PlainSchema.Wire

/-! ## Varints and fixed-width words -/

/-- A number in groups of seven bits, lowest first; every byte but the last has its high bit
set. -/
def varint (n : Nat) : List UInt8 :=
  if n < 128 then [UInt8.ofNat n] else UInt8.ofNat (n % 128 + 128) :: varint (n / 128)
termination_by n
decreasing_by omega

/-- A varint at the front of a byte sequence, of which `place` bytes have been read, and the
rest.  It has at most ten bytes and 64 bits. -/
def readVarintFrom (place : Nat) : List UInt8 → Option (Nat × List UInt8)
  | [] => none
  | b :: rest =>
    if 10 ≤ place then none
    else if b.toNat < 128 then
      if place = 9 ∧ 1 < b.toNat then none else some (b.toNat * Nat.pow 128 place, rest)
    else
      (readVarintFrom (place + 1) rest).map fun (n, rest) =>
        ((b.toNat - 128) * Nat.pow 128 place + n, rest)

/-- A varint at the front of a byte sequence, and the rest. -/
def readVarint (bytes : List UInt8) : Option (Nat × List UInt8) :=
  readVarintFrom 0 bytes

/-- The lowest bytes of a number, lowest first. -/
def fixed : Nat → Nat → List UInt8
  | 0, _ => []
  | width + 1, n => UInt8.ofNat (n % 256) :: fixed width (n / 256)

/-- A number of a width in bytes at the front of a byte sequence, and the rest. -/
def readFixed : Nat → List UInt8 → Option (Nat × List UInt8)
  | 0, rest => some (0, rest)
  | _ + 1, [] => none
  | width + 1, b :: rest =>
    (readFixed width rest).map fun (n, rest) => (b.toNat + 256 * n, rest)

/-- Bytes behind their length. -/
def delimited (bytes : List UInt8) : List UInt8 :=
  varint bytes.length ++ bytes

/-- Bytes with their length at the front of a byte sequence, and the rest. -/
def readDelimited (bytes : List UInt8) : Option (List UInt8 × List UInt8) := do
  let (length, rest) ← readVarint bytes
  guard (length ≤ rest.length)
  return (rest.take length, rest.drop length)

/-! ## Tags -/

/-- The tag of a field number and a wire type. -/
def tag (number wireType : Nat) : List UInt8 :=
  varint (number * 8 + wireType)

/-- A tag at the front of a byte sequence, and the rest. -/
def readTag (bytes : List UInt8) : Option (Nat × Nat × List UInt8) := do
  let (key, rest) ← readVarint bytes
  guard (key < Nat.pow 2 32 && key % 8 ≤ 5 && 0 < key / 8)
  return (key / 8, key % 8, rest)

/-! ## Records -/

/-- The value of a wire type other than a group, and the rest. -/
def readValue (wireType : Nat) (bytes : List UInt8) : Option (UnknownValue × List UInt8) :=
  match wireType with
  | 0 => (readVarint bytes).map fun (n, rest) => (.varint n.toUInt64, rest)
  | 1 => (readFixed 8 bytes).map fun (n, rest) => (.fixed64 n.toUInt64, rest)
  | 2 => (readDelimited bytes).map fun (b, rest) => (.bytes b, rest)
  | 5 => (readFixed 4 bytes).map fun (n, rest) => (.fixed32 n.toUInt32, rest)
  | _ => none

/-- How a record is taken up: what has been read so far, the field number and the wire type of
the record and the bytes behind its tag become what has been read then, and the bytes behind the
record. -/
abbrev Step (α : Type) := α → Nat → Nat → List UInt8 → Option (α × List UInt8)

/-- What has been read after all the records of a byte sequence.  The fuel bounds the number of
tags. -/
def mergeAllFrom {α : Type} (step : Step α) : Nat → α → List UInt8 → Option α
  | _, x, [] => some x
  | 0, _, _ => none
  | fuel + 1, x, bytes => do
    let (number, wireType, rest) ← readTag bytes
    let (x, rest) ← step x number wireType rest
    mergeAllFrom step fuel x rest

/-- What has been read after all the records of a byte sequence. -/
def mergeAll {α : Type} (step : Step α) (x : α) (bytes : List UInt8) : Option α :=
  mergeAllFrom step bytes.length x bytes

/-- What has been read after the records of a group, up to the end tag of its number, and the
rest.  The fuel bounds the number of tags. -/
def mergeGroupFrom {α : Type} (step : Step α) (group : Nat) :
    Nat → α → List UInt8 → Option (α × List UInt8)
  | 0, _, _ => none
  | fuel + 1, x, bytes => do
    let (number, wireType, rest) ← readTag bytes
    if wireType = 4 then
      if number = group then some (x, rest) else none
    else
      let (x, rest) ← step x number wireType rest
      mergeGroupFrom step group fuel x rest

/-- What has been read after the records of a group, and the rest. -/
def mergeGroup {α : Type} (step : Step α) (group : Nat) (x : α) (bytes : List UInt8) :
    Option (α × List UInt8) :=
  mergeGroupFrom step group bytes.length x bytes

/-- The value of a record of any field number and wire type, and the rest.  The records of a
group stay as they come.  `levels` is how deep groups may still be nested. -/
def readUnknown (levels number wireType : Nat) (bytes : List UInt8) :
    Option (UnknownValue × List UInt8) :=
  match levels, wireType with
  | 0, 3 => none
  | levels + 1, 3 =>
    let step : Step (List (Nat × UnknownValue)) := fun fields number wireType bytes =>
      (readUnknown levels number wireType bytes).map fun (value, rest) =>
        (fields ++ [(number, value)], rest)
    (mergeGroup step number [] bytes).map fun (fields, rest) => (.group fields, rest)
  | _, wireType => readValue wireType bytes
termination_by structural levels

/-- The bytes behind a record that is passed over.  `levels` is how deep records may still be
nested in groups. -/
def skip (levels number wireType : Nat) (bytes : List UInt8) : Option (List UInt8) :=
  match levels with
  | 0 => none
  | levels + 1 =>
    if wireType = 3 then
      (mergeGroup (fun _ number wireType bytes => (skip levels number wireType bytes).map ((), ·))
        number () bytes).map (·.2)
    else (readValue wireType bytes).map (·.2)
termination_by structural levels

mutual

/-- A record as it stands on the wire. -/
def writeRecord (number : Nat) : UnknownValue → List UInt8
  | .varint n => tag number 0 ++ varint n.toNat
  | .fixed64 n => tag number 1 ++ fixed 8 n.toNat
  | .bytes b => tag number 2 ++ delimited b
  | .group fields => tag number 3 ++ writeRecords fields ++ tag number 4
  | .fixed32 n => tag number 5 ++ fixed 4 n.toNat

/-- Records as they stand on the wire. -/
def writeRecords : List (Nat × UnknownValue) → List UInt8
  | [] => []
  | (number, value) :: records => writeRecord number value ++ writeRecords records

end

end PlainSchema.Wire
