/-!
# UTF-8

Bytes are read by a machine that stands either between characters or inside one, and then
knows how many continuation bytes are owed and which values the next one may have.  The
machine emits one item a character and one empty item a maximal ill-formed run, so strict
reading, lossy reading and the place of the first fault all come from one scan.
-/

namespace PlainSchema.Utf8

/-- The bytes of a text. -/
def encode (s : String) : List UInt8 :=
  s.toList.flatMap String.utf8EncodeChar

/-- Where the machine stands between bytes. -/
inductive State where
  /-- Between characters. -/
  | start
  /-- Inside a character: the continuation bytes owed, the least and the greatest value of
  the next one, and the bits read so far. -/
  | owing (count low high bits : Nat)
  deriving DecidableEq, Repr

/-- The machine after the first byte of a character, or nothing where no character starts
with it. -/
def State.opening? (b : Nat) : Option State :=
  if 0xC2 ≤ b ∧ b ≤ 0xDF then some (.owing 1 0x80 0xBF (b - 0xC0))
  else if b = 0xE0 then some (.owing 2 0xA0 0xBF (b - 0xE0))
  else if 0xE1 ≤ b ∧ b ≤ 0xEC then some (.owing 2 0x80 0xBF (b - 0xE0))
  else if b = 0xED then some (.owing 2 0x80 0x9F (b - 0xE0))
  else if 0xEE ≤ b ∧ b ≤ 0xEF then some (.owing 2 0x80 0xBF (b - 0xE0))
  else if b = 0xF0 then some (.owing 3 0x90 0xBF (b - 0xF0))
  else if 0xF1 ≤ b ∧ b ≤ 0xF3 then some (.owing 3 0x80 0xBF (b - 0xF0))
  else if b = 0xF4 then some (.owing 3 0x80 0x8F (b - 0xF0))
  else none

/-- What a byte between characters emits, and where it leaves the machine. -/
def State.first (b : Nat) : List (Option Char) × State :=
  if b < 0x80 then ([some (Char.ofNat b)], .start)
  else
    match State.opening? b with
    | some state => ([], state)
    | none => ([none], .start)

/-- What a byte emits, and where it leaves the machine.  A byte that cannot continue a
character ends the ill-formed run before it and is read again from between characters. -/
def State.step : State → Nat → List (Option Char) × State
  | .start, b => State.first b
  | .owing count low high bits, b =>
    if low ≤ b ∧ b ≤ high then
      let bits := bits * 64 + (b - 0x80)
      if count ≤ 1 then ([some (Char.ofNat bits)], .start)
      else ([], .owing (count - 1) 0x80 0xBF bits)
    else
      let (items, state) := State.first b
      (none :: items, state)

/-- The items of a byte sequence: a character each, or nothing for an ill-formed run. -/
def items : State → List UInt8 → List (Option Char)
  | .start, [] => []
  | .owing .., [] => [none]
  | state, b :: bytes =>
    let (out, next) := state.step b.toNat
    out ++ items next bytes

/-- The text of a byte sequence, when all of it is well formed. -/
def decode? (bytes : List UInt8) : Option String :=
  ((items .start bytes).mapM id).map String.ofList

/-- The text of a byte sequence, with U+FFFD for every ill-formed run. -/
def decodeLossy (bytes : List UInt8) : String :=
  String.ofList ((items .start bytes).map (·.getD '\uFFFD'))

end PlainSchema.Utf8
