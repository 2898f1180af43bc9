/-!
# Binary floating-point numbers by their bits

A format is given by the number of bits of its fraction and of its exponent.  Positive finite
numbers are `significand * 2 ^ exponent` with natural significands; `BinaryFormat.round` is the
nearest number of a format to a quotient of natural numbers, ties going to the even one.
Everything is exact arithmetic on natural numbers.
-/

namespace PlainSchema.Decimal

/-- A binary interchange format. -/
structure BinaryFormat where
  fractionBits : Nat
  exponentBits : Nat
  deriving DecidableEq, Repr

/-- Single precision. -/
def single : BinaryFormat := ⟨23, 8⟩

/-- Double precision. -/
def double : BinaryFormat := ⟨52, 11⟩

/-- A positive finite number, `significand * 2 ^ exponent`. -/
structure Dyadic where
  significand : Nat
  exponent : Int
  deriving DecidableEq, Repr

/-- What a bit pattern stands for; zeros and infinities keep their sign. -/
inductive Number where
  | zero (negative : Bool)
  | finite (negative : Bool) (magnitude : Dyadic)
  | infinity (negative : Bool)
  | nan
  deriving DecidableEq, Repr

namespace BinaryFormat

/-- The exponent of the least significant bit of the smallest numbers. -/
def leastExponent (f : BinaryFormat) : Int :=
  2 - Nat.pow 2 (f.exponentBits - 1) - f.fractionBits

/-- The bits of positive infinity, above those of every finite number. -/
def infinityBits (f : BinaryFormat) : Nat :=
  (Nat.pow 2 f.exponentBits - 1) * Nat.pow 2 f.fractionBits

/-- The bits of the quiet not-a-number. -/
def nanBits (f : BinaryFormat) : Nat :=
  f.infinityBits + Nat.pow 2 (f.fractionBits - 1)

/-- The sign bit. -/
def signBit (f : BinaryFormat) : Nat :=
  Nat.pow 2 (f.fractionBits + f.exponentBits)

/-- The number of a bit pattern. -/
def decode (f : BinaryFormat) (bits : Nat) : Number :=
  let negative := f.signBit ≤ bits
  let magnitude := bits % f.signBit
  let field := magnitude / Nat.pow 2 f.fractionBits
  let fraction := magnitude % Nat.pow 2 f.fractionBits
  if magnitude = 0 then .zero negative
  else if magnitude = f.infinityBits then .infinity negative
  else if f.infinityBits < magnitude then .nan
  else if field = 0 then .finite negative ⟨fraction, f.leastExponent⟩
  else .finite negative ⟨Nat.pow 2 f.fractionBits + fraction, f.leastExponent + (field - 1)⟩

/-- A quotient rounded to the nearest natural number, a half to the even one. -/
def roundQuotient (num den : Nat) : Nat :=
  let q := num / den
  let r := 2 * (num % den)
  if r < den then q else if den < r then q + 1 else q + q % 2

/-- The exponent of the last bit of the number of the format next to a positive quotient. -/
def exponentOf (f : BinaryFormat) (num den : Nat) : Int :=
  let guess : Int := (Nat.log2 num : Int) - Nat.log2 den - f.fractionBits
  -- the quotient over `2 ^ guess` is below `2 ^ (fractionBits + 1)`, and may be too small
  let small : Bool :=
    num * Nat.pow 2 (-guess).toNat < Nat.pow 2 f.fractionBits * (den * Nat.pow 2 guess.toNat)
  max f.leastExponent (if small then guess - 1 else guess)

/-- The bits of the number of the format nearest to the quotient of two natural numbers;
infinity beyond the largest one. -/
def round (f : BinaryFormat) (num den : Nat) : Nat :=
  if num = 0 ∨ den = 0 then 0
  else
    let e := f.exponentOf num den
    let significand := roundQuotient (num * Nat.pow 2 (-e).toNat) (den * Nat.pow 2 e.toNat)
    min f.infinityBits ((e - f.leastExponent).toNat * Nat.pow 2 f.fractionBits + significand)

/-- The bits of a magnitude with a sign. -/
def withSign (f : BinaryFormat) (negative : Bool) (magnitude : Nat) : Nat :=
  if negative then f.signBit + magnitude else magnitude

end BinaryFormat

/-- The numerator of a dyadic number as a quotient. -/
def Dyadic.num (d : Dyadic) : Nat :=
  d.significand * Nat.pow 2 d.exponent.toNat

/-- The denominator of a dyadic number as a quotient. -/
def Dyadic.den (d : Dyadic) : Nat :=
  Nat.pow 2 (-d.exponent).toNat

/-- The bits of a number of one format in another, rounded to nearest. -/
def convert (source target : BinaryFormat) (bits : Nat) : Nat :=
  match source.decode bits with
  | .zero negative => target.withSign negative 0
  | .finite negative d => target.withSign negative (target.round d.num d.den)
  | .infinity negative => target.withSign negative target.infinityBits
  | .nan => target.nanBits

end PlainSchema.Decimal
