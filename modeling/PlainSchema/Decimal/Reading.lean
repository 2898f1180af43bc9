import PlainSchema.Decimal.Binary

/-!
# Reading decimals as floating-point numbers

`readRounded?` reads a decimal text as the nearest number of a format.  `readScaled?` is the
coarser rule of JSON numbers: the leading digits that fit a 64-bit word, multiplied or divided
by a power of ten, with a rounding after each step.
-/

namespace PlainSchema.Decimal

/-- The value of a run of digits behind an earlier value. -/
def digitsValue (start : Nat) (digits : List Char) : Nat :=
  digits.foldl (fun n c => 10 * n + (c.toNat - '0'.toNat)) start

/-- The parts of a decimal: `whole.fractionE exponent`. -/
structure DecimalText where
  whole : List Char
  fraction : List Char
  exponent : Int
  deriving DecidableEq, Repr

/-- The digits at the front of a text and the rest. -/
def takeDigits (s : List Char) : List Char × List Char :=
  (s.takeWhile Char.isDigit, s.dropWhile Char.isDigit)

/-- An exponent part, `e` with an optional sign and digits, and the rest.  A text without `e`
has the exponent zero. -/
def takeExponent? : List Char → Option (Int × List Char)
  | c :: rest =>
    if c = 'e' ∨ c = 'E' then
      let (negative, rest) : Bool × List Char :=
        match rest with
        | '-' :: rest => (true, rest)
        | '+' :: rest => (false, rest)
        | rest => (false, rest)
      let (digits, rest) := takeDigits rest
      if digits.isEmpty then none
      else
        let n : Int := digitsValue 0 digits
        some (if negative then -n else n, rest)
    else some (0, c :: rest)
  | [] => some (0, [])

/-- The bits of the number of a format nearest to `digits * 10 ^ exponent`.  Far outside the
range of the format the power of ten is not formed. -/
def roundDecimal (f : BinaryFormat) (digits : Nat) (exponent : Int) : Nat :=
  let lead := exponent + (Nat.toDigits 10 digits).length
  if digits = 0 then 0
  else if 400 < lead then f.infinityBits
  else if lead < -400 then 0
  else f.round (digits * Nat.pow 10 exponent.toNat) (Nat.pow 10 (-exponent).toNat)

/-- A text in lower-case ASCII letters. -/
private def lowered (s : List Char) : List Char :=
  s.map Char.toLower

/-- The bits of the magnitude of an unsigned decimal text, or of `inf`, `infinity` or `nan` in
any letter case. -/
def readMagnitude? (f : BinaryFormat) (s : List Char) : Option Nat :=
  if lowered s = "inf".toList ∨ lowered s = "infinity".toList then some f.infinityBits
  else if lowered s = "nan".toList then some f.nanBits
  else
    let (whole, rest) := takeDigits s
    let (fraction, rest) : List Char × List Char :=
      match rest with
      | '.' :: rest => takeDigits rest
      | rest => ([], rest)
    if whole.isEmpty && fraction.isEmpty then none
    else
      match takeExponent? rest with
      | some (exponent, []) =>
        some (roundDecimal f (digitsValue 0 (whole ++ fraction)) (exponent - fraction.length))
      | _ => none

/-- The bits of the number of a format nearest to a decimal text with an optional sign. -/
def readRounded? (f : BinaryFormat) (s : List Char) : Option Nat :=
  match s with
  | '-' :: rest => (readMagnitude? f rest).map (f.withSign true)
  | '+' :: rest => readMagnitude? f rest
  | rest => readMagnitude? f rest

/-! ## Scaled reading -/

/-- The digits taken into a 64-bit word before the first one that does not fit, and the digits
left. -/
def takeWord (n : Nat) : List Char → Nat × List Char
  | [] => (n, [])
  | c :: cs =>
    let next := 10 * n + (c.toNat - '0'.toNat)
    if next < Nat.pow 2 64 then takeWord next cs else (n, c :: cs)

/-- The word and the exponent of ten that stand for a decimal. -/
def scaledWord (t : DecimalText) : Nat × Int :=
  let (n, dropped) := takeWord 0 t.whole
  let (n, unused) := takeWord n t.fraction
  (n, t.exponent + dropped.length - (t.fraction.length - unused.length : Nat))

/-- A magnitude times a power of ten, rounded after each step; nothing beyond the largest
number. -/
def scale? (f : BinaryFormat) (bits : Nat) (exponent : Int) : Option Nat :=
  let times (bits num den : Nat) : Nat :=
    match f.decode bits with
    | .finite _ d => f.round (d.num * num) (d.den * den)
    | _ => bits
  let power (n : Nat) : Dyadic :=
    match f.decode (f.round (Nat.pow 10 n) 1) with
    | .finite _ d => d
    | _ => ⟨1, 0⟩
  if bits = 0 then some 0
  else if 0 ≤ exponent then
    if 308 < exponent then none
    else
      let p := power exponent.toNat
      let out := times bits p.num p.den
      if out = f.infinityBits then none else some out
  else
    -- division goes in steps of at most `10 ^ 308`; three of them leave nothing
    let n := (-exponent).toNat
    let byHuge (bits : Nat) : Nat := let p := power 308; times bits p.den p.num
    let small (bits n : Nat) : Nat := let p := power n; times bits p.den p.num
    if n ≤ 308 then some (small bits n)
    else if n ≤ 616 then some (small (byHuge bits) (n - 308))
    else if n ≤ 924 then some (small (byHuge (byHuge bits)) (n - 616))
    else some 0

/-- The bits of the double that a JSON number stands for; nothing beyond the largest one. -/
def readScaled? (negative : Bool) (t : DecimalText) : Option Nat :=
  let (n, exponent) := scaledWord t
  (scale? double (double.round n 1) exponent).map (double.withSign negative)

end PlainSchema.Decimal
