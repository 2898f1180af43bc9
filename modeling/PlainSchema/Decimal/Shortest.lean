import PlainSchema.Decimal.Binary

/-!
# The shortest decimal of a floating-point number

Every decimal in an interval around a number reads back as that number.  `shortest` searches
the decimal grids from coarse to fine, tests the two neighbours of the number on each, and
returns the first hit: no decimal with fewer digits reads back.  Of two hits the nearer one
counts, and of two equally near ones the even one.
-/

namespace PlainSchema.Decimal

/-- The decimal `digits * 10 ^ exponent`. -/
structure Dec where
  digits : Nat
  exponent : Int
  deriving DecidableEq, Repr

/-- The decimals that read back as a number, as quotients with one denominator. -/
structure Interval where
  low : Nat
  value : Nat
  high : Nat
  den : Nat
  /-- Whether the ends read back too. -/
  closed : Bool
  deriving DecidableEq, Repr

/-- The interval of a number of a format.  The gap below a power of two is half as wide. -/
def Interval.ofDyadic (f : BinaryFormat) (d : Dyadic) : Interval :=
  let scale := Nat.pow 2 (d.exponent - 2).toNat
  let narrow := d.significand = Nat.pow 2 f.fractionBits ∧ f.leastExponent < d.exponent
  { low := (4 * d.significand - if narrow then 1 else 2) * scale
    value := 4 * d.significand * scale
    high := (4 * d.significand + 2) * scale
    den := Nat.pow 2 (2 - d.exponent).toNat
    closed := d.significand % 2 = 0 }

/-- Whether a decimal lies in the interval. -/
def Interval.contains (i : Interval) (d : Dec) : Bool :=
  let point := d.digits * Nat.pow 10 d.exponent.toNat * i.den
  let scale := Nat.pow 10 (-d.exponent).toNat
  if i.closed then i.low * scale ≤ point && point ≤ i.high * scale
  else i.low * scale < point && point < i.high * scale

/-- The neighbour of the number on the grid `10 ^ exponent` that lies in the interval. -/
def Interval.onGrid? (i : Interval) (exponent : Int) : Option Dec :=
  let num := i.value * Nat.pow 10 (-exponent).toNat
  let den := i.den * Nat.pow 10 exponent.toNat
  let below : Dec := ⟨num / den, exponent⟩
  let above : Dec := ⟨num / den + 1, exponent⟩
  match i.contains below, i.contains above with
  | true, true => some ⟨BinaryFormat.roundQuotient num den, exponent⟩
  | true, false => some below
  | false, true => some above
  | false, false => none

/-- The first hit on a number of grids, from coarse to fine. -/
def Interval.search (i : Interval) : Nat → Int → Option Dec
  | 0, _ => none
  | grids + 1, exponent => i.onGrid? exponent <|> i.search grids (exponent - 1)

/-- The shortest decimal that reads back as a number of a format. -/
def shortest (f : BinaryFormat) (d : Dyadic) : Dec :=
  -- the common logarithm of two lies between 3/10 and 1/3, so no coarser grid has a hit
  let magnitude : Int := Nat.log2 d.significand + d.exponent
  let top : Int := max (magnitude / 3) (magnitude * 3 / 10) + 1
  let i := Interval.ofDyadic f d
  (i.search (Nat.log2 d.significand + d.exponent.natAbs + 20) top).getD ⟨d.significand, 0⟩

/-- The decimal digits of a number. -/
def digitsOf (n : Nat) : List Char :=
  Nat.toDigits 10 n

/-- How a decimal is laid out: the exponents of the leading digit that are written with a
point and without an exponent. -/
structure Layout where
  plainFrom : Int
  plainTo : Int
  deriving DecidableEq, Repr

/-- A decimal as it is written.  Whole numbers keep `.0`; an exponent has a sign when it is not
negative, and a single digit before it has no point. -/
def Layout.render (l : Layout) (d : Dec) : List Char :=
  let digits := digitsOf d.digits
  let lead := d.exponent + digits.length - 1
  if l.plainFrom ≤ lead ∧ lead ≤ l.plainTo then
    if 0 ≤ d.exponent then digits ++ List.replicate d.exponent.toNat '0' ++ ['.', '0']
    else if 0 ≤ lead then
      let whole := (lead + 1).toNat
      digits.take whole ++ ['.'] ++ digits.drop whole
    else ['0', '.'] ++ List.replicate (-lead - 1).toNat '0' ++ digits
  else
    let exponent :=
      if lead < 0 then '-' :: digitsOf lead.natAbs else '+' :: digitsOf lead.natAbs
    match digits with
    | [] => []
    | [c] => c :: 'e' :: exponent
    | c :: cs => c :: '.' :: cs ++ 'e' :: exponent

/-- The text of a finite number of a format; nothing for the others. -/
def renderFinite? (f : BinaryFormat) (l : Layout) (bits : Nat) : Option (List Char) :=
  match f.decode bits with
  | .zero negative => some (if negative then ['-', '0', '.', '0'] else ['0', '.', '0'])
  | .finite negative d =>
    let text := l.render (shortest f d)
    some (if negative then '-' :: text else text)
  | _ => none

end PlainSchema.Decimal
