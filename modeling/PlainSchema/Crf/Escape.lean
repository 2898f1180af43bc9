import PlainSchema.Text.Utf8

/-!
# Escaping the components of a collision resolution path

The characters that structure a path are written `%XX` inside names, marker keys and marker
values, so a path can always be cut at the literal separators.  `unescape` undoes `escape`;
an escape that is not two hexadecimal digits stands for itself.
-/

namespace PlainSchema.Crf

/-- The characters with a meaning of their own in a path. -/
def isStructural (c : Char) : Bool :=
  c == '/' || c == '?' || c == ';' || c == '=' || c == '%'

/-- The upper-case hexadecimal digit of a number below sixteen. -/
def hexDigit (n : Nat) : Char :=
  Char.ofNat (if n < 10 then 0x30 + n else 0x37 + n)

/-- A character as it is written inside a component. -/
def escapeChar (c : Char) : List Char :=
  if isStructural c then ['%', hexDigit (c.toNat / 16), hexDigit (c.toNat % 16)] else [c]

/-- A component with its structural characters escaped. -/
def escape (component : String) : String :=
  String.ofList (component.toList.flatMap escapeChar)

/-- The value of a byte that is a hexadecimal digit of either case. -/
def hexValue? (b : UInt8) : Option UInt8 :=
  if 0x30 ≤ b ∧ b ≤ 0x39 then some (b - 0x30)
  else if 0x41 ≤ b ∧ b ≤ 0x46 then some (b - 0x37)
  else if 0x61 ≤ b ∧ b ≤ 0x66 then some (b - 0x57)
  else none

/-- The bytes with every well-formed `%XX` replaced by the byte it names. -/
def percentDecode : List UInt8 → List UInt8
  | b :: high :: low :: rest =>
    if b = 0x25 then
      match hexValue? high, hexValue? low with
      | some h, some l => (h * 16 + l) :: percentDecode rest
      | _, _ => b :: percentDecode (high :: low :: rest)
    else b :: percentDecode (high :: low :: rest)
  | bytes => bytes

/-- A component with its escapes decoded.  The decoded bytes need not be UTF-8; each
ill-formed run becomes U+FFFD. -/
def unescape (component : String) : String :=
  Utf8.decodeLossy (percentDecode (Utf8.encode component))

end PlainSchema.Crf
