/-!
# Base64

Writing uses the standard alphabet and pads with `=`.  Reading accepts missing padding and
ignores leftover bits.  The standard alphabet is tried first; where it stops at a character of
the URL-safe alphabet, the whole text is read again with that one.
-/

namespace PlainSchema.Text

/-- The standard alphabet. -/
def base64Alphabet : List Char :=
  "ABCDEFGHIJKLMNOPQRSTUVWXYZabcdefghijklmnopqrstuvwxyz0123456789+/".toList

/-- The URL-safe alphabet. -/
def base64UrlAlphabet : List Char :=
  "ABCDEFGHIJKLMNOPQRSTUVWXYZabcdefghijklmnopqrstuvwxyz0123456789-_".toList

/-- The character of a six-bit number. -/
private def base64Char (n : Nat) : Char :=
  base64Alphabet.getD n '='

/-- The text of a byte sequence. -/
def base64 : List UInt8 → List Char
  | a :: b :: c :: rest =>
    let n := a.toNat * 65536 + b.toNat * 256 + c.toNat
    base64Char (n / 262144) :: base64Char (n / 4096 % 64) :: base64Char (n / 64 % 64)
      :: base64Char (n % 64) :: base64 rest
  | [a, b] =>
    let n := a.toNat * 1024 + b.toNat * 4
    [base64Char (n / 4096), base64Char (n / 64 % 64), base64Char (n % 64), '=']
  | [a] =>
    let n := a.toNat * 16
    [base64Char (n / 64), base64Char (n % 64), '=', '=']
  | [] => []

/-- The number of a character in an alphabet, or the character that stopped the reading. -/
private def base64Value (alphabet : List Char) (c : Char) : Except (Option Char) Nat :=
  match alphabet.idxOf? c with
  | some n => .ok n
  | none => .error (some c)

/-- The bytes of the last one to four characters, of which those behind the second one may be
padding. -/
private def base64Tail (alphabet : List Char) : List Char → Except (Option Char) (List UInt8)
  | [] => .ok []
  | [a] => do
    let _ ← base64Value alphabet a
    .error none
  | a :: b :: more => do
    let a ← base64Value alphabet a
    let b ← base64Value alphabet b
    let symbols := more.takeWhile (· ≠ '=')
    let values ← symbols.mapM (base64Value alphabet)
    if (more.drop symbols.length).any (· ≠ '=') then .error (some '=')
    else
      let first := UInt8.ofNat (a * 4 + b / 16)
      match values with
      | [] => .ok [first]
      | [c] => .ok [first, UInt8.ofNat (b % 16 * 16 + c / 4)]
      | c :: d :: _ =>
        .ok [first, UInt8.ofNat (b % 16 * 16 + c / 4), UInt8.ofNat (c % 4 * 64 + d)]

/-- The bytes of a text in an alphabet, or the character that stopped the reading. -/
private def base64Bytes (alphabet : List Char) : List Char → Except (Option Char) (List UInt8)
  | a :: b :: c :: d :: e :: rest => do
    let a ← base64Value alphabet a
    let b ← base64Value alphabet b
    let c ← base64Value alphabet c
    let d ← base64Value alphabet d
    let bytes ← base64Bytes alphabet (e :: rest)
    return UInt8.ofNat (a * 4 + b / 16) :: UInt8.ofNat (b % 16 * 16 + c / 4)
      :: UInt8.ofNat (c % 4 * 64 + d) :: bytes
  | tail => base64Tail alphabet tail

/-- The bytes of a text, if it is Base64 in one of the two alphabets. -/
def decodeBase64? (s : String) : Option (List UInt8) :=
  match base64Bytes base64Alphabet s.toList with
  | .ok bytes => some bytes
  | .error (some c) =>
    if c = '-' ∨ c = '_' then (base64Bytes base64UrlAlphabet s.toList).toOption else none
  | .error none => none

end PlainSchema.Text
