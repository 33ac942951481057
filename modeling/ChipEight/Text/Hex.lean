/-!
# Hexadecimal numerals

Signed numbers in base sixteen, padded with zeros to a least width. The minus
sign of a negative number counts into the width and stands in front of the
zeros, so `-1` in width three is `-01`.
-/

namespace ChipEight.Text.Hex

/-- The digits of a natural number, letters in lower case. -/
def digits (n : Nat) : List Char := Nat.toDigits 16 n

/-- Zeros in front of `body` until it and `sign` fill `width` characters. -/
def pad (width : Nat) (sign body : List Char) : List Char :=
  sign ++ List.replicate (width - (sign.length + body.length)) '0' ++ body

/-- The sign that precedes the digits. -/
def sign (v : Int) : List Char := if v < 0 then ['-'] else []

/-- Lower-case numeral of at least `width` characters. -/
def lower (width : Nat) (v : Int) : String :=
  String.ofList (pad width (sign v) (digits v.natAbs))

/-- Upper-case numeral of at least `width` characters. -/
def upper (width : Nat) (v : Int) : String :=
  String.ofList (pad width (sign v) ((digits v.natAbs).map Char.toUpper))

/-- Two digits per byte, in lower case and without separators. -/
def ofBytes (bytes : List UInt8) : String :=
  String.ofList (bytes.flatMap fun b => pad 2 [] (digits b.toNat))

/-- The value of a hexadecimal digit in either case. -/
def digitValue? (c : Char) : Option Nat :=
  if '0' ≤ c ∧ c ≤ '9' then some (c.toNat - '0'.toNat)
  else if 'a' ≤ c ∧ c ≤ 'f' then some (c.toNat - 'a'.toNat + 10)
  else if 'A' ≤ c ∧ c ≤ 'F' then some (c.toNat - 'A'.toNat + 10)
  else none

/-- Reads pairs of digits as bytes; refuses an odd length and other characters. -/
def toBytes? : List Char → Option (List UInt8)
  | [] => some []
  | hi :: lo :: rest => do
    let h ← digitValue? hi
    let l ← digitValue? lo
    let tail ← toBytes? rest
    some (UInt8.ofNat (16 * h + l) :: tail)
  | [_] => none

end ChipEight.Text.Hex
