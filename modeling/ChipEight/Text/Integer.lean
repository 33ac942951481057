import ChipEight.Text.Blank
import ChipEight.Text.Digit

/-!
# Integer literals

An integer is written with digits of any script, optionally signed and with white
space around it. Single underscores may stand between digits. A literal with a
mark in front (`0x`, `0o`, `0b`) has that radix; without one it is decimal, and
then leading zeros are only allowed for zero itself. `readDecimal?` knows no marks
and allows leading zeros.

Decimal literals of more than 4300 digits are refused, because the time to read
one grows with the square of its length.
-/

namespace ChipEight.Text.Integer

/-- The longest decimal literal. -/
abbrev maxDecimalDigits : Nat := 4300

/-! ## Characters -/

/-- A character as ASCII: digits and white space of other scripts become those of
ASCII, other characters a question mark, which no literal contains. -/
def toAscii (c : Char) : Char :=
  if c.toNat < 0x80 then c
  else if isBlank c then ' '
  else match decimalValue? c with
    | some d => Char.ofNat ('0'.toNat + d)
    | none => '?'

/-- White space of ASCII text. -/
def isAsciiBlank (c : Char) : Bool := c == ' ' || decide (0x09 ≤ c.toNat ∧ c.toNat ≤ 0x0D)

/-- The value of a digit or letter, whatever the radix. -/
def digitValue? (c : Char) : Option Nat :=
  if '0' ≤ c ∧ c ≤ '9' then some (c.toNat - '0'.toNat)
  else if 'a' ≤ c ∧ c ≤ 'z' then some (c.toNat - 'a'.toNat + 10)
  else if 'A' ≤ c ∧ c ≤ 'Z' then some (c.toNat - 'A'.toNat + 10)
  else none

/-- The value of a digit of a radix. -/
def digitIn? (radix : Nat) (c : Char) : Option Nat :=
  (digitValue? c).filter fun d => d < radix

/-! ## Parts of a literal -/

/-- The digits in front of a text and the text behind them. An underscore has to
have a digit on both sides; `pending` tells that one has just been read. -/
def digits? (radix : Nat) (pending : Bool) : List Char → Option (List Nat × List Char)
  | [] => if pending then none else some ([], [])
  | c :: cs =>
    if c = '_' then if pending then none else digits? radix true cs
    else match digitIn? radix c with
      | some d => (digits? radix false cs).map fun (ds, rest) => (d :: ds, rest)
      | none => if pending then none else some ([], c :: cs)

/-- The number that a list of digits denotes, the highest digit first. -/
def value (radix : Nat) (ds : List Nat) : Nat := ds.foldl (fun n d => n * radix + d) 0

/-- Reads digits up to the end of a text. -/
def magnitude? (radix : Nat) (cs : List Char) : Option (List Nat) :=
  if cs.head? = some '_' then none
  else match digits? radix false cs with
    | some (d :: ds, rest) => if rest.all isAsciiBlank then some (d :: ds) else none
    | _ => none

/-- Reads a decimal number of bounded length. -/
def decimal? (cs : List Char) : Option Nat :=
  (magnitude? 10 cs).bind fun ds =>
    if ds.length ≤ maxDecimalDigits then some (value 10 ds) else none

/-- Splits off a sign; the flag tells whether it is a minus. -/
def sign (cs : List Char) : Bool × List Char :=
  match cs with
  | '-' :: rest => (true, rest)
  | '+' :: rest => (false, rest)
  | _ => (false, cs)

/-- The radix that a mark stands for. -/
def radixOf? : Char → Option Nat
  | 'x' | 'X' => some 16
  | 'o' | 'O' => some 8
  | 'b' | 'B' => some 2
  | _ => none

/-- Drops an underscore between a mark and the digits. -/
def afterMark : List Char → List Char
  | '_' :: rest => rest
  | cs => cs

/-- Reads a decimal number without superfluous zeros. -/
def plain? (cs : List Char) : Option Nat :=
  (decimal? cs).filter fun n => cs.head? ≠ some '0' || n == 0

/-- Reads a number with an optional mark of its radix. -/
def marked? (cs : List Char) : Option Nat :=
  match cs with
  | '0' :: mark :: rest =>
    match radixOf? mark with
    | some radix => (magnitude? radix (afterMark rest)).map (value radix)
    | none => plain? cs
  | _ => plain? cs

/-! ## Literals -/

/-- Reads a literal whose unsigned part `read` reads. -/
def signed? (read : List Char → Option Nat) (s : String) : Option Int :=
  let (minus, body) := sign ((s.toList.map toAscii).dropWhile isAsciiBlank)
  (read body).map fun n => if minus then -(n : Int) else n

/-- Reads a literal in the radix that it is marked with. -/
def read? (s : String) : Option Int := signed? marked? s

/-- Reads a decimal literal. -/
def readDecimal? (s : String) : Option Int := signed? decimal? s

end ChipEight.Text.Integer
