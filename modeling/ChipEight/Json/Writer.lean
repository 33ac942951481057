import ChipEight.Json

/-!
# Writing structured data

A value is written without white space, members in their order. In a text only the quote,
the backslash, control characters and halves of surrogate pairs are escaped, so what is
written is a text of characters.

In a file every element and every member has a line of its own, further in than the brackets
around it, and everything that is not printable ASCII is escaped.
-/

namespace ChipEight.JsonValue

open Text

/-- How a code point is written between quotes. -/
def escaped (code : Nat) : List Char :=
  if code < 0x20 ∨ CodePoint.isHalf code then Quoted.numeric 'u' 4 code
  else if code = '"'.toNat ∨ code = '\\'.toNat then ['\\', Char.ofNat code]
  else [Char.ofNat code]

/-- Writes a text with its quotes behind `out`. -/
def writeString (out s : String) : String :=
  ((CodePoint.codes s).foldl (fun out code => (escaped code).foldl String.push out)
    (out.push '"')).push '"'

/-- How a double is written. -/
def doubleText (x : Float) : String :=
  if x.isNaN then "NaN"
  else if x.isInf then if Double.isNegative x then "-Infinity" else "Infinity"
  else Double.text x

mutual

/-- Writes a value behind `out`. -/
def write (out : String) : JsonValue → String
  | .null => out ++ "null"
  | .bool true => out ++ "true"
  | .bool false => out ++ "false"
  | .int i => out ++ toString i
  | .double x => out ++ doubleText x
  | .str s => writeString out s
  | .arr items => (writeItems (out.push '[') items).push ']'
  | .obj members => (writeMembers (out.push '\x7b') members).push '\x7d'

/-- Writes the elements of a list behind `out`. -/
def writeItems (out : String) : List JsonValue → String
  | [] => out
  | [v] => write out v
  | v :: vs => writeItems ((write out v).push ',') vs

/-- Writes the members of an object behind `out`. -/
def writeMembers (out : String) : List (String × JsonValue) → String
  | [] => out
  | [(name, v)] => write ((writeString out name).push ':') v
  | (name, v) :: ms => writeMembers ((write ((writeString out name).push ':') v).push ',') ms

end

def text (v : JsonValue) : String := v.write ""

/-! ## Lines -/

/-- The letter that stands for a control character behind a backslash. -/
def controlLetter? : Nat → Option Char
  | 0x08 => some 'b'
  | 0x09 => some 't'
  | 0x0A => some 'n'
  | 0x0C => some 'f'
  | 0x0D => some 'r'
  | _ => none

/-- How a code point is written between quotes in ASCII. One beyond sixteen bits is written as a
surrogate pair. -/
def asciiEscaped (code : Nat) : List Char :=
  if code = '"'.toNat ∨ code = '\\'.toNat then ['\\', Char.ofNat code]
  else if 0x20 ≤ code ∧ code < 0x7F then [Char.ofNat code]
  else match controlLetter? code with
    | some letter => ['\\', letter]
    | none =>
      if code < 0x10000 then Quoted.numeric 'u' 4 code
      else
        Quoted.numeric 'u' 4 (0xD800 + (code - 0x10000) / 0x400) ++
          Quoted.numeric 'u' 4 (0xDC00 + code % 0x400)

/-- A text in quotes, in ASCII. -/
def asciiQuoted (s : String) : String :=
  String.ofList ('"' :: (CodePoint.codes s).flatMap asciiEscaped ++ ['"'])

/-- Items in brackets, one on a line. The line of the closing bracket begins with `margin`, those of
the items two places further in. -/
def bracketed (opening closing : String) (margin : String) : List String → String
  | [] => opening ++ closing
  | items =>
    opening ++ margin ++ "  " ++ ("," ++ margin ++ "  ").intercalate items ++ margin ++ closing

mutual

/-- A value on lines of its own, of which those behind the first begin with `margin`. -/
def laidOut (margin : String) : JsonValue → String
  | .str s => asciiQuoted s
  | .arr items => bracketed "[" "]" margin (laidOutItems (margin ++ "  ") items)
  | .obj members => bracketed "\x7b" "\x7d" margin (laidOutMembers (margin ++ "  ") members)
  | v => v.text

/-- The elements of a list, each on lines of its own. -/
def laidOutItems (margin : String) : List JsonValue → List String
  | [] => []
  | v :: vs => v.laidOut margin :: laidOutItems margin vs

/-- The members of an object, each on lines of its own. -/
def laidOutMembers (margin : String) : List (String × JsonValue) → List String
  | [] => []
  | (name, v) :: ms => (asciiQuoted name ++ ": " ++ v.laidOut margin) :: laidOutMembers margin ms

end

end ChipEight.JsonValue
