import ChipEight.Text.CodePoint
import ChipEight.Text.Hex
import ChipEight.Text.Printable

/-!
# Quoted text

A text inside a message is set in quotes so that its ends can be seen. Single
quotes are used, or double ones around a text that has single quotes and no
double ones. A backslash escapes itself, the quote in use, the characters that
are not printable and the halves of surrogate pairs. What remains is printable, so
it is its own written form.
-/

namespace ChipEight.Text.Quoted

/-- The quote to set a text in. -/
def quoteFor (cs : List Char) : Char := if cs.contains '\'' && !cs.contains '"' then '"' else '\''

/-- A hexadecimal escape with a fixed number of digits. -/
def numeric (letter : Char) (width : Nat) (code : Nat) : List Char :=
  '\\' :: letter :: Hex.pad width [] (Hex.digits code)

/-- The escape of a code in the fewest of two, four or eight digits. -/
def codeEscape (code : Nat) : List Char :=
  if code < 0x100 then numeric 'x' 2 code
  else if code < 0x10000 then numeric 'u' 4 code
  else numeric 'U' 8 code

/-- How a character is written between quotes. -/
def escape (quote c : Char) : List Char :=
  if c = quote ∨ c = '\\' then ['\\', c]
  else if c = '\n' then ['\\', 'n']
  else if c = '\r' then ['\\', 'r']
  else if c = '\t' then ['\\', 't']
  else if isPrintable c then [c]
  else codeEscape c.toNat

/-- How a code point is written between quotes. -/
def escapeCode (quote : Char) (code : Nat) : List Char :=
  if CodePoint.isHalf code then codeEscape code else escape quote (Char.ofNat code)

/-- A text in quotes. -/
def quoted (s : String) : String :=
  let quote := quoteFor s.toList
  String.ofList ([quote] ++ (CodePoint.codes s).flatMap (escapeCode quote) ++ [quote])

/-- The characters of a text for a terminal, with an escape for each half of a pair. -/
def shown (s : String) : String :=
  String.ofList ((CodePoint.codes s).flatMap fun code =>
    if CodePoint.isHalf code then codeEscape code else [Char.ofNat code])

end ChipEight.Text.Quoted
