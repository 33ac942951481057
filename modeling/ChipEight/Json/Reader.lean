import ChipEight.Json
import ChipEight.Text.CodePoint
import ChipEight.Text.Integer

/-!
# Reading structured data

The reader accepts the JSON grammar and the words `NaN`, `Infinity` and
`-Infinity` for numbers. Of several members with one name the last one counts.
Each function takes a text and answers with what it read and the text behind it. The
text that is read consists of characters; an escape may add half of a surrogate pair, so
the texts of a value are in written form.

Lists and objects may be nested in each other up to `maxNesting` deep; a bracket
that opens one more is refused, whatever follows it. Recursion is also bounded by a
depth that `JsonValue.parse` takes from the length of the text: of two levels at least
one consumes a character.
-/

namespace ChipEight

open Text

/-- Why a text is no structured data. -/
inductive JsonError
  /-- The text does not follow the grammar. -/
  | malformed
  /-- An integer has too many digits. -/
  | longInteger (digits : Nat)
  /-- Lists and objects are nested too deeply. -/
  | tooDeep
  deriving DecidableEq, Repr

/-- The wording of an integer that is too long. -/
def JsonError.longIntegerMessage (digits : Nat) : String :=
  "Exceeds the limit (" ++ toString Integer.maxDecimalDigits ++
    " digits) for integer string conversion: value has " ++ toString digits ++
    " digits; use sys.set_int_max_str_digits() to increase the limit"

namespace JsonValue

/-- A value and the text behind it. -/
abbrev Read (α : Type) := Except JsonError (α × List Char)

/-! ## Lexical parts -/

/-- White space between the parts of a text. -/
def isSpace (c : Char) : Bool := c == ' ' || c == '\t' || c == '\n' || c == '\r'

/-- Drops white space in front. -/
def skipSpace (cs : List Char) : List Char := cs.dropWhile isSpace

/-- The number of four hexadecimal digits. -/
def hexValue? (a b c d : Char) : Option Nat := do
  let a ← Hex.digitValue? a
  let b ← Hex.digitValue? b
  let c ← Hex.digitValue? c
  let d ← Hex.digitValue? d
  some (((a * 16 + b) * 16 + c) * 16 + d)

/-- Reads four hexadecimal digits. -/
def hexFour? : List Char → Option (Nat × List Char)
  | a :: b :: c :: d :: rest => (hexValue? a b c d).map fun n => (n, rest)
  | _ => none

theorem length_of_hexFour? {cs rest : List Char} {n : Nat} (h : hexFour? cs = some (n, rest)) :
    rest.length < cs.length := by
  unfold hexFour? at h
  split at h
  next =>
    obtain ⟨_, _, heq⟩ := Option.map_eq_some_iff.1 h
    cases heq
    simp only [List.length_cons]
    omega
  next => cases h

/-- Reads the second half of a surrogate pair, with the mark in front of it. -/
def secondHalf? (hi : Nat) : List Char → Option (Nat × List Char)
  | '\\' :: 'u' :: cs =>
    match hexFour? cs with
    | some (lo, rest) => (CodePoint.join? hi lo).map fun code => (code, rest)
    | none => none
  | _ => none

theorem length_of_secondHalf? {hi code : Nat} {cs rest : List Char}
    (h : secondHalf? hi cs = some (code, rest)) : rest.length < cs.length := by
  unfold secondHalf? at h
  split at h
  next cs =>
    split at h
    next lo rest' h' =>
      obtain ⟨_, _, heq⟩ := Option.map_eq_some_iff.1 h
      cases heq
      have := length_of_hexFour? h'
      simp only [List.length_cons]
      omega
    next => cases h
  next => cases h

/-- Reads a code point, or the two halves of one. -/
def codeEscape? (cs : List Char) : Option (Nat × List Char) :=
  match hexFour? cs with
  | none => none
  | some (hi, rest) => some ((secondHalf? hi rest).getD (hi, rest))

theorem length_of_codeEscape? {code : Nat} {cs rest : List Char}
    (h : codeEscape? cs = some (code, rest)) : rest.length < cs.length := by
  unfold codeEscape? at h
  split at h
  next => cases h
  next hi more h' =>
    have hmore := length_of_hexFour? h'
    cases h2 : secondHalf? hi more with
    | none =>
      rw [h2] at h
      cases h
      exact hmore
    | some pair =>
      obtain ⟨d, tail⟩ := pair
      rw [h2] at h
      cases h
      have := length_of_secondHalf? h2
      omega

/-- Reads an escape behind its backslash. -/
def escape? (cs : List Char) : Option (Nat × List Char) :=
  match cs with
  | [] => none
  | c :: rest =>
    if c = '"' ∨ c = '\\' ∨ c = '/' then some (c.toNat, rest)
    else if c = 'b' then some (0x08, rest)
    else if c = 'f' then some (0x0C, rest)
    else if c = 'n' then some (0x0A, rest)
    else if c = 'r' then some (0x0D, rest)
    else if c = 't' then some (0x09, rest)
    else if c = 'u' then codeEscape? rest
    else none

theorem length_of_escape? {code : Nat} {cs rest : List Char}
    (h : escape? cs = some (code, rest)) : rest.length < cs.length := by
  unfold escape? at h
  split at h
  next => cases h
  next d tail =>
    rw [List.length_cons]
    repeat' split at h
    all_goals first
      | exact Nat.lt_succ_of_lt (length_of_codeEscape? h)
      | (cases h <;> exact Nat.lt_succ_self _)

/-- Reads a text up to its closing quote; `found` is the written form of what stands
before, last character first. -/
def stringBody (found : List Char) : List Char → Read String
  | [] => .error .malformed
  | c :: cs =>
    if c = '"' then .ok (String.ofList found.reverse, cs)
    else if c = '\\' then
      match h : escape? cs with
      | none => .error .malformed
      | some (e, rest) =>
        have : rest.length < cs.length := length_of_escape? h
        stringBody ((CodePoint.ofCode e).reverse ++ found) rest
    else if c.toNat < 0x20 then .error .malformed
    else stringBody ((CodePoint.ofChar c).reverse ++ found) cs
termination_by cs => cs.length
decreasing_by
  all_goals simp only [List.length_cons]; omega

/-- The decimal digits in front of a text, and the text behind them. -/
def digitRun (cs : List Char) : List Char × List Char :=
  (cs.takeWhile Char.isDigit, cs.dropWhile Char.isDigit)

/-- The number that decimal digits denote. -/
def digitsValue (ds : List Char) : Nat :=
  Integer.value 10 (ds.map fun c => c.toNat - '0'.toNat)

/-- Reads the part of a number before a point: a zero, or digits that do not start
with one. -/
def wholePart? (cs : List Char) : Option (List Char × List Char) :=
  match cs with
  | '0' :: rest => some (['0'], rest)
  | _ =>
    match digitRun cs with
    | ([], _) => none
    | run => some run

/-- Reads a point and the digits behind it, if both are there. -/
def fraction (cs : List Char) : List Char × List Char :=
  match cs with
  | '.' :: rest =>
    match digitRun rest with
    | ([], _) => ([], cs)
    | run => run
  | _ => ([], cs)

/-- Reads the digits of an exponent. -/
def exponentDigits (minus : Bool) (cs : List Char) : Option (Int × List Char) :=
  match digitRun cs with
  | ([], _) => none
  | (ds, rest) => some (if minus then -(digitsValue ds : Int) else digitsValue ds, rest)

/-- Reads an exponent, if there is one. -/
def exponent? (cs : List Char) : Option (Int × List Char) :=
  match cs with
  | e :: rest =>
    if e = 'e' ∨ e = 'E' then
      match rest with
      | '+' :: rest => exponentDigits false rest
      | '-' :: rest => exponentDigits true rest
      | _ => exponentDigits false rest
    else none
  | [] => none

/-- Reads a number whose sign has been read. -/
def number (minus : Bool) (cs : List Char) : Read JsonValue :=
  let signed (n : Nat) : Int := if minus then -(n : Int) else n
  match wholePart? cs with
  | none => .error .malformed
  | some (whole, rest) =>
    match fraction rest, exponent? (fraction rest).2 with
    | ([], rest), none =>
      if whole.length ≤ Integer.maxDecimalDigits then .ok (.int (signed (digitsValue whole)), rest)
      else .error (.longInteger whole.length)
    | (places, rest), none =>
      let x := Double.ofDecimal minus (digitsValue (whole ++ places)) (-(places.length : Int))
      .ok (.double x, rest)
    | (places, _), some (e, rest) =>
      let x := Double.ofDecimal minus (digitsValue (whole ++ places)) (e - places.length)
      .ok (.double x, rest)

/-- Reads one of the words that stand for values, or a number. -/
def word (cs : List Char) : Read JsonValue :=
  match cs with
  | 'n' :: 'u' :: 'l' :: 'l' :: rest => .ok (.null, rest)
  | 't' :: 'r' :: 'u' :: 'e' :: rest => .ok (.bool true, rest)
  | 'f' :: 'a' :: 'l' :: 's' :: 'e' :: rest => .ok (.bool false, rest)
  | 'N' :: 'a' :: 'N' :: rest => .ok (.double Double.notANumber, rest)
  | 'I' :: 'n' :: 'f' :: 'i' :: 'n' :: 'i' :: 't' :: 'y' :: rest =>
    .ok (.double (Double.infinity false), rest)
  | '-' :: 'I' :: 'n' :: 'f' :: 'i' :: 'n' :: 'i' :: 't' :: 'y' :: rest =>
    .ok (.double (Double.infinity true), rest)
  | '-' :: rest => number true rest
  | _ => number false cs

/-! ## Values -/

/-- Reads the name of a member and the colon behind it. -/
def memberName (cs : List Char) : Read String :=
  match cs with
  | '"' :: rest =>
    match stringBody [] rest with
    | .error e => .error e
    | .ok (name, rest) =>
      match skipSpace rest with
      | ':' :: rest => .ok (name, skipSpace rest)
      | _ => .error .malformed
  | _ => .error .malformed

mutual

/-- Reads a value in which lists and objects may be nested `room` deep. -/
def value : Nat → Nat → List Char → Read JsonValue
  | 0, _, _ => .error .malformed
  | depth + 1, room, cs =>
    match cs with
    | '"' :: rest =>
      match stringBody [] rest with
      | .error e => .error e
      | .ok (s, rest) => .ok (.str s, rest)
    | '[' :: rest =>
      if room = 0 then .error .tooDeep
      else match skipSpace rest with
        | ']' :: rest => .ok (.arr [], rest)
        | rest => items depth (room - 1) [] rest
    | '\x7b' :: rest =>
      if room = 0 then .error .tooDeep
      else match skipSpace rest with
        | '\x7d' :: rest => .ok (.obj [], rest)
        | rest => members depth (room - 1) [] rest
    | _ => word cs

/-- Reads the elements of a list and its closing bracket, after those in `found`, of which
the last comes first. -/
def items : Nat → Nat → List JsonValue → List Char → Read JsonValue
  | 0, _, _, _ => .error .malformed
  | depth + 1, room, found, cs =>
    match value depth room cs with
    | .error e => .error e
    | .ok (v, rest) =>
      match skipSpace rest with
      | ']' :: rest => .ok (.arr (v :: found).reverse, rest)
      | ',' :: rest => items depth room (v :: found) (skipSpace rest)
      | _ => .error .malformed

/-- Reads the members of an object and its closing brace, after those in `found`. -/
def members : Nat → Nat → List (String × JsonValue) → List Char → Read JsonValue
  | 0, _, _, _ => .error .malformed
  | depth + 1, room, found, cs =>
    match memberName cs with
    | .error e => .error e
    | .ok (name, rest) =>
      match value depth room rest with
      | .error e => .error e
      | .ok (v, rest) =>
        let found := putMember found name v
        match skipSpace rest with
        | '\x7d' :: rest => .ok (.obj found, rest)
        | ',' :: rest => members depth room found (skipSpace rest)
        | _ => .error .malformed

end

/-- How deep lists and objects may be nested. -/
abbrev maxNesting : Nat := 990

/-- Reads a text of characters that holds one value and nothing else. -/
def parse (s : String) : Except JsonError JsonValue :=
  let cs := skipSpace s.toList
  match value (2 * cs.length + 1) maxNesting cs with
  | .error e => .error e
  | .ok (v, rest) => if (skipSpace rest).isEmpty then .ok v else .error .malformed

end JsonValue

end ChipEight
