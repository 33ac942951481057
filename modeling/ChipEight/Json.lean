import ChipEight.Double.Shortest
import ChipEight.Text.Quoted

/-!
# Structured data

`JsonValue` is the data that configuration files hold and that trace events may
carry. Objects keep their members in order, one member per name. `words` prints a
value for a person to read. Truth values count as the numbers zero and one. `nesting`
tells how deep a value goes.
-/

namespace ChipEight

open Text

/-- Structured data. -/
inductive JsonValue
  | null
  | bool (b : Bool)
  | int (i : Int)
  /-- A number that was written with a point or an exponent, or that is infinite or no
  number at all. -/
  | double (x : Float)
  | str (s : String)
  | arr (items : List JsonValue)
  | obj (members : List (String × JsonValue))
  deriving Repr, Inhabited

namespace JsonValue

/-- Adds a member to an object; a member of the same name is replaced in its
place. -/
def putMember (members : List (String × JsonValue)) (name : String) (v : JsonValue) :
    List (String × JsonValue) :=
  if members.any (·.1 == name) then members.map fun m => if m.1 == name then (name, v) else m
  else members ++ [(name, v)]

def member? (members : List (String × JsonValue)) (name : String) : Option JsonValue :=
  members.lookup name

/-- Puts the members of a layer over others, one after another. -/
def laidOver (members layer : List (String × JsonValue)) : List (String × JsonValue) :=
  layer.foldl (fun ms m => putMember ms m.1 m.2) members

/-! ## Numbers -/

/-- The integer that a value is or counts as. -/
def int? : JsonValue → Option Int
  | .int i => some i
  | .bool b => some b.toNat
  | _ => none

/-- The double nearest to a value, unless the value is no number or beyond all doubles. -/
def double? : JsonValue → Option Float
  | .int i => Double.ofNat? i.toNat
  | .bool b => some (if b then 1.0 else 0.0)
  | .double x => some x
  | _ => none

/-- Whether a value is below a number. Only numbers can be compared; a double that is no number is
not below any. -/
def below? (v : JsonValue) (n : Nat) : Option Bool :=
  match v with
  | .int i => some (decide (i < n))
  | .bool b => some (decide (b.toNat < n))
  | .double x => some (decide (x < Float.ofNat n))
  | _ => none

/-! ## Nesting -/

mutual

/-- How deep lists and objects are nested in a value. -/
def nesting : JsonValue → Nat
  | .arr items => nestingOfItems items + 1
  | .obj members => nestingOfMembers members + 1
  | _ => 0

/-- How deep lists and objects are nested in the elements of a list. -/
def nestingOfItems : List JsonValue → Nat
  | [] => 0
  | v :: vs => max v.nesting (nestingOfItems vs)

/-- How deep lists and objects are nested in the members of an object. -/
def nestingOfMembers : List (String × JsonValue) → Nat
  | [] => 0
  | (_, v) :: ms => max v.nesting (nestingOfMembers ms)

end

/-! ## Words -/

/-- Whether a value is empty, zero or false. -/
def isVoid : JsonValue → Bool
  | .null => true
  | .bool b => !b
  | .int i => i == 0
  | .double x => Double.isZero x
  | .str s => s.isEmpty
  | .arr items => items.isEmpty
  | .obj members => members.isEmpty

mutual

/-- A value in words, with texts in quotes. -/
def spelled : JsonValue → String
  | .null => "None"
  | .bool true => "True"
  | .bool false => "False"
  | .int i => toString i
  | .double x => Double.text x
  | .str s => Quoted.quoted s
  | .arr items => "[" ++ ", ".intercalate (spelledItems items) ++ "]"
  | .obj members => "\x7b" ++ ", ".intercalate (spelledMembers members) ++ "\x7d"

/-- The elements of a list in words. -/
def spelledItems : List JsonValue → List String
  | [] => []
  | v :: vs => v.spelled :: spelledItems vs

/-- The members of an object in words. -/
def spelledMembers : List (String × JsonValue) → List String
  | [] => []
  | (name, v) :: ms => (Quoted.quoted name ++ ": " ++ v.spelled) :: spelledMembers ms

end

/-- A value in words; a text stands for itself. -/
def words : JsonValue → String
  | .str s => s
  | v => v.spelled

end JsonValue

end ChipEight
