import ChipEight.Fault
import ChipEight.Text.Blank

/-!
# Keys

A `Keyboard` is what a machine sees of the sixteen keys: which are held, and one
key that is reported to a program that waits. A `Keypad` is the keyboard of this
library, a set of held keys that reports the least of them.
-/

namespace ChipEight

/-- A key of the hexadecimal pad. -/
abbrev Key := Fin keyCount

/-- What a machine polls. -/
structure Keyboard where
  /-- Whether a key is held. -/
  isPressed : Key → Bool
  /-- The code reported to a program that waits for a key. A device may report a
  code that names no key. -/
  pressedKey : Option Int

/-- The key with a given code. -/
def Key.ofInt? (code : Int) : Except Fault.Cause Key :=
  if h : 0 ≤ code ∧ code < keyCount then .ok ⟨code.toNat, by omega⟩ else .error (.noSuchKey code)

/-- The set of held keys. -/
structure Keypad where
  /-- Whether each key is held. -/
  held : Vector Bool keyCount
  deriving DecidableEq, Repr

namespace Keypad

/-- No key is held. -/
def released : Keypad := ⟨Vector.replicate keyCount false⟩

def isHeld (p : Keypad) (k : Key) : Bool := p.held[k]

/-- Marks a key as held or not. -/
def mark (p : Keypad) (k : Key) (isDown : Bool) : Keypad := ⟨p.held.set k.val isDown k.isLt⟩

/-- Presses the key with a given code. -/
def press (p : Keypad) (code : Int) : Except Fault.Cause Keypad :=
  (Key.ofInt? code).map fun k => p.mark k true

/-- Releases the key with a given code. -/
def release (p : Keypad) (code : Int) : Except Fault.Cause Keypad :=
  (Key.ofInt? code).map fun k => p.mark k false

/-- Whether the key with a given code is held. -/
def isPressed (p : Keypad) (code : Int) : Except Fault.Cause Bool :=
  (Key.ofInt? code).map p.isHeld

/-- Releases every key. -/
def releaseAll (_ : Keypad) : Keypad := released

/-- The held keys in ascending order. -/
def heldKeys (p : Keypad) : List Key := (List.finRange keyCount).filter p.isHeld

/-- The least held key. -/
def pressedKey (p : Keypad) : Option Key := p.heldKeys.head?

/-- The keypad as a machine sees it. -/
def keyboard (p : Keypad) : Keyboard where
  isPressed := p.isHeld
  pressedKey := p.pressedKey.map fun k => (k.val : Int)

end Keypad

/-! ## Keys of a host keyboard -/

/-- The host key that stands for each key. The left four-by-four block of a host
keyboard stands for the pad:

```
1 2 3 4      1 2 3 C
q w e r  ->  4 5 6 D
a s d f      7 8 9 E
z x c v      A 0 B F
``` -/
def hostKeys : Vector Char keyCount :=
  #v[ 'x', '1', '2', '3', 'q', 'w', 'e', 'a', 's', 'd', 'z', 'c', '4', 'r', 'f', 'v' ]

/-- The key that a host key name stands for; case and white space around the name
do not matter. Only ASCII letters have a case here, which is enough because no
other letter folds to one of the names. -/
def Key.ofHost? (name : String) : Option Key :=
  match Text.strip name.toList with
  | [c] => (List.finRange keyCount).find? fun k => hostKeys[k] == c.toLower
  | _ => none

namespace Keypad

/-- Presses the key of a host key name; an unmapped name changes nothing. -/
def pressHost (p : Keypad) (name : String) : Bool × Keypad :=
  match Key.ofHost? name with
  | some k => (true, p.mark k true)
  | none => (false, p)

/-- Releases the key of a host key name; an unmapped name changes nothing. -/
def releaseHost (p : Keypad) (name : String) : Bool × Keypad :=
  match Key.ofHost? name with
  | some k => (true, p.mark k false)
  | none => (false, p)

end Keypad

end ChipEight
