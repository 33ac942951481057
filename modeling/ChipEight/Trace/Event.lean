import ChipEight.Json
import ChipEight.Text.Hex

/-!
# Trace events

An event tells what a machine did at an address: it executed an instruction, drew
a picture or stopped at a fault. Details that only some events have are in the
payload, by name.
-/

namespace ChipEight.Trace

open Text

/-- What an event is about. -/
inductive EventKind
  /-- An instruction was fetched. -/
  | instruction
  /-- The display was redrawn. -/
  | draw
  /-- The machine stopped. -/
  | fault
  deriving DecidableEq, Repr

def EventKind.name : EventKind → String
  | .instruction => "instruction"
  | .draw => "draw"
  | .fault => "fault"

/-- The kind with a given name. -/
def EventKind.ofName? (name : String) : Option EventKind :=
  [.instruction, .draw, .fault].find? fun k => EventKind.name k == name

/-- The wording for a name that is no kind. -/
def EventKind.unknownMessage (name : String) : String :=
  Quoted.quoted name ++ " is not a valid TraceEventType"

/-- One event of a trace. -/
structure Event where
  /-- What it is about. -/
  kind : EventKind
  /-- The program counter. -/
  pc : Option Int := none
  /-- The instruction word, if one had been fetched. -/
  opcode : Option Int := none
  /-- What happened, in words. -/
  message : String := ""
  /-- Further details. -/
  payload : List (String × JsonValue) := []
  deriving Repr

namespace Event

/-- An instruction was fetched. -/
def instruction (pc opcode : Int) (message : String) : Event :=
  { kind := .instruction, pc := some pc, opcode := some opcode, message }

/-- The display was redrawn; a sprite also tells whether it collided. -/
def draw (pc opcode : Int) (collision : Option Bool) : Event :=
  { kind := .draw, pc := some pc, opcode := some opcode, message := "display redraw"
    payload := collision.elim [] fun b => [("collision", .bool b)] }

/-- The machine stopped; the dump shows its state. -/
def fault (pc : Int) (opcode : Option Int) (message dump : String) : Event :=
  { kind := .fault, pc := some pc, opcode, message := "panic: " ++ message
    payload := [("dump", .str dump)] }

/-- The event as one line. -/
def text (e : Event) : String :=
  e.pc.elim "" (fun pc => "[" ++ Hex.upper 3 pc ++ "] ") ++ e.message

end Event

end ChipEight.Trace
