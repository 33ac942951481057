import ChipEight.Snapshot
import ChipEight.Text.Hex

/-!
# Printing a snapshot

A dump shows every number of a snapshot for inspection after a fault: registers,
counters and stack in lower case, then memory as rows of sixteen bytes in upper
case. The display is printed apart, one character per pixel.
-/

namespace ChipEight

open Text

namespace Snapshot

/-! ## Dumps -/

/-- Bytes in one row of a memory dump. -/
abbrev dumpWidth : Nat := 16

/-- Rows of memory from address `a` on. -/
def memoryRows (a : Nat) (bytes : List UInt8) : List String :=
  match bytes with
  | [] => []
  | b :: rest =>
    (Hex.upper 3 a ++ ": " ++
        " ".intercalate (((b :: rest).take dumpWidth).map fun v => Hex.upper 2 v.toNat)) ::
      memoryRows (a + dumpWidth) (rest.drop (dumpWidth - 1))
termination_by bytes.length
decreasing_by simp only [List.length_drop, List.length_cons]; omega

/-- The line of one register. -/
def registerLine (r : Int × Nat) : String :=
  "v[" ++ Hex.lower 1 r.2 ++ "]: 0x" ++ Hex.lower 2 r.1

def stackLine (stack : List Int) : String :=
  match stack with
  | [] => "stack: <empty>"
  | _ => "stack: " ++ " ".intercalate (stack.map fun a => "0x" ++ Hex.lower 3 a)

/-- The lines in front of the memory rows. -/
def stateLines (s : Snapshot) : List String :=
  ["---Registers---"] ++ s.registers.zipIdx.map registerLine ++
    [ "i: 0x" ++ Hex.lower 3 s.index
    , "st: 0x" ++ Hex.lower 2 s.soundTimer
    , "dt: 0x" ++ Hex.lower 2 s.delayTimer
    , "pc: 0x" ++ Hex.lower 3 s.pc
    , "sp: 0x" ++ Hex.lower 3 s.sp
    , "cycle: " ++ toString s.cycle
    , stackLine s.stack ]

/-- The lines of a dump, with or without the contents of memory. -/
def dumpLines (s : Snapshot) (withMemory : Bool) : List String :=
  s.stateLines ++
    if withMemory then "---Memory---" :: memoryRows 0 (s.memory.take memorySize) else []

/-- The text of a dump. -/
def dump (s : Snapshot) (withMemory : Bool) : String := "\n".intercalate (s.dumpLines withMemory)

end Snapshot

/-! ## Pictures -/

/-- Whether bit `column` of a row is set; rows below zero have infinitely many
set bits, as in two's complement. -/
def bitSet (row : Int) (column : Nat) : Bool := row >>> column % 2 == 1

/-- One row as text. -/
def rowText (on off : String) (row : Int) : String :=
  String.join ((List.range displayWidth).map fun x => if bitSet row x then on else off)

/-- The text that stands for a lit pixel unless told otherwise. -/
def litText : String := "#"

/-- The text that stands for a dark pixel unless told otherwise. -/
def darkText : String := "."

/-- The display of a snapshot as text, one line per row. -/
def Snapshot.displayText (s : Snapshot) (on off : String) : String :=
  "\n".intercalate (s.display.map (rowText on off))

end ChipEight
