import ChipEight.Bitmap
import ChipEight.Generator
import ChipEight.Memory

/-!
# The state of the machine

A machine is memory with its stack, sixteen registers, the index, two timers,
the program counter, a count of executed instructions, the display and a random
source.

Counters and timers are integers without bounds. Programs keep them small, but
whoever holds a machine may set them to anything, and every definition says what
happens then.
-/

namespace ChipEight

/-- The complete state of a machine. -/
structure Machine where
  /-- Memory, with the call stack in it. -/
  memory : Memory
  /-- The general registers. -/
  registers : Vector UInt8 registerCount
  /-- The index register. -/
  index : Int
  delayTimer : Int
  soundTimer : Int
  /-- The program counter. -/
  pc : Int
  /-- Instructions executed so far. -/
  cycle : Int
  display : Bitmap
  /-- The random source. -/
  random : Generator
  deriving DecidableEq, Repr

namespace Machine

/-- The machine at power-on, before a program is loaded. -/
def powerOn (random : Generator) : Machine :=
  { memory := .powerOn (some Memory.defaultLogLimit)
    registers := Vector.replicate registerCount 0
    index := 0
    delayTimer := 0
    soundTimer := 0
    pc := programStart
    cycle := 0
    display := Bitmap.blank
    random }

/-- The value of a register. -/
def reg (m : Machine) (r : Reg) : UInt8 := m.registers[r]

/-- Changes a register. -/
def setReg (m : Machine) (r : Reg) (v : UInt8) : Machine :=
  { m with registers := m.registers.set r.val v r.isLt }

/-- Changes a row of the display. -/
def setRow (m : Machine) (row : Fin displayHeight) (pixels : Row) : Machine :=
  { m with display := m.display.set row.val pixels row.isLt }

/-- Copies a program to where programs start. -/
def load (m : Machine) (program : List UInt8) : Except Fault.Cause Machine :=
  (m.memory.load program).map fun memory => { m with memory }

def soundActive (m : Machine) : Bool := 0 < m.soundTimer

/-- A copy of everything that can be observed. -/
def snapshot (m : Machine) : Snapshot where
  registers := m.registers.toList.map fun v => (v.toNat : Int)
  index := m.index
  delayTimer := m.delayTimer
  soundTimer := m.soundTimer
  pc := m.pc
  sp := m.memory.sp
  cycle := m.cycle
  stack := m.memory.frames.map fun w => (w.toNat : Int)
  memory := m.memory.bytes.toList
  display := m.display.rows

end Machine

end ChipEight
