import ChipEight.Layout

/-!
# Snapshots

A snapshot is a copy of everything that can be observed of a machine. It is
plain data: nothing in it is checked, so it can also describe states that no
machine reaches.
-/

namespace ChipEight

/-- A copy of the observable state of a machine. -/
structure Snapshot where
  /-- The general registers. -/
  registers : List Int := List.replicate registerCount 0
  /-- The index register. -/
  index : Int := 0
  delayTimer : Int := 0
  soundTimer : Int := 0
  /-- The program counter. -/
  pc : Int := programStart
  /-- The next free byte of the call stack. -/
  sp : Int := stackBase
  /-- Instructions executed so far. -/
  cycle : Int := 0
  /-- Return addresses, the oldest first. -/
  stack : List Int := []
  /-- The bytes of memory. -/
  memory : List UInt8 := []
  /-- Rows of the display; bit `k` of a row is column `k`. -/
  display : List Int := List.replicate displayHeight 0
  deriving DecidableEq, Repr

end ChipEight
