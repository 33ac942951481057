import ChipEight.Machine.Perform

/-!
# Steps of a machine

`Machine.step` fetches the word at the program counter, reads it as an instruction and
performs it. A step that fails answers with its reason and with what was done until
then.

The timers lose one whenever the count of executed instructions is a multiple of
the divider; an instruction that sets a timer does so before that.
-/

namespace ChipEight

/-! ## Ways to fail -/

/-- Why an operation of a machine or of a session could not be carried out. -/
inductive Failure
  /-- The machine cannot go on. -/
  | fault (report : Fault)
  /-- A timer was read into a register that cannot hold its value. -/
  | notAByte
  /-- The instruction rate is beyond the range of clock arithmetic. -/
  | rateTooLarge
  /-- A bound for recorded events is no capacity. -/
  | badCapacity (error : Recent.CapacityError)
  deriving DecidableEq, Repr

/-- The wording of a value that does not fit a register. -/
def notAByteMessage : String := "byte must be in range(0, 256)"

namespace Machine

/-! ## After an instruction -/

/-- A timer after one decrement; it stops at zero. -/
def lessOne (timer : Int) : Int := max 0 (timer - 1)

/-- Lets the timers run, once every `divider` instructions. -/
def decay (m : Machine) (divider : Int) : Machine :=
  if m.cycle % divider = 0 then
    { m with delayTimer := lessOne m.delayTimer, soundTimer := lessOne m.soundTimer }
  else m

/-- Completes an instruction: timers, program counter, unless the instruction has set
it, and count. -/
def finish (m : Machine) (setsPc : Bool) (divider : Int) : Machine :=
  let m := m.decay divider
  { m with
    pc := if setsPc then m.pc else m.pc + wordSize
    cycle := m.cycle + 1 }

/-! ## Steps -/

/-- The word at the program counter. -/
def fetch (m : Machine) : Except Fault.Cause Word := m.memory.readWord m.pc

/-- The report of a fault that stopped a step at `pc` in the state `m`, with the word
if it had been fetched. -/
def report (m : Machine) (pc : Int) (word : Option Word) (cause : Fault.Cause) : Fault :=
  { Fault.ofCause cause with
    opcode := word.map fun w => (w.toNat : Int)
    pc := some pc
    snapshot := some m.snapshot }

/-- Why a step at `pc` failed in the state `m`. -/
def failure (m : Machine) (pc : Int) (word : Option Word) : Halt → Failure
  | .fault cause => .fault (m.report pc word cause)
  | .notAByte => .notAByte

/-- An executed instruction. -/
structure Step where
  /-- Where the instruction was. -/
  pc : Int
  word : Word
  /-- The machine behind it. -/
  next : Machine
  /-- What became of the picture, if the instruction drew. -/
  redraw : Option Redraw

/-- A step that was given up. -/
structure Stop where
  /-- The word, if it had been fetched. -/
  word : Option Word
  /-- What was done until then. -/
  left : Progress
  /-- The reason. -/
  failure : Failure

/-- A step at `pc` that was given up in the state `left`. -/
def stop (pc : Int) (word : Option Word) (left : Progress) (h : Halt) : Stop :=
  { word, left, failure := left.machine.failure pc word h }

/-- Executes the instruction at the program counter. -/
def step (m : Machine) (divider : Int) (keys : Keyboard) : Except Stop Step :=
  match m.fetch with
  | .error c => .error (stop m.pc none { machine := m } (.fault c))
  | .ok w =>
    match Instruction.ofWord? w with
    | none => .error (stop m.pc (some w) { machine := m } (.fault .unknownOpcode))
    | some i =>
      match (Action.perform keys i).run { machine := m } with
      | .error h left => .error (stop m.pc (some w) left h)
      | .ok setsPc done =>
        .ok { pc := m.pc, word := w, next := done.machine.finish setsPc divider,
              redraw := done.redraw }

end Machine

end ChipEight
