import ChipEight.Keypad
import ChipEight.Machine.Action

/-!
# Performing instructions

What every instruction does to a machine, action by action and in the order in which
the actions are taken. Every instruction checks its operands before it changes
anything; that is a property of these sequences and not of the form in which they are
written, since an action that halts takes nothing back.

The answer of an instruction tells whether the program counter is already that of the
next one.
-/

namespace ChipEight

/-! ## Values -/

/-- The result of a two-register operation on the values `a` and `b`, and what it
leaves in the flag register, if anything. A carry or borrow shows in that the result
has passed an operand. -/
def Arith.eval (op : Arith) (a b : UInt8) : UInt8 × Option UInt8 :=
  match op with
  | .copy => (b, none)
  | .or => (a ||| b, none)
  | .and => (a &&& b, none)
  | .xor => (a ^^^ b, none)
  | .add => (a + b, some (if a + b < a then 1 else 0))
  | .sub => (a - b, some (if a < a - b then 0 else 1))
  | .shr => (b >>> 1, some (b &&& 1))
  | .subn => (b - a, some (if b < b - a then 0 else 1))
  | .shl => (b <<< 1, some (b >>> 7))

/-- The three decimal digits of a byte, hundreds first. -/
def decimalDigits (v : UInt8) : List UInt8 := [v / 100, v / 10 % 10, v % 10]

/-- The registers up to `x`, in order. -/
def Reg.upTo (x : Reg) : List Reg := (List.finRange registerCount).take (x.val + 1)

namespace Action

/-! ## Registers and the program counter -/

/-- Passes over the next instruction if a condition holds. -/
def skipIf (condition : Bool) : Action Bool := do
  if condition then change fun m => { m with pc := m.pc + wordSize }
  return false

/-- Writes a register. -/
def assign (x : Reg) (v : UInt8) : Action Bool := do
  change (·.setReg x v)
  return false

/-- Combines two registers. The flag is written first, so that the flag register
as a destination keeps the result. -/
def combine (op : Arith) (x y : Reg) : Action Bool := do
  let m ← machine
  let (v, flag) := op.eval (m.reg x) (m.reg y)
  if let some f := flag then change (·.setReg flagRegister f)
  change (·.setReg x v)
  return false

/-- Refuses a target in the reserved region. -/
def refuseReserved (target : Target) (reserved : Int → Fault.Cause) : Action Unit :=
  if target.val < programStart then halt (.fault (reserved target.val)) else return ()

/-- Continues at an address above the reserved region. -/
def jump (target : Target) : Action Bool := do
  refuseReserved target .reservedJump
  change fun m => { m with pc := target.val }
  return true

/-- Calls a routine above the reserved region; the address of the call itself is
pushed. -/
def call (target : Target) : Action Bool := do
  refuseReserved target .reservedCall
  let m ← machine
  let memory ← attempt (m.memory.push m.pc)
  change fun m => { m with memory }
  change fun m => { m with pc := target.val }
  return true

/-- Returns to the address of the newest call; the general advance moves past it. -/
def ret : Action Bool := do
  let m ← machine
  let (address, memory) ← attempt m.memory.pop
  change fun m => { m with memory }
  change fun m => { m with pc := address.toNat }
  return false

/-- Loads a random byte masked by the given one. -/
def random (x : Reg) (mask : UInt8) : Action Bool := do
  let m ← machine
  let (b, random) := m.random.next
  change fun m => { m with random }
  assign x (b &&& mask)

/-! ## The picture -/

/-- Blanks the display row by row. -/
def clear : Action Bool := do
  (List.finRange displayHeight).forM fun row => change (·.setRow row 0)
  present .cleared
  return false

/-- Combines the rows of a sprite with those of the display from `row` on; rows
below the display are dropped. The answer tells whether a lit pixel went out, now or
before. -/
def stampRows (column : Nat) : Nat → List UInt8 → Bool → Action Bool
  | _, [], collision => return collision
  | row, byte :: rest, collision =>
    if h : row < displayHeight then do
      let before := (← machine).display[row]
      let after := before ^^^ Bitmap.lane byte column
      change (·.setRow ⟨row, h⟩ after)
      let previous := before &&& Bitmap.window column
      stampRows column (row + 1) rest (collision || (after &&& previous != previous))
    else return collision

/-- Draws the sprite of `n` rows at the index. -/
def draw (x y : Reg) (n : Fin 16) : Action Bool := do
  let m ← machine
  let sprite ← attempt (m.memory.readBlock m.index n.val)
  let collision ← stampRows (m.reg x).toNat (m.reg y).toNat sprite false
  change (·.setReg flagRegister (if collision then 1 else 0))
  present (.drawn collision)
  return false

/-! ## Keys and timers -/

/-- The key whose number a register holds. -/
def keyOperand (x : Reg) : Action Key := do
  let m ← machine
  if h : (m.reg x).toNat < keyCount then return ⟨(m.reg x).toNat, h⟩
  else halt (.fault (.noSuchKey (m.reg x).toNat))

/-- Reads a key, or stays at the instruction as long as none is reported. -/
def waitKey (keys : Keyboard) (x : Reg) : Action Bool :=
  match keys.pressedKey with
  | none => return true
  | some k =>
    if 0 ≤ k ∧ k < keyCount then assign x (UInt8.ofInt k) else halt (.fault (.badKeyReport k))

/-- Reads the delay timer, if a register can hold it. -/
def getDelay (x : Reg) : Action Bool := do
  let m ← machine
  if 0 ≤ m.delayTimer ∧ m.delayTimer < 256 then assign x (UInt8.ofInt m.delayTimer)
  else halt .notAByte

/-! ## Memory -/

/-- Stores one byte. -/
def storeByte (address : Int) (v : UInt8) : Action Unit := do
  let m ← machine
  let memory ← attempt (m.memory.writeByte address v.toNat (some m.pc))
  change fun m => { m with memory }

/-- Stores consecutive bytes one by one. -/
def storeBytes (address : Int) : List UInt8 → Action Unit
  | [] => return ()
  | v :: vs => do
    storeByte address v
    storeBytes (address + 1) vs

/-- Moves the index to the next byte. -/
def advanceIndex : Action Unit := change fun m => { m with index := m.index + 1 }

/-- Stores a register at the index. -/
def storeReg (r : Reg) : Action Unit := do
  let m ← machine
  storeByte m.index (m.reg r)
  advanceIndex

/-- Loads a register from the index. -/
def loadReg (r : Reg) : Action Unit := do
  let m ← machine
  let v ← attempt (m.memory.readByte m.index)
  change (·.setReg r v)
  advanceIndex

/-- Stores the decimal digits of a register at the index. -/
def storeDecimal (x : Reg) : Action Bool := do
  let m ← machine
  attempt (Memory.checkWritable m.index 3)
  storeBytes m.index (decimalDigits (m.reg x))
  return false

/-- Stores the registers up to `x` from the index on. -/
def storeRegs (x : Reg) : Action Bool := do
  let m ← machine
  attempt (Memory.checkWritable m.index (x.val + 1))
  (Reg.upTo x).forM storeReg
  return false

/-- Loads the registers up to `x` from the index on. -/
def loadRegs (x : Reg) : Action Bool := do
  let m ← machine
  attempt (Memory.checkRange m.index (x.val + 1))
  (Reg.upTo x).forM loadReg
  return false

/-! ## Instructions -/

/-- Performs an instruction. The answer tells whether the program counter is already
that of the next one. -/
def perform (keys : Keyboard) : Instruction → Action Bool
  | .clear => clear
  | .ret => ret
  | .jump t => jump t
  | .call t => call t
  | .skipEqByte x b => do skipIf ((← machine).reg x == b)
  | .skipNeByte x b => do skipIf ((← machine).reg x != b)
  | .skipEqReg x y => do skipIf ((← machine).reg x == (← machine).reg y)
  | .loadByte x b => assign x b
  | .addByte x b => do assign x ((← machine).reg x + b)
  | .arith op x y => combine op x y
  | .skipNeReg x y => do skipIf ((← machine).reg x != (← machine).reg y)
  | .loadIndex t => do
    change fun m => { m with index := t.val }
    return false
  | .jumpAlt t => jump t
  | .random x mask => random x mask
  | .draw x y n => draw x y n
  | .skipKey x => do skipIf (keys.isPressed (← keyOperand x))
  | .skipNoKey x => do skipIf (!keys.isPressed (← keyOperand x))
  | .getDelay x => getDelay x
  | .waitKey x => waitKey keys x
  | .setDelay x => do
    change fun m => { m with delayTimer := (m.reg x).toNat }
    return false
  | .setSound x => do
    change fun m => { m with soundTimer := (m.reg x).toNat }
    return false
  | .addIndex x => do
    change fun m => { m with index := (m.index + (m.reg x).toNat) % (indexMask + 1) }
    return false
  | .loadGlyph x => do
    change fun m => { m with index := glyphAddress (m.reg x).toNat }
    return false
  | .storeDecimal x => storeDecimal x
  | .storeRegs x => storeRegs x
  | .loadRegs x => loadRegs x

end Action

end ChipEight
