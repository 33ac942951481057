import ChipEight.Fault
import ChipEight.Instruction
import ChipEight.Recent

/-!
# Main memory and the call stack in it

Memory holds 4096 bytes. The call stack is no store of its own: its frames are
the two-byte words at the bottom of memory, and `depth` says how many of them
are in use. Checked accesses refuse addresses outside memory; single bytes
written through `writeByte` are recorded in a bounded log, which stack pushes
and program loads bypass.

Operations either answer with the cause of a fault and have no effect, or
answer with the new memory.
-/

namespace ChipEight

/-- One byte stored through the memory interface. -/
structure ByteWrite where
  /-- Where the byte was stored. -/
  address : Nat
  /-- The byte. -/
  value : UInt8
  /-- The byte that it replaced. -/
  previous : UInt8
  /-- The program counter of the store, if it had one. -/
  pc : Option Int
  deriving DecidableEq, Repr

/-- Main memory, the call stack in it and the log of stores. -/
structure Memory where
  bytes : Vector UInt8 memorySize
  /-- Stack frames in use. -/
  depth : Fin (stackDepth + 1)
  /-- The latest stores. -/
  log : Recent ByteWrite
  deriving DecidableEq, Repr

namespace Memory

/-- Entries that a log keeps unless told otherwise. -/
abbrev defaultLogLimit : Nat := 256

/-! ## Raw bytes -/

/-- The byte at an address; addresses outside memory read as zero. -/
def byte (m : Memory) (a : Nat) : UInt8 := m.bytes[a]?.getD 0

/-- Stores consecutive bytes from an address on; what lies outside is dropped. -/
def setBytes (bytes : Vector UInt8 memorySize) (a : Nat) : List UInt8 → Vector UInt8 memorySize
  | [] => bytes
  | v :: vs => setBytes (bytes.setIfInBounds a v) (a + 1) vs

/-- Zeros, and the glyphs behind the stack. -/
def powerOnBytes : Vector UInt8 memorySize := setBytes (Vector.replicate memorySize 0) fontBase font

/-- Memory at power-on, with a log that keeps `logLimit` stores. -/
def powerOn (logLimit : Option Nat) : Memory :=
  { bytes := powerOnBytes, depth := 0, log := .empty logLimit }

/-- The word in two consecutive bytes, the high one first. -/
def word (m : Memory) (a : Nat) : Word := Word.ofBytes (m.byte a) (m.byte (a + 1))

/-! ## Checked access -/

/-- Whether `length` bytes from `address` on lie in memory. Only the two ends are
compared, so a length of zero is in range just behind the last byte. -/
abbrev InRange (address length : Int) : Prop := 0 ≤ address ∧ address + length ≤ memorySize

/-- Refuses accesses that leave memory. -/
def checkRange (address length : Int) : Except Fault.Cause Unit :=
  if InRange address length then .ok () else .error (.outOfBounds length address)

/-- Refuses stores below the program region, then those that leave memory. -/
def checkWritable (address length : Int) : Except Fault.Cause Unit :=
  if address < programStart then .error (.reservedWrite address) else checkRange address length

/-- Reads one byte. -/
def readByte (m : Memory) (address : Int) : Except Fault.Cause UInt8 :=
  (checkRange address 1).map fun _ => m.byte address.toNat

/-- Reads a word, the high byte first. -/
def readWord (m : Memory) (address : Int) : Except Fault.Cause Word :=
  (checkRange address 2).map fun _ => m.word address.toNat

/-- Where a block ends that starts at `address`: an end below zero counts back
from the end of memory. -/
def blockEnd (address length : Int) : Nat :=
  if address + length < 0 then (memorySize + (address + length)).toNat else (address + length).toNat

/-- The bytes from one address up to another. -/
def bytesBetween (m : Memory) (start stop : Nat) : List UInt8 :=
  (List.range' start (stop - start)).map m.byte

/-- Reads consecutive bytes. -/
def readBlock (m : Memory) (address length : Int) : Except Fault.Cause (List UInt8) :=
  (checkRange address length).map fun _ => m.bytesBetween address.toNat (blockEnd address length)

/-- Stores a byte and records it in the log. -/
def store (m : Memory) (a : Nat) (v : UInt8) (pc : Option Int) : Memory :=
  let log := m.log.push { address := a, value := v, previous := m.byte a, pc }
  { m with bytes := m.bytes.setIfInBounds a v, log }

/-- Stores consecutive bytes one by one. -/
def storeAll (m : Memory) (a : Nat) (pc : Option Int) : List UInt8 → Memory
  | [] => m
  | v :: vs => storeAll (m.store a v pc) (a + 1) pc vs

/-- Writes the low byte of a number. -/
def writeByte (m : Memory) (address value : Int) (pc : Option Int) : Except Fault.Cause Memory :=
  (checkRange address 1).map fun _ => m.store address.toNat (UInt8.ofInt value) pc

/-- Empties the log. -/
def clearLog (m : Memory) : Memory := { m with log := m.log.clear }

/-- Copies a program to where programs start. -/
def load (m : Memory) (program : List UInt8) : Except Fault.Cause Memory :=
  if program.length ≤ maxProgramSize then
    .ok { m with bytes := setBytes m.bytes programStart program }
  else .error (.programTooLarge program.length)

/-! ## Call stack -/

/-- The next free byte of the stack. -/
def sp (m : Memory) : Nat := stackBase + stackFrameSize * m.depth.val

/-- The return address in a frame. -/
def frame (m : Memory) (slot : Nat) : Word := m.word (stackBase + stackFrameSize * slot)

/-- The return addresses on the stack, the oldest first. -/
def frames (m : Memory) : List Word := (List.range m.depth.val).map m.frame

/-- Pushes the low sixteen bits of an address. -/
def push (m : Memory) (address : Int) : Except Fault.Cause Memory :=
  if h : m.depth.val < stackDepth then
    .ok { m with
      bytes := setBytes m.bytes m.sp [UInt8.ofInt (address / 256), UInt8.ofInt address]
      depth := ⟨m.depth.val + 1, by omega⟩ }
  else .error (.stackOverflow address)

/-- Removes the newest return address. -/
def pop (m : Memory) : Except Fault.Cause (Word × Memory) :=
  if m.depth.val = 0 then .error .stackUnderflow
  else .ok (m.frame (m.depth.val - 1), { m with depth := ⟨m.depth.val - 1, by omega⟩ })

/-- The newest return address, if there is one. -/
def peek (m : Memory) : Option Word :=
  if m.depth.val = 0 then none else some (m.frame (m.depth.val - 1))

end Memory

end ChipEight
