import ChipEight.Snapshot
import ChipEight.Text.Hex

/-!
# Faults

A fault is a condition after which a machine cannot go on. `Fault.Cause` names
the conditions with what they are about; `Fault` is the report that reaches the
user: the wording, where execution stood, and the state in which it stopped.
-/

namespace ChipEight

open Text

/-! ## Kinds -/

inductive FaultKind
  | unknownOpcode
  | stackOverflow
  | stackUnderflow
  | reservedJump
  | reservedWrite
  | outOfBounds
  | programTooLarge
  | invalidKey
  deriving DecidableEq, Repr

/-- A kind in words. -/
def FaultKind.text : FaultKind → String
  | .unknownOpcode => "unknown opcode"
  | .stackOverflow => "stack overflow"
  | .stackUnderflow => "stack underflow"
  | .reservedJump => "jump to reserved address"
  | .reservedWrite => "write to reserved memory"
  | .outOfBounds => "memory access out of bounds"
  | .programTooLarge => "program too large"
  | .invalidKey => "invalid key"

/-- Groups of faults that are handled alike. All but the accesses to reserved
addresses have one kind each. -/
inductive Fault.Category
  | general
  | unknownOpcode
  | stackOverflow
  | stackUnderflow
  /-- A jump, call or write that aims at the reserved low addresses. -/
  | reservedAddress (kind : FaultKind)
  | memoryBounds
  | programTooLarge
  | invalidKey
  deriving DecidableEq, Repr

def Fault.Category.kind : Fault.Category → FaultKind
  | .general => .unknownOpcode
  | .unknownOpcode => .unknownOpcode
  | .stackOverflow => .stackOverflow
  | .stackUnderflow => .stackUnderflow
  | .reservedAddress kind => kind
  | .memoryBounds => .outOfBounds
  | .programTooLarge => .programTooLarge
  | .invalidKey => .invalidKey

/-! ## Causes -/

/-- Conditions that end execution. -/
inductive Fault.Cause
  /-- The word at the program counter is no instruction. -/
  | unknownOpcode
  /-- The stack has no room for a return address. -/
  | stackOverflow (returnAddress : Int)
  /-- There is no call to return from. -/
  | stackUnderflow
  /-- A jump aims at a reserved address. -/
  | reservedJump (target : Int)
  /-- A call aims at a reserved address. -/
  | reservedCall (target : Int)
  /-- A write at a reserved address. -/
  | reservedWrite (address : Int)
  /-- An access to `length` bytes that do not all lie in memory. -/
  | outOfBounds (length address : Int)
  /-- A program that does not fit above the reserved region. -/
  | programTooLarge (size : Nat)
  /-- A number that names no key. -/
  | noSuchKey (key : Int)
  /-- The keyboard answered with a number that names no key. -/
  | badKeyReport (key : Int)
  deriving DecidableEq, Repr

namespace Fault.Cause

def category : Cause → Category
  | .unknownOpcode => .unknownOpcode
  | .stackOverflow _ => .stackOverflow
  | .stackUnderflow => .stackUnderflow
  | .reservedJump _ => .reservedAddress .reservedJump
  | .reservedCall _ => .reservedAddress .reservedJump
  | .reservedWrite _ => .reservedAddress .reservedWrite
  | .outOfBounds _ _ => .memoryBounds
  | .programTooLarge _ => .programTooLarge
  | .noSuchKey _ => .invalidKey
  | .badKeyReport _ => .invalidKey

def kind (c : Cause) : FaultKind := c.category.kind

/-- The address that a cause is about. -/
def address : Cause → Option Int
  | .stackOverflow a => some a
  | .reservedJump a => some a
  | .reservedCall a => some a
  | .reservedWrite a => some a
  | .outOfBounds _ a => some a
  | _ => none

/-- The wording of a cause. -/
def message : Cause → String
  | .unknownOpcode => "bad opcode"
  | .stackOverflow _ => "stack overflow"
  | .stackUnderflow => "return with empty stack"
  | .reservedJump _ => "jump to reserved address"
  | .reservedCall _ => "call to reserved address"
  | .reservedWrite _ => "write to reserved memory"
  | .outOfBounds length _ => "access of " ++ toString length ++ " byte(s) past end of memory"
  | .programTooLarge size =>
    "program is " ++ toString size ++ " bytes, at most " ++ toString maxProgramSize ++
      " fit between 0x" ++ Hex.upper 3 programStart ++ " and 0x" ++ Hex.upper 3 memorySize
  | .noSuchKey key => "expected key between 0x0 and 0xF, got " ++ toString key
  | .badKeyReport key => "keyboard reported key " ++ toString key ++ ", expected 0x0-0xF"

end Fault.Cause

/-! ## Reports -/

/-- The report of a fault. -/
structure Fault where
  /-- The group that the fault belongs to. -/
  category : Fault.Category
  /-- What happened, in words. -/
  message : String
  /-- The instruction word, if one had been fetched. -/
  opcode : Option Int := none
  /-- The program counter, if the fault arose in a step. -/
  pc : Option Int := none
  /-- The address that the fault is about. -/
  address : Option Int := none
  /-- The state in which a step stopped. -/
  snapshot : Option Snapshot := none
  deriving DecidableEq, Repr

namespace Fault

def kind (f : Fault) : FaultKind := f.category.kind

/-- The report of a cause that did not arise in a step. -/
def ofCause (c : Cause) : Fault :=
  { category := c.category, message := c.message, address := c.address }

/-- One optional part of the text of a fault. -/
def detail (label : String) (width : Nat) : Option Int → List String
  | some v => [label ++ "=0x" ++ Hex.upper width v]
  | none => []

/-- The message and, after it, whatever is known of word, counter and address. -/
def text (f : Fault) : String :=
  " ".intercalate ([f.message] ++ detail "opcode" 4 f.opcode ++ detail "pc" 3 f.pc ++
    detail "address" 3 f.address)

end Fault

end ChipEight
