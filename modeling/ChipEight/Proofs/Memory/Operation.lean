import ChipEight.Proofs.Memory.InPlace

/-!
# Operations of memory

`Memory.Op` lists what can be asked of memory. `Memory.respond` says what is answered and which
memory is left, `Op.inPlace` carries the operation out on raw memory. Both agree, whatever came
before: raw memory is never anything but a memory.

## Main results

* `Memory.run_inPlace` — how an operation ends in place.
* `Memory.raw_performAll` — any number of operations in place.
* `Memory.unchanged_of_error` — an operation that fails has changed nothing.
-/

namespace ChipEight

namespace Memory

/-! ## The interface -/

/-- What can be read. -/
inductive Query
  | byte (address : Int)
  | word (address : Int)
  | block (address : Int) (length : Nat)
  /-- The newest return address. -/
  | newest
  /-- How many return addresses there are. -/
  | depth
  /-- All return addresses, the oldest first. -/
  | frames
  deriving DecidableEq, Repr

/-- What can be asked of memory. -/
inductive Op
  | writeByte (address value : Int) (pc : Option Int)
  | push (address : Int)
  | pop
  | load (program : List UInt8)
  | clearLog
  | read (q : Query)
  deriving DecidableEq, Repr

/-- What an operation answers if it does not fail. -/
inductive Answer
  | done
  | byte (v : UInt8)
  | word (w : Word)
  | block (vs : List UInt8)
  | newest (w : Option Word)
  | depth (n : Int)
  | frames (ws : List Word)
  deriving DecidableEq, Repr

/-- What is read. -/
def read (m : Memory) : Query → Except Fault.Cause Answer
  | .byte address => (m.readByte address).map .byte
  | .word address => (m.readWord address).map .word
  | .block address length => (m.readBlock address length).map .block
  | .newest => .ok (.newest m.peek)
  | .depth => .ok (.depth m.depth.val)
  | .frames => .ok (.frames m.frames)

/-- What an operation answers, and the memory behind it. -/
def respond (m : Memory) : Op → Except Fault.Cause (Answer × Memory)
  | .writeByte address value pc => (m.writeByte address value pc).map (.done, ·)
  | .push address => (m.push address).map (.done, ·)
  | .pop => m.pop.map fun (w, m') => (.word w, m')
  | .load program => (m.load program).map (.done, ·)
  | .clearLog => .ok (.done, m.clearLog)
  | .read q => (m.read q).map (·, m)

/-- Takes over a new memory, if there is one. -/
def taking (m : Memory) : Except Fault.Cause (Answer × Memory) → Memory
  | .ok (_, m') => m'
  | .error _ => m

/-- The memory behind an operation, whether that failed or not. -/
def perform (m : Memory) (o : Op) : Memory := m.taking (m.respond o)

/-- The memory behind a sequence of operations. -/
def performAll (m : Memory) (ops : List Op) : Memory := ops.foldl perform m

/-! ## The interface in place -/

def Query.inPlace : Query → InPlace Answer
  | .byte address => do return .byte (← InPlace.readByte address)
  | .word address => do return .word (← InPlace.readWord address)
  | .block address length => do return .block (← InPlace.readBlock address length)
  | .newest => do return .newest (← InPlace.peek)
  | .depth => do return .depth (← InPlace.depth)
  | .frames => do return .frames (← InPlace.frames)

def Op.inPlace : Op → InPlace Answer
  | .writeByte address value pc => do InPlace.writeByte address value pc; return .done
  | .push address => do InPlace.push address; return .done
  | .pop => do return .word (← InPlace.pop)
  | .load program => do InPlace.load program; return .done
  | .clearLog => do InPlace.clearLog; return .done
  | .read q => q.inPlace

end Memory

namespace RawMemory

/-- The raw memory behind an operation, whether that failed or not. -/
def perform (r : RawMemory) (o : Memory.Op) : RawMemory :=
  match o.inPlace.run r with
  | .ok _ r' => r'
  | .error _ r' => r'

/-- The raw memory behind a sequence of operations. -/
def performAll (r : RawMemory) (ops : List Memory.Op) : RawMemory := ops.foldl perform r

end RawMemory

namespace Memory

variable (m : Memory)

/-! ## Operations in place -/

theorem run_query (q : Query) : q.inPlace.run m.raw = m.ending ((m.read q).map (·, m)) := by
  cases q with
  | byte address =>
      rw [Query.inPlace, InPlace.run_bind, InPlace.run_readByte, read]
      cases m.readByte address <;> rfl
  | word address =>
      rw [Query.inPlace, InPlace.run_bind, InPlace.run_readWord, read]
      cases m.readWord address <;> rfl
  | block address length =>
      rw [Query.inPlace, InPlace.run_bind, InPlace.run_readBlock, read]
      cases m.readBlock address length <;> rfl
  | newest =>
      rw [Query.inPlace, InPlace.run_bind, InPlace.run_peek]
      rfl
  | depth =>
      rw [Query.inPlace, InPlace.run_bind, InPlace.run_depth]
      rfl
  | frames =>
      rw [Query.inPlace, InPlace.run_bind, InPlace.run_frames]
      rfl

/-- An operation in place ends as memory responds. -/
theorem run_inPlace (o : Op) : o.inPlace.run m.raw = m.ending (m.respond o) := by
  cases o with
  | writeByte address value pc =>
      rw [Op.inPlace, InPlace.run_bind, InPlace.run_writeByte, respond]
      cases m.writeByte address value pc <;> rfl
  | push address =>
      rw [Op.inPlace, InPlace.run_bind, InPlace.run_push, respond]
      cases m.push address <;> rfl
  | pop =>
      rw [Op.inPlace, InPlace.run_bind, InPlace.run_pop, respond]
      cases m.pop <;> rfl
  | load program =>
      rw [Op.inPlace, InPlace.run_bind, InPlace.run_load, respond]
      cases m.load program <;> rfl
  | clearLog =>
      rw [Op.inPlace, InPlace.run_bind, InPlace.run_clearLog]
      rfl
  | read q => exact m.run_query q

theorem raw_perform (o : Op) : m.raw.perform o = (m.perform o).raw := by
  unfold RawMemory.perform perform
  rw [run_inPlace]
  cases m.respond o <;> rfl

theorem raw_performAll (ops : List Op) : m.raw.performAll ops = (m.performAll ops).raw := by
  induction ops generalizing m with
  | nil => rfl
  | cons o ops ih =>
      show (m.raw.perform o).performAll ops = ((m.perform o).performAll ops).raw
      rw [raw_perform, ih]

/-- An operation that fails in place, at whichever point, has changed nothing. -/
theorem unchanged_of_error {o : Op} {e : Stop} {r : RawMemory}
    (herror : o.inPlace.run m.raw = .error e r) : r = m.raw := by
  rw [run_inPlace] at herror
  cases hresult : m.respond o with
  | ok answered =>
      rw [hresult] at herror
      cases herror
  | error cause =>
      rw [hresult] at herror
      cases herror
      rfl

end Memory

end ChipEight
