import ChipEight.Snapshot
import ChipEight.Text.Hex

/-!
# Differences between snapshots

A difference lists the registers and counters that changed, the bytes of memory
that changed, and whether the display did. Fields of which only one side has a
value, such as a seventeenth register, are not compared; neither is the stack,
which memory and the stack pointer determine.
-/

namespace ChipEight

open Text

/-- A field with two different values. -/
structure FieldChange where
  /-- The name of the field. -/
  name : String
  /-- Its value in the first snapshot. -/
  before : Int
  /-- Its value in the second snapshot. -/
  after : Int
  deriving DecidableEq, Repr

/-- A byte of memory with two different values. -/
structure ByteChange where
  /-- Where the byte is. -/
  address : Nat
  /-- Its value in the first snapshot. -/
  before : UInt8
  /-- Its value in the second snapshot. -/
  after : UInt8
  deriving DecidableEq, Repr

/-- What differs between two snapshots. -/
structure SnapshotDiff where
  /-- Registers, then the counters. -/
  fields : List FieldChange := []
  /-- Bytes of memory, in ascending order of address. -/
  bytes : List ByteChange := []
  /-- Whether the displays differ. -/
  displayChanged : Bool := false
  deriving DecidableEq, Repr

namespace Snapshot

/-- The counters that are compared, by name. -/
def counters (s : Snapshot) : List (String × Int) :=
  [ ("index", s.index), ("delay_timer", s.delayTimer), ("sound_timer", s.soundTimer)
  , ("pc", s.pc), ("sp", s.sp), ("cycle", s.cycle) ]

/-- The registers, by name. -/
def namedRegisters (s : Snapshot) : List (String × Int) :=
  s.registers.zipIdx.map fun (v, i) => ("V" ++ Hex.upper 1 i, v)

/-- The change of a field, if its values differ. -/
def fieldChange? (before after : String × Int) : Option FieldChange :=
  if before.2 = after.2 then none else some ⟨before.1, before.2, after.2⟩

/-- The changes of fields that both sides have. -/
def fieldChanges (before after : List (String × Int)) : List FieldChange :=
  (before.zip after).filterMap fun (b, a) => fieldChange? b a

/-- The changes of bytes from address `a` on. -/
def byteChanges (a : Nat) : List UInt8 → List UInt8 → List ByteChange
  | x :: xs, y :: ys =>
    if x = y then byteChanges (a + 1) xs ys else ⟨a, x, y⟩ :: byteChanges (a + 1) xs ys
  | _, _ => []

/-- What differs between two snapshots. -/
def diff (before after : Snapshot) : SnapshotDiff where
  fields := fieldChanges before.namedRegisters after.namedRegisters ++
    fieldChanges before.counters after.counters
  bytes := byteChanges 0 before.memory after.memory
  displayChanged := before.display != after.display

/-- What changed since a snapshot; nothing if there is none. -/
def diffSince (before : Option Snapshot) (after : Snapshot) : SnapshotDiff :=
  match before with
  | some b => b.diff after
  | none => {}

end Snapshot

namespace SnapshotDiff

/-- Whether a byte of memory changed. -/
def memoryChanged (d : SnapshotDiff) : Bool := !d.bytes.isEmpty

/-- Whether nothing changed. -/
def isEmpty (d : SnapshotDiff) : Bool := d.fields.isEmpty && d.bytes.isEmpty && !d.displayChanged

/-- The change of the field with a given name. -/
def get? (d : SnapshotDiff) (name : String) : Option FieldChange :=
  d.fields.find? fun f => f.name == name

end SnapshotDiff

end ChipEight
