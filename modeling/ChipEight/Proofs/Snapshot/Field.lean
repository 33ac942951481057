import ChipEight.Instruction.Mnemonic
import ChipEight.Machine
import ChipEight.Snapshot.Diff

/-!
# Numbers of a snapshot by name

Sixteen registers and six counters are compared when two snapshots are. `Field` lists them, with
a name, a value and a way to change each. Together with memory, the display and the call stack
they are all that a snapshot holds, and the call stack is told by memory and the stack pointer:
so snapshots of machines are equal once their fields, memories and displays are.

## Main results

* `Snapshot.namedRegisters_eq`, `Snapshot.counters_eq` — a comparison goes through the fields.
* `Snapshot.IsCapture.ext` — what tells a snapshot of a machine from another.
* `Machine.isCapture_snapshot` — every snapshot of a machine is one.
-/

namespace ChipEight

namespace Snapshot

/-! ## Fields -/

/-- A number that is compared by name. -/
inductive Field
  | register (r : Reg)
  | index
  | delayTimer
  | soundTimer
  | pc
  | sp
  | cycle
  deriving DecidableEq, Repr

/-- The name that a field has in a comparison. -/
def Field.name : Field → String
  | .register r => r.name
  | .index => "index"
  | .delayTimer => "delay_timer"
  | .soundTimer => "sound_timer"
  | .pc => "pc"
  | .sp => "sp"
  | .cycle => "cycle"

/-- All fields, in the order in which they are compared. -/
def Field.all : List Field :=
  (List.finRange registerCount).map .register ++
    [.index, .delayTimer, .soundTimer, .pc, .sp, .cycle]

/-- The field with a given name. -/
def Field.ofName? (name : String) : Option Field := Field.all.find? fun f => f.name == name

theorem Field.mem_all (f : Field) : f ∈ Field.all := by
  cases f with
  | register r => exact List.mem_append_left _ (List.mem_map_of_mem (List.mem_finRange r))
  | _ => exact List.mem_append_right _ (by decide)

theorem Field.nodup_names : (Field.all.map Field.name).Nodup := by decide +kernel

theorem Field.ofName?_name (f : Field) : Field.ofName? f.name = some f := by
  have hall : ∀ g ∈ Field.all, Field.ofName? g.name = some g := by decide +kernel
  exact hall f f.mem_all

/-- The value of a field. -/
def value (s : Snapshot) : Field → Int
  | .register r => s.registers.getD r 0
  | .index => s.index
  | .delayTimer => s.delayTimer
  | .soundTimer => s.soundTimer
  | .pc => s.pc
  | .sp => s.sp
  | .cycle => s.cycle

/-- Changes the value of a field. -/
def put (s : Snapshot) (v : Int) : Field → Snapshot
  | .register r => { s with registers := s.registers.set r v }
  | .index => { s with index := v }
  | .delayTimer => { s with delayTimer := v }
  | .soundTimer => { s with soundTimer := v }
  | .pc => { s with pc := v }
  | .sp => { s with sp := v }
  | .cycle => { s with cycle := v }

theorem length_registers_put (s : Snapshot) (v : Int) (f : Field) :
    (s.put v f).registers.length = s.registers.length := by
  cases f with
  | register r => exact List.length_set
  | _ => rfl

/-- A change of one field leaves the others alone. -/
theorem value_put {s : Snapshot} (hcount : s.registers.length = registerCount) (v : Int)
    (f g : Field) : (s.put v f).value g = if g = f then v else s.value g := by
  cases f with
  | register r =>
      cases g with
      | register q =>
          show (s.registers.set r v).getD q 0 = _
          have hr : r.val < s.registers.length := Nat.lt_of_lt_of_eq r.isLt hcount.symm
          by_cases heq : q = r
          · rw [heq, if_pos rfl, List.getD_eq_getElem?_getD, List.getElem?_set_self hr]
            rfl
          · have hne : r.val ≠ q.val := fun h => heq (Fin.ext h.symm)
            rw [if_neg (fun h => heq (Field.register.inj h)), List.getD_eq_getElem?_getD,
              List.getElem?_set_ne hne]
            rfl
      | _ => rfl
  | _ => cases g <;> rfl

/-! ## The order of comparison -/

theorem namedRegisters_eq {s : Snapshot} (hcount : s.registers.length = registerCount) :
    s.namedRegisters =
      ((List.finRange registerCount).map Field.register).map fun f => (f.name, s.value f) := by
  unfold namedRegisters
  apply List.ext_getElem
  · simp [hcount]
  · intro i hi _
    have hi' : i < s.registers.length := by simpa using hi
    simp [Field.name, Reg.name, value, hi']

theorem counters_eq (s : Snapshot) :
    s.counters = [Field.index, .delayTimer, .soundTimer, .pc, .sp, .cycle].map fun f =>
      (f.name, s.value f) := rfl

/-! ## Snapshots of machines -/

/-- The return addresses in the bytes below `sp`, the oldest first. -/
def framesIn (memory : List UInt8) (sp : Int) : List Int :=
  (List.range (sp.toNat / stackFrameSize)).map fun k =>
    256 * (memory.getD (stackFrameSize * k) 0).toNat +
      (memory.getD (stackFrameSize * k + 1) 0).toNat

/-- What the copy of a machine is like, whatever the machine did. -/
structure IsCapture (s : Snapshot) : Prop where
  registerCount : s.registers.length = registerCount
  memoryLength : s.memory.length = memorySize
  stack : s.stack = framesIn s.memory s.sp

/-- A snapshot of a machine is told by its fields, its memory and its display. -/
theorem IsCapture.ext {s t : Snapshot} (hs : s.IsCapture) (ht : t.IsCapture)
    (hfields : ∀ f, s.value f = t.value f) (hmemory : s.memory = t.memory)
    (hdisplay : s.display = t.display) : s = t := by
  have hregisters : s.registers = t.registers := by
    apply List.ext_getElem (hs.registerCount.trans ht.registerCount.symm)
    intro i hi hi'
    have hvalue : s.registers.getD i 0 = t.registers.getD i 0 :=
      hfields (.register ⟨i, Nat.lt_of_lt_of_eq hi hs.registerCount⟩)
    rwa [List.getD_eq_getElem?_getD, List.getD_eq_getElem?_getD, List.getElem?_eq_getElem hi,
      List.getElem?_eq_getElem hi'] at hvalue
  have hsp : s.sp = t.sp := hfields .sp
  have hstack : s.stack = t.stack := by rw [hs.stack, ht.stack, hmemory, hsp]
  have hindex : s.index = t.index := hfields .index
  have hdelay : s.delayTimer = t.delayTimer := hfields .delayTimer
  have hsound : s.soundTimer = t.soundTimer := hfields .soundTimer
  have hpc : s.pc = t.pc := hfields .pc
  have hcycle : s.cycle = t.cycle := hfields .cycle
  cases s
  cases t
  simp only at hregisters hsp hstack hindex hdelay hsound hpc hcycle hmemory hdisplay
  subst hregisters hsp hstack hindex hdelay hsound hpc hcycle hmemory hdisplay
  rfl

end Snapshot

/-- A word is made of its two bytes. -/
theorem Word.toNat_ofBytes (hi lo : UInt8) :
    (Word.ofBytes hi lo).toNat = 256 * hi.toNat + lo.toNat := by
  have hhi := hi.toNat_lt
  have hlo := lo.toNat_lt
  unfold Word.ofBytes
  rw [UInt16.toNat_ofNat']
  omega

/-- Memory holds the frames of the call stack. -/
theorem Memory.frames_eq_framesIn (m : Memory) :
    (m.frames.map fun w => (w.toNat : Int)) = Snapshot.framesIn m.bytes.toList m.sp := by
  have hbyte : ∀ a, m.bytes.toList.getD a 0 = m.byte a := by
    intro a
    rw [List.getD_eq_getElem?_getD, Vector.getElem?_toList]
    rfl
  have hcount : (m.sp : Int).toNat / stackFrameSize = m.depth.val := by
    simp only [sp, stackBase, stackFrameSize]
    omega
  unfold frames Snapshot.framesIn
  rw [List.map_map, hcount]
  apply List.map_congr_left
  intro k _
  show ((Word.ofBytes (m.byte (stackBase + stackFrameSize * k))
    (m.byte (stackBase + stackFrameSize * k + 1))).toNat : Int) = _
  rw [Word.toNat_ofBytes, hbyte, hbyte, Nat.zero_add]
  exact Int.natCast_add ..

theorem Machine.isCapture_snapshot (m : Machine) : m.snapshot.IsCapture where
  registerCount := by
    show (m.registers.toList.map fun v => (v.toNat : Int)).length = registerCount
    rw [List.length_map, Vector.length_toList]
  memoryLength := Vector.length_toList
  stack := m.memory.frames_eq_framesIn

end ChipEight
