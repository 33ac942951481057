import ChipEight.Proofs.Machine.Step
import ChipEight.Proofs.Memory.Reserved

/-!
# Well-formed machines

The machines that programs can bring about. Counters stay in the range of the hardware, and
the program counter stays in the program region or at most one skipped instruction behind
memory. The bound on the program counter is not kept by itself: a return continues at an
address from the stack, so it needs sound memory, and memory stays sound because stores
below the program region are refused.

The upper end of the program counter differs along a step. It is at most `lastWord` once a
word was fetched, one word more behind the instruction, and two more between two steps.

## Main results

* `Machine.wellFormed_effect` — one case per instruction.
* `Machine.WellFormed.step` — steps keep machines well formed.
-/

namespace ChipEight

namespace Machine

/-- The machine is well formed, with a program counter of at most `limit`. -/
structure WellFormed (limit : Int) (m : Machine) : Prop where
  memory : m.memory.Sound
  index : 0 ≤ m.index ∧ m.index ≤ indexMask
  delayTimer : 0 ≤ m.delayTimer ∧ m.delayTimer ≤ 255
  soundTimer : 0 ≤ m.soundTimer ∧ m.soundTimer ≤ 255
  pc : programStart ≤ m.pc ∧ m.pc ≤ limit

/-- The upper end of the program counter between two steps. -/
abbrev pcLimit : Int := lastWord + 2 * wordSize

variable {limit : Int} {m m' : Machine} {keys : Keyboard}

/-! ## Instructions -/

theorem toNat_le_255 (v : UInt8) : (0 : Int) ≤ v.toNat ∧ (v.toNat : Int) ≤ 255 := by
  have hlt := v.toNat_lt
  constructor
  · omega
  · omega

/-- A longer way to go for the program counter. -/
theorem WellFormed.mono (h : m.WellFormed limit) {limit' : Int} (hle : limit ≤ limit') :
    m.WellFormed limit' :=
  ⟨h.memory, h.index, h.delayTimer, h.soundTimer, h.pc.1, Int.le_trans h.pc.2 hle⟩

/-- Registers hold any bytes. -/
theorem WellFormed.setRegisters (h : m.WellFormed limit)
    (registers : Vector UInt8 registerCount) : WellFormed limit { m with registers } :=
  ⟨h.memory, h.index, h.delayTimer, h.soundTimer, h.pc⟩

theorem WellFormed.setReg (h : m.WellFormed limit) (r : Reg) (v : UInt8) :
    (m.setReg r v).WellFormed limit :=
  h.setRegisters _

/-- A jump into the program region. -/
theorem WellFormed.jump (h : m.WellFormed limit) {t : Target} (ht : programStart ≤ t.val) :
    WellFormed (lastWord + wordSize) { m with pc := t.val } := by
  have hlt := t.isLt
  refine ⟨h.memory, h.index, h.delayTimer, h.soundTimer, ?_, ?_⟩
  · show (programStart : Int) ≤ t.val
    omega
  · show (t.val : Int) ≤ lastWord + wordSize
    simp only [lastWord, wordSize, memorySize] at *
    omega

theorem WellFormed.skipped (h : m.WellFormed lastWord) (condition : Bool) :
    (m.skipped condition).machine.WellFormed (lastWord + wordSize) := by
  cases condition with
  | false => exact h.mono (by simp only [wordSize]; omega)
  | true =>
      refine ⟨h.memory, h.index, h.delayTimer, h.soundTimer, ?_, ?_⟩
      · exact Int.le_trans h.pc.1 (Int.le_add_of_nonneg_right (Int.natCast_nonneg wordSize))
      · exact Int.add_le_add_right h.pc.2 wordSize

theorem WellFormed.stored (h : m.WellFormed limit) (vs : List UInt8)
    (hindex : programStart ≤ m.index.toNat) : (m.stored vs).WellFormed limit :=
  ⟨h.memory.storeAll (some m.pc) vs hindex, h.index, h.delayTimer, h.soundTimer, h.pc⟩

/-- Moving the index behind a block in memory. -/
theorem WellFormed.advance (h : m.WellFormed limit) {length : Int} (hlength : 0 ≤ length)
    (hrange : Memory.InRange m.index length) :
    WellFormed limit { m with index := m.index + length } := by
  obtain ⟨hlow, hhigh⟩ := hrange
  refine ⟨h.memory, ⟨?_, ?_⟩, h.delayTimer, h.soundTimer, h.pc⟩
  · show 0 ≤ m.index + length
    omega
  · show m.index + length ≤ indexMask
    simp only [memorySize, indexMask] at *
    omega

/-- An instruction that is not refused keeps a machine well formed. -/
theorem wellFormed_effect (h : m.WellFormed lastWord) {i : Instruction}
    (hallowed : m.refusal? keys i = none) :
    (m.effect keys i).machine.WellFormed (lastWord + wordSize) := by
  have hnear : m.WellFormed (lastWord + wordSize) := h.mono (by simp only [wordSize]; omega)
  cases i with
  | clear => exact ⟨h.memory, h.index, h.delayTimer, h.soundTimer, hnear.pc⟩
  | ret =>
      obtain ⟨hlow, hhigh⟩ := h.memory.top (allowed_ret.mp hallowed)
      refine ⟨h.memory.popped, h.index, h.delayTimer, h.soundTimer, ?_, ?_⟩
      · show (programStart : Int) ≤ m.memory.top.toNat
        omega
      · show (m.memory.top.toNat : Int) ≤ lastWord + wordSize
        simp only [wordSize]
        omega
  | jump t => exact h.jump (allowed_jump.mp hallowed)
  | jumpAlt t => exact h.jump (allowed_jumpAlt.mp hallowed)
  | call t =>
      obtain ⟨ht, hroom⟩ := allowed_call.mp hallowed
      have hjump := h.jump ht
      exact ⟨h.memory.pushed hroom h.pc.1 h.pc.2, h.index, h.delayTimer, h.soundTimer, hjump.pc⟩
  | skipEqByte x b | skipNeByte x b | skipEqReg x y | skipNeReg x y | skipKey x | skipNoKey x =>
      exact h.skipped _
  | loadByte x b | addByte x b | getDelay x => exact hnear.setReg x _
  | arith op x y =>
      obtain ⟨registers, hcombined⟩ := m.combined_eq op x y
      show (m.combined op x y).WellFormed _
      rw [hcombined]
      exact hnear.setRegisters registers
  | loadIndex t =>
      have hlt := t.isLt
      refine ⟨h.memory, ⟨?_, ?_⟩, h.delayTimer, h.soundTimer, hnear.pc⟩
      · show (0 : Int) ≤ t.val
        omega
      · show (t.val : Int) ≤ indexMask
        simp only [memorySize, indexMask] at *
        omega
  | random x mask => exact ⟨h.memory, h.index, h.delayTimer, h.soundTimer, hnear.pc⟩
  | draw x y n => exact ⟨h.memory, h.index, h.delayTimer, h.soundTimer, hnear.pc⟩
  | waitKey x =>
      unfold effect
      cases keys.pressedKey with
      | none => exact hnear
      | some k => exact hnear.setReg x _
  | setDelay x =>
      exact ⟨h.memory, h.index, toNat_le_255 (m.reg x), h.soundTimer, hnear.pc⟩
  | setSound x =>
      exact ⟨h.memory, h.index, h.delayTimer, toNat_le_255 (m.reg x), hnear.pc⟩
  | addIndex x =>
      refine ⟨h.memory, ⟨?_, ?_⟩, h.delayTimer, h.soundTimer, hnear.pc⟩
      · show 0 ≤ (m.index + (m.reg x).toNat) % (indexMask + 1)
        simp only [indexMask]
        omega
      · show (m.index + (m.reg x).toNat) % (indexMask + 1) ≤ indexMask
        simp only [indexMask]
        omega
  | loadGlyph x =>
      obtain ⟨hlow, hhigh⟩ := toNat_le_255 (m.reg x)
      refine ⟨h.memory, ⟨?_, ?_⟩, h.delayTimer, h.soundTimer, hnear.pc⟩
      · show 0 ≤ glyphAddress (m.reg x).toNat
        simp only [glyphAddress, fontBase, glyphSize]
        omega
      · show glyphAddress (m.reg x).toNat ≤ indexMask
        simp only [glyphAddress, fontBase, glyphSize, indexMask]
        omega
  | storeDecimal x =>
      obtain ⟨hstart, -⟩ := allowed_storeDecimal.mp hallowed
      exact hnear.stored _ (by omega)
  | storeRegs x =>
      obtain ⟨hstart, hrange⟩ := allowed_storeRegs.mp hallowed
      exact (hnear.stored _ (by omega)).advance (by omega) hrange
  | loadRegs x =>
      have hmoved := hnear.advance (by omega) (allowed_loadRegs.mp hallowed)
      exact hmoved.setRegisters (m.loaded (x.val + 1))

/-! ## Steps -/

theorem lessOne_bounds {timer : Int} (h : 0 ≤ timer ∧ timer ≤ 255) :
    0 ≤ lessOne timer ∧ lessOne timer ≤ 255 := by
  unfold lessOne
  omega

theorem WellFormed.decay (h : m.WellFormed limit) (divider : Int) :
    (m.decay divider).WellFormed limit := by
  unfold Machine.decay
  split
  · exact ⟨h.memory, h.index, lessOne_bounds h.delayTimer, lessOne_bounds h.soundTimer, h.pc⟩
  · exact h

theorem WellFormed.finish (h : m.WellFormed limit) (setsPc : Bool) (divider : Int) :
    (m.finish setsPc divider).WellFormed (limit + wordSize) := by
  have hdecay := h.decay divider
  refine ⟨hdecay.memory, hdecay.index, hdecay.delayTimer, hdecay.soundTimer, ?_⟩
  obtain ⟨hlow, hhigh⟩ := h.pc
  rw [pc_finish]
  simp only [wordSize]
  split <;> omega

/-- A word that was fetched lies in memory. -/
theorem WellFormed.fetched (h : m.WellFormed limit) {w : Word} (hfetch : m.fetch = .ok w) :
    m.WellFormed lastWord := by
  refine ⟨h.memory, h.index, h.delayTimer, h.soundTimer, h.pc.1, ?_⟩
  obtain ⟨⟨-, hhigh⟩, -⟩ := fetch_eq_ok_iff.mp hfetch
  simp only [lastWord, memorySize, wordSize] at *
  omega

/-- A step that succeeds keeps a machine well formed. -/
theorem WellFormed.step (h : m.WellFormed limit) {divider : Int} {s : Step}
    (hstep : m.step divider keys = .ok s) : s.next.WellFormed pcLimit := by
  obtain ⟨i, hexec⟩ := step_eq_ok_iff.mp hstep
  have heffect := wellFormed_effect (h.fetched hexec.fetched) hexec.allowed
  rw [hexec.next]
  exact (heffect.finish _ divider).mono (by simp only [pcLimit, wordSize]; omega)

/-! ## Power-on and programs -/

theorem wellFormed_powerOn (random : Generator) : (powerOn random).WellFormed pcLimit := by
  refine ⟨Memory.sound_powerOn _, ?_, ?_, ?_, ?_⟩
  · show (0 : Int) ≤ 0 ∧ (0 : Int) ≤ indexMask
    decide
  · show (0 : Int) ≤ 0 ∧ (0 : Int) ≤ 255
    decide
  · show (0 : Int) ≤ 0 ∧ (0 : Int) ≤ 255
    decide
  · show (programStart : Int) ≤ programStart ∧ (programStart : Int) ≤ pcLimit
    decide

/-- Loading a program changes memory only. -/
theorem load_inv {program : List UInt8} (hload : m.load program = .ok m') :
    ∃ memory, m.memory.load program = .ok memory ∧ m' = { m with memory } := by
  unfold Machine.load at hload
  cases hmemory : m.memory.load program with
  | error cause =>
      rw [hmemory] at hload
      cases hload
  | ok memory =>
      rw [hmemory] at hload
      cases hload
      exact ⟨memory, rfl, rfl⟩

theorem WellFormed.load (h : m.WellFormed limit) {program : List UInt8}
    (hload : m.load program = .ok m') : m'.WellFormed limit := by
  obtain ⟨memory, hmemory, rfl⟩ := load_inv hload
  exact ⟨h.memory.load hmemory, h.index, h.delayTimer, h.soundTimer, h.pc⟩

end Machine

end ChipEight
