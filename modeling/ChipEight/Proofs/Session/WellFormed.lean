import ChipEight.Proofs.Machine.WellFormed
import ChipEight.Proofs.Session.Invariant

/-!
# Reachable sessions are well formed

What can be observed of a machine is within its bounds at every moment of every session:
after loads of any bytes, steps, runs, drives, key presses and resets, in any order, and
after operations that failed. In particular no program changes the glyphs, and none is
executed from the reserved part of memory, not even one that rewrites itself.

## Main results

* `Session.reachable_snapshot_wellFormed` — the bounds, as a user sees them.
-/

namespace ChipEight

/-- The snapshot is one of a machine within its bounds. -/
structure Snapshot.WellFormed (s : Snapshot) : Prop where
  memoryLength : s.memory.length = 4096
  registerCount : s.registers.length = 16
  registers : ∀ v ∈ s.registers, 0 ≤ v ∧ v ≤ 255
  index : 0 ≤ s.index ∧ s.index ≤ 0xFFFF
  delayTimer : 0 ≤ s.delayTimer ∧ s.delayTimer ≤ 255
  soundTimer : 0 ≤ s.soundTimer ∧ s.soundTimer ≤ 255
  pc : 0x200 ≤ s.pc ∧ s.pc ≤ 0x1002
  sp : s.sp % 2 = 0 ∧ 0 ≤ s.sp ∧ s.sp ≤ 32
  rowCount : s.display.length = 32
  rows : ∀ r ∈ s.display, 0 ≤ r ∧ r ≤ rowMask
  /-- The glyphs, and zeros up to where programs start. -/
  reserved : (s.memory.drop 0x20).take 0x1E0 = font ++ List.replicate 400 0

namespace Memory

/-- What power-on puts behind the stack. -/
theorem byte_powerOn {k : Nat} (hk : k < 0x1E0) :
    (font ++ List.replicate 400 0)[k]? = some ((powerOn none).byte (stackLimit + k)) := by
  have hzero : (Vector.replicate memorySize (0 : UInt8))[stackLimit + k]? = some 0 := by
    rw [Vector.getElem?_replicate, if_pos (by simp only [stackLimit, memorySize]; omega)]
  have hbyte : (powerOn none).bytes[stackLimit + k]? =
      if k < font.length then font[k]? else some 0 := by
    show (setBytes (Vector.replicate memorySize 0) fontBase font)[stackLimit + k]? = _
    rw [getElem?_setBytes, hzero, Nat.add_sub_cancel_left]
    have hplace : fontBase ≤ stackLimit + k ∧ stackLimit + k < memorySize := by
      simp only [fontBase, stackLimit, memorySize]
      omega
    simp only [hplace.1, hplace.2, true_and]
  unfold byte
  rw [hbyte]
  by_cases hfont : k < font.length
  · rw [if_pos hfont, List.getElem?_append_left hfont, List.getElem?_eq_getElem hfont]
    rfl
  · rw [if_neg hfont, List.getElem?_append_right (Nat.le_of_not_lt hfont),
      List.getElem?_replicate, if_pos]
    · rfl
    · have hlength := length_font
      simp only [glyphSize] at hlength
      omega

theorem getElem?_toList_bytes (m : Memory) {a : Nat} (ha : a < memorySize) :
    m.bytes.toList[a]? = some (m.byte a) := by
  unfold byte
  rw [Vector.getElem?_toList, Vector.getElem?_eq_getElem ha]
  rfl

/-- The reserved part of sound memory, as a list. -/
theorem Sound.reserved_toList {m : Memory} (h : m.Sound) :
    (m.bytes.toList.drop 0x20).take 0x1E0 = font ++ List.replicate 400 0 := by
  apply List.ext_getElem?
  intro k
  by_cases hk : k < 0x1E0
  · have hlow : stackLimit ≤ stackLimit + k := Nat.le_add_right _ _
    have hhigh : stackLimit + k < programStart := by
      simp only [stackLimit, programStart]
      omega
    rw [List.getElem?_take_of_lt hk, List.getElem?_drop, byte_powerOn hk,
      ← h.reserved (stackLimit + k) hlow hhigh]
    apply getElem?_toList_bytes
    simp only [programStart, memorySize] at *
    omega
  · have hlength : (font ++ List.replicate 400 (0 : UInt8)).length = 0x1E0 := by
      rw [List.length_append, length_font, List.length_replicate]
      rfl
    rw [List.getElem?_eq_none, List.getElem?_eq_none]
    · rw [hlength]
      omega
    · rw [List.length_take]
      omega

end Memory

namespace Machine

theorem invariant_wellFormed : Invariant (WellFormed pcLimit) where
  powerOn := wellFormed_powerOn
  load := fun h hload => h.load hload
  step := fun h hstep => h.step hstep
  reseed := fun _ h => ⟨h.memory, h.index, h.delayTimer, h.soundTimer, h.pc⟩

/-- The bounds that the types of a machine do not carry are those of `WellFormed`. -/
theorem WellFormed.snapshot {m : Machine} (h : m.WellFormed pcLimit) : m.snapshot.WellFormed where
  memoryLength := Vector.length_toList
  registerCount := by
    show (m.registers.toList.map fun v => (v.toNat : Int)).length = 16
    rw [List.length_map, Vector.length_toList]
  registers := by
    intro v hv
    obtain ⟨b, -, rfl⟩ := List.mem_map.mp hv
    exact toNat_le_255 b
  index := h.index
  delayTimer := h.delayTimer
  soundTimer := h.soundTimer
  pc := h.pc
  sp := by
    have hdepth := m.memory.depth.isLt
    show ((stackBase + stackFrameSize * m.memory.depth.val : Nat) : Int) % 2 = 0 ∧
      0 ≤ ((stackBase + stackFrameSize * m.memory.depth.val : Nat) : Int) ∧
      ((stackBase + stackFrameSize * m.memory.depth.val : Nat) : Int) ≤ 32
    simp only [stackBase, stackFrameSize, stackDepth, stackLimit] at *
    omega
  rowCount := by
    show (m.display.toList.map fun r => (r.toNat : Int)).length = 32
    rw [List.length_map, Vector.length_toList]
  rows := by
    intro r hr
    obtain ⟨row, -, rfl⟩ := List.mem_map.mp hr
    constructor
    · exact Int.natCast_nonneg _
    · exact Int.ofNat_le.mpr (Nat.le_sub_one_of_lt row.isLt)
  reserved := h.memory.reserved_toList

end Machine

namespace Session

/-- Every reachable session has a machine within its bounds. -/
theorem reachable_snapshot_wellFormed {s : Session} (h : Reachable s) :
    s.console.machine.snapshot.WellFormed := by
  have hmachine := h.machine_of_invariant Machine.invariant_wellFormed
  exact hmachine.snapshot

/-- A program of one jump to itself, after a run of it and a power-on. -/
theorem fresh_snapshot_wellFormed :
    (((fresh.perform (.load [0x12, 0x00])).perform (.run 5)).perform
      .reset).console.machine.snapshot.WellFormed :=
  reachable_snapshot_wellFormed (((reachable_fresh.perform _).perform _).perform _)

end Session

end ChipEight
