import ChipEight.Proofs.Memory.Bytes

/-!
# The reserved part of memory

Below `programStart` lie the call stack and, behind it, the glyphs and unused zeros. Programs
cannot write there: a store is refused below `programStart`, a loaded program starts at it,
and a push writes below `stackLimit`. Memory is `Sound` while the glyphs and the zeros are as
at power-on and every return address on the stack is that of an instruction in the program
region.

## Main results

* `Memory.sound_powerOn`, `Memory.Sound.load`, `Memory.Sound.storeAll`,
  `Memory.Sound.pushed`, `Memory.Sound.popped` — every operation keeps memory sound.
-/

namespace ChipEight

/-- The last address of a word in memory. -/
abbrev lastWord : Nat := memorySize - wordSize

namespace Memory

/-- Memory whose reserved part is as it should be. -/
structure Sound (m : Memory) : Prop where
  /-- Calls come from the program region. -/
  returns : ∀ slot, slot < m.depth.val →
    programStart ≤ (m.frame slot).toNat ∧ (m.frame slot).toNat ≤ lastWord
  /-- The glyphs and the zeros behind them are as at power-on. -/
  reserved : ∀ a, stackLimit ≤ a → a < programStart → m.byte a = (powerOn none).byte a

variable {m m' : Memory}

theorem sound_powerOn (logLimit : Option Nat) : (powerOn logLimit).Sound := by
  constructor
  · intro slot hslot
    exact absurd hslot (Nat.not_lt_zero slot)
  · intro a _ _
    rfl

/-- Soundness is a matter of the reserved part only. -/
theorem Sound.of_reserved_eq (h : m.Sound) (hdepth : m'.depth = m.depth)
    (hbytes : ∀ a, a < programStart → m'.byte a = m.byte a) : m'.Sound := by
  constructor
  · intro slot hslot
    rw [hdepth] at hslot
    have hroom := m.depth.isLt
    have hlimit : stackLimit ≤ programStart := by decide
    rw [frame_congr (by omega) fun a ha => hbytes a (by omega)]
    exact h.returns slot hslot
  · intro a hlow hhigh
    rw [hbytes a hhigh]
    exact h.reserved a hlow hhigh

theorem Sound.load (h : m.Sound) {program : List UInt8} (hload : m.load program = .ok m') :
    m'.Sound := by
  obtain ⟨-, hdepth, hbytes⟩ := load_inv hload
  exact h.of_reserved_eq hdepth hbytes

theorem Sound.storeAll (h : m.Sound) {a : Nat} (pc : Option Int) (vs : List UInt8)
    (ha : programStart ≤ a) : (m.storeAll a pc vs).Sound := by
  apply h.of_reserved_eq (depth_storeAll m pc)
  intro i hi
  apply byte_congr
  rw [bytes_storeAll]
  exact setBytes_outside (.inl (by omega))

theorem Sound.pushed (h : m.Sound) {address : Int} (hroom : m.depth.val < stackDepth)
    (hlow : programStart ≤ address) (hhigh : address ≤ lastWord) : (m.pushed address).Sound := by
  have hdepth : (m.pushed address).depth.val = m.depth.val + 1 := Nat.min_eq_left hroom
  constructor
  · intro slot hslot
    rw [hdepth] at hslot
    rcases Nat.lt_succ_iff_lt_or_eq.mp hslot with hold | hnew
    · rw [frame_pushed_of_lt address hold]
      exact h.returns slot hold
    · have hself := frame_pushed_self address hroom
      have hsmall : lastWord < 65536 := by decide
      have hmod : address % 65536 = address := Int.emod_eq_of_lt (by omega) (by omega)
      rw [hmod] at hself
      rw [hnew]
      constructor
      · omega
      · omega
  · intro a ha hprogram
    rw [← h.reserved a ha hprogram]
    apply byte_congr
    apply setBytes_outside
    right
    simp only [sp, stackBase, stackFrameSize, stackDepth, stackLimit, List.length_cons,
      List.length_nil] at *
    omega

theorem Sound.popped (h : m.Sound) : m.popped.Sound := by
  constructor
  · intro slot hslot
    have hless : m.popped.depth.val ≤ m.depth.val := Nat.sub_le _ 1
    exact h.returns slot (Nat.lt_of_lt_of_le hslot hless)
  · exact h.reserved

/-- The newest return address of a stack that is not empty. -/
theorem Sound.top (h : m.Sound) (hdepth : m.depth.val ≠ 0) :
    programStart ≤ m.top.toNat ∧ m.top.toNat ≤ lastWord :=
  h.returns (m.depth.val - 1) (by omega)

end Memory

end ChipEight
