import ChipEight.Proofs.Machine.Classification
import ChipEight.Proofs.Machine.Frame

/-!
# Accesses at the index

Four instructions access memory at the index: `Dxyn` reads the rows of a sprite, `Fx33` stores
three digits, and `Fx55` and `Fx65` store and load registers. The whole block is checked first, by
its two ends alone. So an instruction is refused as out of bounds iff the end of its block is
behind memory; a block of no bytes has an end as well, and `Dxy0` with an index behind memory is
refused although it reads nothing.

## Main results

* `Machine.exists_accessed_iff` — when a byte that is accessed lies behind memory.
* `Machine.outOfBounds_iff_of_decide` — when the rules decide on a fault out of bounds.
-/

namespace ChipEight

/-- How many bytes a word accesses at the index. -/
def Word.reach (w : Word) : Nat :=
  match w.family.val with
  | 0xD => w.n.val
  | 0xF =>
    if w.byte = 0x33 then 3
    else if w.byte = 0x55 ∨ w.byte = 0x65 then w.x.val + 1
    else 0
  | _ => 0

theorem Word.reach_le (w : Word) : w.reach ≤ 16 := by
  have hx := w.x.isLt
  have hn := w.n.isLt
  simp only [registerCount] at hx
  unfold reach
  split
  · omega
  · split
    · decide
    · split
      · exact hx
      · decide
  · decide

namespace Machine

open FaultRule

/-- The addresses that a word accesses at the index. -/
def accessed (m : Machine) (w : Word) : List Int :=
  (List.range w.reach).map fun k : Nat => m.index + k

variable {m : Machine} {keys : Keyboard} {w : Word}

/-- The last byte is the one that matters. -/
theorem exists_accessed_iff :
    (∃ a ∈ m.accessed w, 0xFFF < a) ↔ 0 < w.reach ∧ 0x1000 < m.index + w.reach := by
  unfold accessed
  constructor
  · rintro ⟨a, ha, hbehind⟩
    obtain ⟨k, hk, rfl⟩ := List.mem_map.mp ha
    have hlt := List.mem_range.mp hk
    omega
  · rintro ⟨hsome, hend⟩
    refine ⟨m.index + (w.reach - 1 : Nat), List.mem_map.mpr ⟨_, ?_, rfl⟩, by omega⟩
    exact List.mem_range.mpr (by omega)

/-! ## Words -/

theorem reach_of_draw (h : w.family.val = 0xD) : w.reach = w.n.val := by
  simp only [Word.reach, h]

theorem reach_of_misc (h : w.family.val = 0xF) :
    w.reach = if w.byte = 0x33 then 3
      else if w.byte = 0x55 ∨ w.byte = 0x65 then w.x.val + 1 else 0 := by
  simp only [Word.reach, h]

/-- Only `Dxyn`, `Fx33`, `Fx55` and `Fx65` access anything. -/
theorem reach_pos_inv (h : 0 < w.reach) :
    w.family.val = 0xD ∨
      w.family.val = 0xF ∧ (w.byte = 0x33 ∨ w.byte = 0x55 ∨ w.byte = 0x65) := by
  unfold Word.reach at h
  split at h
  next hfamily => exact .inl hfamily
  next hfamily =>
    refine .inr ⟨hfamily, ?_⟩
    split at h
    next hbyte => exact .inl hbyte
    · split at h
      next hbyte => exact .inr hbyte
      · exact absurd h (Nat.lt_irrefl 0)
  · exact absurd h (Nat.lt_irrefl 0)

/-- A word that accesses memory is one of the instructions. -/
theorem exists_instruction_of_reach (h : w.family.val = 0xD ∨ 0 < w.reach) :
    ∃ i : Instruction, i.toWord = w := by
  have hform : w.family.val = 0xD ∨
      w.family.val = 0xF ∧ (w.byte = 0x33 ∨ w.byte = 0x55 ∨ w.byte = 0x65) :=
    h.elim .inl reach_pos_inv
  rcases hform with hdraw | ⟨hmisc, hbyte⟩
  · exact ⟨_, Instruction.toWord_of_ofWord? (Instruction.ofWord?_of_family_draw hdraw)⟩
  · have hdecode := Instruction.ofWord?_of_family_misc hmisc
    rcases hbyte with hbyte | hbyte | hbyte
    all_goals
      rw [hbyte] at hdecode
      exact ⟨_, Instruction.toWord_of_ofWord? hdecode⟩

/-! ## Rules -/

/-- A rule about bounds looks at the end of the block. -/
theorem end_of_outOfBounds {r : FaultRule} (hr : r ∈ m.wordRules keys w) (hcondition : r.condition)
    (hkind : r.kind = .outOfBounds) :
    (w.family.val = 0xD ∨ 0 < w.reach) ∧ 0x1000 < m.index + w.reach := by
  simp only [wordRules, List.mem_cons, List.not_mem_nil, or_false] at hr
  rcases hr with rfl | rfl | rfl | hdraw | rfl | rfl | rfl | hdecimal | hregs
  case inr.inr.inr.inl =>
    subst hdraw
    obtain ⟨hfamily, hend⟩ := hcondition
    rw [reach_of_draw hfamily]
    exact ⟨.inl hfamily, hend⟩
  case inr.inr.inr.inr.inr.inr.inr.inl =>
    subst hdecimal
    obtain ⟨hfamily, hbyte, hend⟩ := hcondition
    rw [reach_of_misc hfamily, if_pos hbyte]
    exact ⟨.inr (by decide), hend⟩
  case inr.inr.inr.inr.inr.inr.inr.inr =>
    subst hregs
    obtain ⟨hfamily, hbyte, hend⟩ := hcondition
    have hother : w.byte ≠ 0x33 := by
      intro h
      rw [h] at hbyte
      exact absurd hbyte (by decide)
    rw [reach_of_misc hfamily, if_neg hother, if_pos hbyte]
    exact ⟨.inr (Nat.succ_pos _), hend⟩
  all_goals cases hkind

/-- A block with its end behind memory is refused, for nothing else is wrong with it: its start is
above the reserved region. -/
theorem outOfBounds_of_end {v : Verdict} (hdecide : Decide (m.wordRules keys w) v)
    (hform : w.family.val = 0xD ∨ 0 < w.reach) (hend : 0x1000 < m.index + w.reach) :
    v = some (.outOfBounds, some m.index) := by
  have hlow : ¬m.index < 0x200 := by
    have hreach := w.reach_le
    omega
  have hret : w ≠ 0x00EE := by
    rintro rfl
    exact absurd hform (by decide)
  rcases hform.elim Or.inl reach_pos_inv with hfamily | ⟨hfamily, hbyte⟩
  · rw [reach_of_draw hfamily] at hend
    simpa [wordRules, Decide, hfamily, hret, hend] using hdecide
  · rw [reach_of_misc hfamily] at hend
    rcases hbyte with hbyte | hbyte | hbyte
    · rw [hbyte, if_pos rfl] at hend
      have hend3 : 0x1000 < m.index + 3 := hend
      simpa [wordRules, Decide, hfamily, hbyte, hret, hlow, hend3] using hdecide
    · rw [hbyte, if_neg (by decide), if_pos (.inl rfl)] at hend
      have hendx : 0x1000 < m.index + (w.x.val + 1) := hend
      simpa [wordRules, Decide, hfamily, hbyte, hret, hlow, hendx] using hdecide
    · rw [hbyte, if_neg (by decide), if_pos (.inr rfl)] at hend
      have hendx : 0x1000 < m.index + (w.x.val + 1) := hend
      simpa [wordRules, Decide, hfamily, hbyte, hret, hlow, hendx] using hdecide

/-- The rules decide on a fault out of bounds iff the end of the block is behind memory. -/
theorem outOfBounds_iff_of_decide {v : Verdict} (hdecide : Decide (m.wordRules keys w) v) :
    (∃ a, v = some (.outOfBounds, a)) ↔
      (w.family.val = 0xD ∨ 0 < w.reach) ∧ 0x1000 < m.index + w.reach := by
  constructor
  · rintro ⟨a, rfl⟩
    obtain ⟨r, hr, hcondition, hkind⟩ := hdecide.exists_rule
    exact end_of_outOfBounds hr hcondition hkind
  · rintro ⟨hform, hend⟩
    exact ⟨some m.index, outOfBounds_of_end hdecide hform hend⟩

end Machine

end ChipEight
