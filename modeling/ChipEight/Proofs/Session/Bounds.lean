import ChipEight.Proofs.Console.CallStack
import ChipEight.Proofs.Machine.Bounds
import ChipEight.Proofs.Session.Classification

/-!
# Faults out of bounds

A step of a reachable session that has fetched its word ends in a fault out of bounds if the word
accesses a byte behind memory. There is one case more: `Dxy0` accesses no byte at all, and is
stopped by the same fault while the index is behind memory, where `Fx1E` can move it.

## Main results

* `Session.reachable_outOfBounds_iff` — when a step is out of bounds.
* `Session.distant_outOfBounds` — the case of a sprite without rows, in a run.
-/

namespace ChipEight

/-- A result ends in a fault out of bounds iff its verdict says so. -/
theorem HasVerdict.outOfBounds_iff {result : Except Failure StepReport} {v : Verdict}
    (h : HasVerdict result v) :
    (∃ f, result = .error (.fault f) ∧ f.kind = .outOfBounds) ↔
      ∃ a, v = some (.outOfBounds, a) := by
  cases h with
  | success r =>
      constructor
      · rintro ⟨f, hf, -⟩
        cases hf
      · rintro ⟨a, ha⟩
        cases ha
  | fault f =>
      constructor
      · rintro ⟨f', hf, hkind⟩
        cases hf
        exact ⟨f.address, by rw [hkind]⟩
      · rintro ⟨a, ha⟩
        exact ⟨f, rfl, congrArg Prod.fst (Option.some.inj ha)⟩

namespace Console

open FaultRule

/-- A step that has fetched its word is out of bounds iff the block of the word ends behind
memory. -/
theorem step_outOfBounds_iff {c : Console} (h : c.machine.WellFormed Machine.pcLimit)
    {keys : Keyboard} {w : Word} (hfetch : c.machine.fetch = .ok w) :
    (∃ f, (c.step keys).2 = .error (.fault f) ∧ f.kind = .outOfBounds) ↔
      (w.family.val = 0xD ∨ 0 < w.reach) ∧ 0x1000 < c.machine.index + w.reach := by
  obtain ⟨v, hresult, hdecide⟩ := step_decided h keys
  obtain ⟨hpc, hword⟩ := Machine.fetch_eq_ok_iff.mp hfetch
  rw [hresult.outOfBounds_iff]
  unfold Machine.faultRules at hdecide
  rw [hword] at hdecide
  rcases hdecide with ⟨hbehind, -⟩ | ⟨-, ⟨hunknown, hv⟩ | ⟨-, hrules⟩⟩
  · exact absurd hbehind ((Machine.inRange_pc_iff h).mp hpc)
  · constructor
    · rintro ⟨a, ha⟩
      rw [hv] at ha
      cases ha
    · rintro ⟨hform, -⟩
      obtain ⟨i, hi⟩ := Machine.exists_instruction_of_reach hform
      exact absurd hi (hunknown i)
  · exact Machine.outOfBounds_iff_of_decide hrules

end Console

namespace Session

/-- In a reachable session, a step that has fetched its word ends in a fault out of bounds iff the
word accesses a byte behind memory, or is `Dxy0` and the index is behind memory. -/
theorem reachable_outOfBounds_iff {s : Session} (h : Reachable s) {keys : Keyboard} {w : Word}
    (hfetch : s.console.machine.fetch = .ok w) :
    (∃ f, (s.console.step keys).2 = .error (.fault f) ∧ f.kind = .outOfBounds) ↔
      (∃ a ∈ s.console.machine.accessed w, 0xFFF < a) ∨
        w.family.val = 0xD ∧ w.n.val = 0 ∧ 0x1000 < s.console.machine.index := by
  have hwell : s.console.machine.WellFormed Machine.pcLimit :=
    h.machine_of_invariant Machine.invariant_wellFormed
  rw [Console.step_outOfBounds_iff hwell hfetch, Machine.exists_accessed_iff]
  constructor
  · rintro ⟨hform, hend⟩
    rcases Nat.eq_zero_or_pos w.reach with hnone | hsome
    · -- A block without bytes is that of a sprite without rows.
      have hdraw : w.family.val = 0xD := hform.resolve_right (by omega)
      rw [hnone] at hend
      rw [Machine.reach_of_draw hdraw] at hnone
      exact .inr ⟨hdraw, hnone, by omega⟩
    · exact .inl ⟨hsome, hend⟩
  · rintro (⟨hsome, hend⟩ | ⟨hdraw, hn, hbehind⟩)
    · exact ⟨.inr hsome, hend⟩
    · rw [Machine.reach_of_draw hdraw, hn]
      exact ⟨.inl hdraw, by omega⟩

/-- A program that draws three rows, of which the last lies behind memory. -/
def overrunning : Session :=
  (fresh.perform (.load [0xAF, 0xFE, 0xD0, 0x13])).perform (.run 1)

theorem overrunning_outOfBounds :
    ∃ f, (overrunning.console.step Console.noKeys).2 = .error (.fault f) ∧
      f.kind = .outOfBounds := by
  have hreach : Reachable overrunning := (reachable_fresh.perform _).perform _
  have hbegin : (Memory.InRange overrunning.console.machine.pc 2 ∧
      overrunning.console.machine.memory.word overrunning.console.machine.pc.toNat = 0xD013) ∧
      (0x1000 : Int) ∈ overrunning.console.machine.accessed 0xD013 := by
    decide +kernel
  obtain ⟨hword, hlast⟩ := hbegin
  have hfetch := Machine.fetch_eq_ok_iff.mpr hword
  exact (reachable_outOfBounds_iff hreach hfetch).mpr (.inl ⟨0x1000, hlast, by decide⟩)

/-- A program that moves the index behind memory and then draws a sprite without rows. -/
def distant : Session :=
  (fresh.perform (.load [0xAF, 0xFF, 0x60, 0x02, 0xF0, 0x1E, 0xD0, 0x10])).perform (.run 3)

/-- No byte is accessed, and the step is out of bounds all the same. -/
theorem distant_outOfBounds :
    Reachable distant ∧ distant.console.machine.fetch = .ok 0xD010 ∧
      distant.console.machine.accessed 0xD010 = [] ∧
      ∃ f, (distant.console.step Console.noKeys).2 = .error (.fault f) ∧
        f.kind = .outOfBounds := by
  have hreach : Reachable distant := (reachable_fresh.perform _).perform _
  have hbegin : (Memory.InRange distant.console.machine.pc 2 ∧
      distant.console.machine.memory.word distant.console.machine.pc.toNat = 0xD010) ∧
      distant.console.machine.index = 0x1001 := by
    decide +kernel
  obtain ⟨hword, hindex⟩ := hbegin
  have hfetch := Machine.fetch_eq_ok_iff.mpr hword
  have hwell := hreach.machine_of_invariant Machine.invariant_wellFormed
  refine ⟨hreach, hfetch, rfl, (Console.step_outOfBounds_iff hwell hfetch).mpr ⟨.inl rfl, ?_⟩⟩
  rw [hindex]
  decide

end Session

end ChipEight
