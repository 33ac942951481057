import ChipEight.Proofs.Machine.Classification
import ChipEight.Proofs.Session.WellFormed

/-!
# The faults of reachable sessions

In a reachable session a step succeeds or ends in a fault, never in anything else, and the
rules of `Machine.faultRules` say which: a step succeeds if no rule applies, and otherwise
ends in a fault of the kind and with the address of the first rule that applies.

## Main results

* `Session.reachable_step_decided` — the outcome of a step is what the rules decide.
-/

namespace ChipEight

/-- The result of a step has a verdict if it is a success or a fault; there is none for a
failure of another kind. -/
inductive HasVerdict : Except Failure StepReport → Verdict → Prop
  | success (r : StepReport) : HasVerdict (.ok r) none
  | fault (f : Fault) : HasVerdict (.error (.fault f)) (some (f.kind, f.address))

namespace Console

open FaultRule

/-- The rules decide on every step of a console with a well-formed machine. -/
theorem step_decided {c : Console} (h : c.machine.WellFormed Machine.pcLimit)
    (keys : Keyboard) :
    ∃ v, HasVerdict (c.step keys).2 v ∧ Decide (c.machine.faultRules keys) v := by
  rcases hstep : c.step keys with ⟨c', e | r⟩
  · obtain ⟨w, e, hblocked, rfl, -⟩ := step_error_inv hstep
    obtain ⟨cause, rfl, hdecide⟩ := Machine.decide_of_blocked h hblocked
    exact ⟨some (cause.kind, cause.address), .fault _, hdecide⟩
  · obtain ⟨s, i, hexec, -⟩ := step_ok_inv hstep
    exact ⟨none, .success r, Machine.decide_of_executes h hexec⟩

end Console

/-- The keypad reports no code but those of keys. -/
theorem Keypad.not_misreports (p : Keypad) : ¬p.keyboard.Misreports := by
  rintro ⟨k, hk, hbad⟩
  obtain ⟨key, -, rfl⟩ := Option.map_eq_some_iff.mp hk
  have hlt := key.isLt
  apply hbad
  simp only [keyCount] at hlt
  omega

namespace Session

/-- In every reachable session and with any keyboard, a step either succeeds or ends in a
fault, and it is the rules that decide which, one way only. The rule on keys that a keyboard
reports never applies to a keypad. -/
theorem reachable_step_decided {s : Session} (h : Reachable s) :
    (∀ keys, ∃ v, HasVerdict (s.console.step keys).2 v ∧
      ∀ v', FaultRule.Decide (s.console.machine.faultRules keys) v' ↔ v' = v) ∧
    ¬s.keypad.keyboard.Misreports := by
  have hmachine := h.machine_of_invariant Machine.invariant_wellFormed
  refine ⟨?_, s.keypad.not_misreports⟩
  intro keys
  obtain ⟨v, hresult, hdecide⟩ := Console.step_decided hmachine keys
  refine ⟨v, hresult, fun v' => ⟨fun h' => h'.unique hdecide, ?_⟩⟩
  rintro rfl
  exact hdecide

/-- There is no program in a session that has just begun, and zeros are no instruction. -/
theorem fresh_step_decided :
    HasVerdict (fresh.console.step fresh.keyboard).2 (some (.unknownOpcode, none)) := by
  have hzeros : fresh.console.machine.memory.word fresh.console.machine.pc.toNat = 0x0000 := by
    show Word.ofBytes (Memory.byte (.powerOn _) programStart)
      (Memory.byte (.powerOn _) (programStart + 1)) = 0x0000
    rw [Memory.byte_powerOn_of_le (by decide), Memory.byte_powerOn_of_le (by decide)]
    rfl
  have hnone : ∀ i : Instruction,
      i.toWord ≠ fresh.console.machine.memory.word fresh.console.machine.pc.toNat := by
    intro i
    exact hzeros ▸ Instruction.ofWord?_eq_none_iff.mp rfl i
  have hpc : ¬0xFFE < fresh.console.machine.pc := by
    have hstart : fresh.console.machine.pc = programStart := rfl
    have hmemory : (programStart : Int) ≤ 0xFFE := by decide
    omega
  obtain ⟨v, hresult, hdecide⟩ := (reachable_step_decided reachable_fresh).1 fresh.keyboard
  have hv := (hdecide (some (.unknownOpcode, none))).mp (.inr ⟨hpc, .inl ⟨hnone, rfl⟩⟩)
  rw [hv]
  exact hresult

end Session

end ChipEight
