import ChipEight.Proofs.Instruction.Coding
import ChipEight.Proofs.Machine.WellFormed

/-!
# The call stack along a step

The stack of a machine is the list of the addresses that its calls come from. A call appends
its own address, a return takes the newest address off and continues behind it, and no other
instruction changes the list, although the list is kept in memory that could be written.

## Main results

* `Machine.Executes.calls_of_call`, `Machine.Executes.calls_of_ret`,
  `Machine.Executes.calls_of_other` — the stack behind a step, by the word that was executed.
-/

namespace ChipEight

namespace Instruction

theorem ofWord?_of_family_call {w : Word} (h : w.family.val = 0x2) :
    ofWord? w = some (.call w.target) := by
  simp only [ofWord?, h]

end Instruction

namespace Machine

/-- The addresses on the stack, the oldest first. -/
def calls (m : Machine) : List Int := m.memory.frames.map fun w => (w.toNat : Int)

variable {limit divider : Int} {m : Machine} {keys : Keyboard} {s : Step} {i : Instruction}

theorem length_calls (m : Machine) : m.calls.length = m.memory.depth.val := by
  unfold calls
  rw [List.length_map, Memory.length_frames]

/-! ## Instructions -/

/-- A call appends its own address. -/
theorem calls_call (h : m.WellFormed lastWord) (t : Target)
    (hroom : m.memory.depth.val < stackDepth) :
    (m.effect keys (.call t)).machine.calls = m.calls ++ [m.pc] := by
  have hpc : m.pc % 65536 = m.pc := by
    obtain ⟨hlow, hhigh⟩ := h.pc
    have hsmall : lastWord < 65536 := by decide
    exact Int.emod_eq_of_lt (by omega) (by omega)
  have hnew := Memory.frame_pushed_self m.pc hroom
  rw [hpc] at hnew
  show (m.memory.pushed m.pc).frames.map (fun w => (w.toNat : Int)) = _
  rw [Memory.frames_pushed m.pc hroom, List.map_append, List.map_singleton, hnew]
  rfl

/-- A return takes the newest address off the stack and continues there. -/
theorem calls_ret (hdepth : m.memory.depth.val ≠ 0) :
    m.calls = (m.effect keys .ret).machine.calls ++ [(m.effect keys .ret).machine.pc] := by
  show m.memory.frames.map (fun w => (w.toNat : Int)) =
    m.memory.popped.frames.map (fun w => (w.toNat : Int)) ++ [(m.memory.top.toNat : Int)]
  rw [Memory.frames_eq_append_top hdepth, List.map_append, List.map_singleton]

theorem calls_congr {m' : Machine} (h : m'.memory = m.memory) : m'.calls = m.calls := by
  unfold calls
  rw [h]

/-- Memory that is the same below `stackLimit` holds the same stack. -/
theorem calls_of_bytes {m' : Machine} (hdepth : m'.memory.depth = m.memory.depth)
    (hbytes : ∀ a, a < stackLimit → m'.memory.byte a = m.memory.byte a) :
    m'.calls = m.calls := by
  unfold calls
  rw [Memory.frames_congr hdepth hbytes]

/-- Stores that were not refused leave the stack alone. -/
theorem calls_stored (vs : List UInt8) (hindex : programStart ≤ m.index) :
    (m.stored vs).calls = m.calls := by
  apply calls_of_bytes
  · exact Memory.depth_storeAll m.memory (some m.pc)
  · intro a ha
    have hlimit : stackLimit ≤ programStart := by decide
    apply Memory.byte_congr
    show (m.memory.storeAll m.index.toNat (some m.pc) vs).bytes[a]? = _
    rw [Memory.bytes_storeAll]
    exact Memory.setBytes_outside (.inl (by omega))

/-- A loaded program leaves the stack alone. -/
theorem calls_load {m' : Machine} {program : List UInt8} (hload : m.load program = .ok m') :
    m'.calls = m.calls := by
  obtain ⟨memory, hmemory, rfl⟩ := load_inv hload
  obtain ⟨-, hdepth, hbytes⟩ := Memory.load_inv hmemory
  have hlimit : stackLimit ≤ programStart := by decide
  exact calls_of_bytes hdepth fun a ha => hbytes a (by omega)

/-- The instructions that leave memory alone are all but calls, returns and stores. -/
theorem memory_effect (m : Machine) (keys : Keyboard) (hcall : ∀ t, i ≠ .call t)
    (hret : i ≠ .ret) (hdecimal : ∀ x, i ≠ .storeDecimal x) (hregs : ∀ x, i ≠ .storeRegs x) :
    (m.effect keys i).machine.memory = m.memory := by
  cases hlocal : i.isLocal with
  | true =>
      obtain ⟨registers, pc, h⟩ := m.effect_of_isLocal keys hlocal
      rw [h]
  | false =>
      cases i with
      | call t => exact absurd rfl (hcall t)
      | ret => exact absurd rfl hret
      | storeDecimal x => exact absurd rfl (hdecimal x)
      | storeRegs x => exact absurd rfl (hregs x)
      | loadRegs x => rw [effect]
      | clear | loadIndex | random | draw | setDelay | setSound | addIndex | loadGlyph => rfl
      | _ => cases hlocal

/-- No other instruction changes the stack. -/
theorem calls_effect_of_ne (hallowed : m.refusal? keys i = none) (hcall : ∀ t, i ≠ .call t)
    (hret : i ≠ .ret) : (m.effect keys i).machine.calls = m.calls := by
  by_cases hdecimal : ∃ x, i = .storeDecimal x
  · obtain ⟨x, rfl⟩ := hdecimal
    exact calls_stored _ (allowed_storeDecimal.mp hallowed).1
  · by_cases hregs : ∃ x, i = .storeRegs x
    · obtain ⟨x, rfl⟩ := hregs
      exact calls_stored _ (allowed_storeRegs.mp hallowed).1
    · apply calls_congr
      exact memory_effect m keys hcall hret (not_exists.mp hdecimal) (not_exists.mp hregs)

/-! ## Steps -/

theorem calls_finish (m : Machine) (setsPc : Bool) : (m.finish setsPc divider).calls = m.calls :=
  calls_congr (memory_finish m setsPc)

namespace Executes

/-- Behind a call, its own address is the newest. -/
theorem calls_of_call (hexec : Executes m divider keys s i) (h : m.WellFormed limit)
    (hword : s.word.family.val = 0x2) : s.next.calls = m.calls ++ [m.pc] := by
  have hdecode := hexec.decoded
  rw [Instruction.ofWord?_of_family_call hword] at hdecode
  cases hdecode
  obtain ⟨-, hroom⟩ := allowed_call.mp hexec.allowed
  rw [hexec.next, calls_finish]
  exact calls_call (h.fetched hexec.fetched) _ hroom

/-- A return goes on behind the newest call, which is no longer on the stack. -/
theorem calls_of_ret (hexec : Executes m divider keys s i) (hword : s.word = 0x00EE) :
    ∃ p, m.calls = s.next.calls ++ [p] ∧ s.next.pc = p + wordSize := by
  have hdecode := hexec.decoded
  rw [hword] at hdecode
  cases hdecode
  refine ⟨(m.effect keys .ret).machine.pc, ?_, ?_⟩
  · rw [hexec.next, calls_finish]
    exact calls_ret (allowed_ret.mp hexec.allowed)
  · rw [hexec.next, pc_finish]
    rfl

theorem ne_call (hexec : Executes m divider keys s i) (hword : s.word.family.val ≠ 0x2) :
    ∀ t, i ≠ .call t := by
  rintro t rfl
  apply hword
  rw [← Instruction.toWord_of_ofWord? hexec.decoded]
  exact (Word.fields_ofTarget t (by decide)).1

theorem ne_ret (hexec : Executes m divider keys s i) (hword : s.word ≠ 0x00EE) : i ≠ .ret := by
  rintro rfl
  exact hword (Instruction.toWord_of_ofWord? hexec.decoded).symm

/-- All other instructions keep the stack. -/
theorem calls_of_other (hexec : Executes m divider keys s i) (hcall : s.word.family.val ≠ 0x2)
    (hret : s.word ≠ 0x00EE) : s.next.calls = m.calls := by
  rw [hexec.next, calls_finish]
  exact calls_effect_of_ne hexec.allowed (hexec.ne_call hcall) (hexec.ne_ret hret)

end Executes

end Machine

end ChipEight
