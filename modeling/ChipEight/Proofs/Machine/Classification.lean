import ChipEight.Proofs.Instruction.Coding
import ChipEight.Proofs.Machine.WellFormed

/-!
# Which fault, and when

The faults of a step as a list of rules. A rule names a condition on the machine, the keys
and the fields of the word at the program counter, and the kind and the address of the fault
that the condition leads to. The first rule whose condition holds decides; if none holds,
the step succeeds.

## Main results

* `Machine.decide_wordRules` — the rules decide as the check of an instruction does, one case
  per instruction.
* `Machine.decide_of_executes`, `Machine.decide_of_blocked` — the rules tell for every
  well-formed machine whether a step executes and, if not, which fault stops it.
-/

namespace ChipEight

/-- The kind and the address of a fault, or no fault. -/
abbrev Verdict := Option (FaultKind × Option Int)

/-- A condition with the kind and the address of the fault that it leads to. -/
structure FaultRule where
  condition : Prop
  kind : FaultKind
  address : Option Int

namespace FaultRule

/-- The first rule whose condition holds decides. -/
def Decide : List FaultRule → Verdict → Prop
  | [], v => v = none
  | r :: rs, v => r.condition ∧ v = some (r.kind, r.address) ∨ ¬r.condition ∧ Decide rs v

/-- A list of rules decides one way only. -/
theorem Decide.unique {rules : List FaultRule} {v v' : Verdict} (h : Decide rules v)
    (h' : Decide rules v') : v = v' := by
  induction rules with
  | nil => exact h.trans h'.symm
  | cons r rs ih =>
      rcases h with ⟨hr, hv⟩ | ⟨hr, hv⟩
      · rcases h' with ⟨-, hv'⟩ | ⟨hr', -⟩
        · rw [hv, hv']
        · exact absurd hr hr'
      · rcases h' with ⟨hr', -⟩ | ⟨-, hv'⟩
        · exact absurd hr' hr
        · exact ih hv hv'

/-- A fault is reported by a rule whose condition holds. -/
theorem Decide.exists_rule {rules : List FaultRule} {kind : FaultKind}
    {address : Option Int} (h : Decide rules (some (kind, address))) :
    ∃ r ∈ rules, r.condition ∧ r.kind = kind := by
  induction rules with
  | nil => cases h
  | cons r rs ih =>
      rcases h with ⟨hr, hv⟩ | ⟨-, hrest⟩
      · cases hv
        exact ⟨r, List.mem_cons_self, hr, rfl⟩
      · obtain ⟨r', hmem, hr'⟩ := ih hrest
        exact ⟨r', List.mem_cons_of_mem r hmem, hr'⟩

end FaultRule

/-- The keyboard reports a code that names no key. -/
def Keyboard.Misreports (keys : Keyboard) : Prop :=
  ∃ k, keys.pressedKey = some k ∧ ¬(0 ≤ k ∧ k ≤ 15)

namespace Instruction

theorem toWord_inj {i j : Instruction} : i.toWord = j.toWord ↔ i = j := by
  constructor
  · intro h
    have hread := ofWord?_toWord i
    rw [h, ofWord?_toWord] at hread
    cases hread
    rfl
  · rintro rfl
    rfl

theorem toWord_eq_ret {i : Instruction} : i.toWord = 0x00EE ↔ i = .ret :=
  @toWord_inj i .ret

end Instruction

namespace Machine

open FaultRule

/-! ## Rules -/

/-- The rules for an instruction with the word `w`. -/
def wordRules (m : Machine) (keys : Keyboard) (w : Word) : List FaultRule :=
  [ ⟨w = 0x00EE ∧ m.memory.sp = 0, .stackUnderflow, none⟩
  , ⟨(w.family.val = 0x1 ∨ w.family.val = 0x2 ∨ w.family.val = 0xB) ∧ w.target.val < 0x200,
      .reservedJump, some w.target.val⟩
  , ⟨w.family.val = 0x2 ∧ m.memory.sp = 32, .stackOverflow, some m.pc⟩
  , ⟨w.family.val = 0xD ∧ 0x1000 < m.index + w.n.val, .outOfBounds, some m.index⟩
  , ⟨w.family.val = 0xE ∧ (w.byte = 0x9E ∨ w.byte = 0xA1) ∧ 15 < (m.reg w.x).toNat,
      .invalidKey, none⟩
  , ⟨w.family.val = 0xF ∧ w.byte = 0x0A ∧ keys.Misreports, .invalidKey, none⟩
  , ⟨w.family.val = 0xF ∧ (w.byte = 0x33 ∨ w.byte = 0x55) ∧ m.index < 0x200,
      .reservedWrite, some m.index⟩
  , ⟨w.family.val = 0xF ∧ w.byte = 0x33 ∧ 0x1000 < m.index + 3, .outOfBounds, some m.index⟩
  , ⟨w.family.val = 0xF ∧ (w.byte = 0x55 ∨ w.byte = 0x65) ∧ 0x1000 < m.index + (w.x.val + 1),
      .outOfBounds, some m.index⟩ ]

/-- The rules for a step: the word has to lie in memory and to be one of the instructions. -/
def faultRules (m : Machine) (keys : Keyboard) : List FaultRule :=
  ⟨0xFFE < m.pc, .outOfBounds, some m.pc⟩ ::
    ⟨∀ i : Instruction, i.toWord ≠ m.memory.word m.pc.toNat, .unknownOpcode, none⟩ ::
      m.wordRules keys (m.memory.word m.pc.toNat)

/-! ## Checks, in numbers -/

/-- What is reported of a refusal. A value that does not fit a register is no fault. -/
def verdict : Option Halt → Verdict
  | some (.fault c) => some (c.kind, c.address)
  | _ => none

variable {limit divider : Int} {m : Machine} {keys : Keyboard}

theorem verdict_ret : verdict (m.refusal? keys .ret) =
    if m.memory.sp = 0 then some (FaultKind.stackUnderflow, none) else none := by
  have hsp : m.memory.sp = 0 ↔ m.memory.depth.val = 0 := by
    simp only [Memory.sp, stackBase, stackFrameSize]
    omega
  by_cases hdepth : m.memory.depth.val = 0
  · rw [refusal?, if_pos hdepth, if_pos (hsp.mpr hdepth)]
    rfl
  · rw [refusal?, if_neg hdepth, if_neg (fun h => hdepth (hsp.mp h))]
    rfl

theorem verdict_jump (t : Target) : verdict (m.refusal? keys (.jump t)) =
    if t.val < 0x200 then some (FaultKind.reservedJump, some (t.val : Int)) else none := by
  by_cases ht : t.val < 0x200
  · rw [refusal?, if_pos ht, if_pos ht]
    rfl
  · rw [refusal?, if_neg ht, if_neg ht]
    rfl

theorem verdict_call (t : Target) : verdict (m.refusal? keys (.call t)) =
    if t.val < 0x200 then some (FaultKind.reservedJump, some (t.val : Int))
    else if m.memory.sp = 32 then some (FaultKind.stackOverflow, some m.pc) else none := by
  have hsp : m.memory.sp = 32 ↔ ¬m.memory.depth.val < stackDepth := by
    have hmax := m.memory.depth.isLt
    simp only [Memory.sp, stackBase, stackFrameSize, stackDepth, stackLimit] at *
    omega
  by_cases ht : t.val < 0x200
  · rw [refusal?, if_pos ht, if_pos ht]
    rfl
  · by_cases hroom : m.memory.depth.val < stackDepth
    · rw [refusal?, if_neg ht, if_pos hroom, if_neg ht, if_neg (fun h => hsp.mp h hroom)]
      rfl
    · rw [refusal?, if_neg ht, if_neg hroom, if_neg ht, if_pos (hsp.mpr hroom)]
      rfl

theorem verdict_skipKey (x : Reg) : verdict (m.refusal? keys (.skipKey x)) =
    if 15 < (m.reg x).toNat then some (FaultKind.invalidKey, none) else none := by
  by_cases hkey : 15 < (m.reg x).toNat
  · have hnot : ¬(m.reg x).toNat < keyCount := by
      simp only [keyCount]
      omega
    rw [refusal?, if_neg hnot, if_pos hkey]
    rfl
  · have hlt : (m.reg x).toNat < keyCount := by
      simp only [keyCount]
      omega
    rw [refusal?, if_pos hlt, if_neg hkey]
    rfl

open Classical in
theorem verdict_waitKey (x : Reg) : verdict (m.refusal? keys (.waitKey x)) =
    if keys.Misreports then some (FaultKind.invalidKey, none) else none := by
  unfold Keyboard.Misreports
  cases hpressed : keys.pressedKey with
  | none =>
      rw [if_neg (by rintro ⟨k, hk, -⟩; cases hk), refusal?, hpressed]
      rfl
  | some k =>
      by_cases hk : 0 ≤ k ∧ k ≤ 15
      · have hlt : 0 ≤ k ∧ k < keyCount := ⟨hk.1, Int.lt_add_one_of_le hk.2⟩
        rw [if_neg (by rintro ⟨k', hk', hbad⟩; cases hk'; exact hbad hk), refusal?, hpressed]
        simp only [if_pos hlt]
        rfl
      · have hnot : ¬(0 ≤ k ∧ k < keyCount) := fun h => hk ⟨h.1, Int.le_of_lt_add_one h.2⟩
        rw [if_pos ⟨k, rfl, hk⟩, refusal?, hpressed]
        simp only [if_neg hnot]
        rfl

theorem verdict_checkRange {address length : Int} (h : 0 ≤ address) :
    verdict (denied (Memory.checkRange address length)) =
      if 0x1000 < address + length then some (FaultKind.outOfBounds, some address) else none := by
  by_cases hend : 0x1000 < address + length
  · rw [Memory.checkRange, if_neg (fun hin => Int.not_le.mpr hend hin.2), if_pos hend]
    rfl
  · rw [Memory.checkRange, if_pos ⟨h, Int.not_lt.mp hend⟩, if_neg hend]
    rfl

theorem verdict_checkWritable {address length : Int} (h : 0 ≤ address) :
    verdict (denied (Memory.checkWritable address length)) =
      if address < 0x200 then some (FaultKind.reservedWrite, some address)
      else if 0x1000 < address + length then some (FaultKind.outOfBounds, some address)
      else none := by
  unfold Memory.checkWritable
  by_cases hlow : address < 0x200
  · rw [if_pos hlow, if_pos (show address < programStart from hlow)]
    rfl
  · rw [if_neg hlow, if_neg (show ¬address < programStart from hlow)]
    exact verdict_checkRange h

/-! ## Instructions -/

open Instruction Word

/-- The rules for the word of an instruction decide as its check does. -/
theorem decide_wordRules (h : m.WellFormed limit) (i : Instruction) :
    Decide (m.wordRules keys i.toWord) (verdict (m.refusal? keys i)) := by
  obtain ⟨-, ⟨hindex, -⟩, hdelay, -, -⟩ := h
  simp only [wordRules, Decide, toWord_eq_ret]
  -- In every case the fields of the word leave at most two rules that can apply.
  cases i with
  | clear =>
      have hfamily : clear.toWord.family.val = 0 := rfl
      simp [hfamily, refusal?, verdict]
  | ret =>
      have hfamily : ret.toWord.family.val = 0 := rfl
      rw [verdict_ret]
      by_cases hsp : m.memory.sp = 0
      · simp [hsp]
      · simp [hfamily, hsp]
  | jump t =>
      rw [verdict_jump]
      by_cases ht : t.val < 0x200
      · simp [toWord, fields_ofTarget, ht]
      · simp [toWord, fields_ofTarget, ht]
  | jumpAlt t =>
      have hjump : m.refusal? keys (.jumpAlt t) = m.refusal? keys (.jump t) := rfl
      rw [hjump, verdict_jump]
      by_cases ht : t.val < 0x200
      · simp [toWord, fields_ofTarget, ht]
      · simp [toWord, fields_ofTarget, ht]
  | call t =>
      rw [verdict_call]
      by_cases ht : t.val < 0x200
      · simp [toWord, fields_ofTarget, ht]
      · by_cases hsp : m.memory.sp = 32
        · simp [toWord, fields_ofTarget, ht, hsp]
        · simp [toWord, fields_ofTarget, ht, hsp]
  | draw x y n =>
      rw [refusal?, verdict_checkRange hindex]
      by_cases hend : 0x1000 < m.index + n.val
      · simp [toWord, fields_ofRegs x y _ n.isLt, hend]
      · simp [toWord, fields_ofRegs x y _ n.isLt, hend]
  | skipKey x =>
      rw [verdict_skipKey]
      by_cases hkey : 15 < (m.reg x).toNat
      · simp [toWord, fields_ofRegByte, hkey]
      · simp [toWord, fields_ofRegByte, hkey]
  | skipNoKey x =>
      have hkeys : m.refusal? keys (.skipNoKey x) = m.refusal? keys (.skipKey x) := rfl
      rw [hkeys, verdict_skipKey]
      by_cases hkey : 15 < (m.reg x).toNat
      · simp [toWord, fields_ofRegByte, hkey]
      · simp [toWord, fields_ofRegByte, hkey]
  | getDelay x =>
      rw [refusal?, if_pos ⟨hdelay.1, Int.lt_add_one_of_le hdelay.2⟩]
      simp [toWord, fields_ofRegByte, verdict]
  | waitKey x =>
      rw [verdict_waitKey]
      by_cases hbad : keys.Misreports
      · rw [if_pos hbad]
        simp [toWord, fields_ofRegByte, hbad]
      · rw [if_neg hbad]
        simp [toWord, fields_ofRegByte, hbad]
  | storeDecimal x =>
      rw [refusal?, verdict_checkWritable hindex]
      by_cases hlow : m.index < 0x200
      · simp [toWord, fields_ofRegByte, hlow]
      · by_cases hend : 0x1000 < m.index + 3
        · simp [toWord, fields_ofRegByte, hlow, hend]
        · simp [toWord, fields_ofRegByte, hlow, hend]
  | storeRegs x =>
      rw [refusal?, verdict_checkWritable hindex]
      by_cases hlow : m.index < 0x200
      · simp [toWord, fields_ofRegByte, hlow]
      · by_cases hend : 0x1000 < m.index + (x.val + 1)
        · simp [toWord, fields_ofRegByte, hlow, hend]
        · simp [toWord, fields_ofRegByte, hlow, hend]
  | loadRegs x =>
      rw [refusal?, verdict_checkRange hindex]
      by_cases hend : 0x1000 < m.index + (x.val + 1)
      · simp [toWord, fields_ofRegByte, hend]
      · simp [toWord, fields_ofRegByte, hend]
  | skipEqByte x b | skipNeByte x b | loadByte x b | addByte x b | random x b =>
      simp [toWord, fields_ofRegByte, refusal?, verdict]
  | setDelay x | setSound x | addIndex x | loadGlyph x =>
      simp [toWord, fields_ofRegByte, refusal?, verdict]
  | loadIndex t => simp [toWord, fields_ofTarget, refusal?, verdict]
  | skipEqReg x y | skipNeReg x y => simp [toWord, fields_ofRegs, refusal?, verdict]
  | arith op x y => simp [toWord, fields_ofRegs x y _ (code_lt op), refusal?, verdict]

theorem denied_ne_notAByte (x : Except Fault.Cause Unit) : denied x ≠ some .notAByte := by
  cases x with
  | error cause => rintro ⟨⟩
  | ok _ => rintro ⟨⟩

/-- An instruction is refused for something else than a fault only if it reads a delay timer that
is no byte. -/
theorem delayTimer_of_refusal {i : Instruction} (hcheck : m.refusal? keys i = some .notAByte) :
    ¬(0 ≤ m.delayTimer ∧ m.delayTimer < 256) := by
  cases i with
  | getDelay x =>
      intro hbyte
      rw [refusal?, if_pos hbyte] at hcheck
      cases hcheck
  | draw | storeDecimal | storeRegs | loadRegs =>
      exact absurd hcheck (denied_ne_notAByte _)
  | ret | jump | jumpAlt | skipKey | skipNoKey =>
      rw [refusal?] at hcheck
      split at hcheck <;> cases hcheck
  | call =>
      rw [refusal?] at hcheck
      split at hcheck
      · cases hcheck
      · split at hcheck <;> cases hcheck
  | waitKey =>
      rw [refusal?] at hcheck
      split at hcheck
      · cases hcheck
      · split at hcheck <;> cases hcheck
  | _ => cases hcheck

/-- An instruction of a well-formed machine is refused for a fault and for nothing else. -/
theorem refusal_eq_fault (h : m.WellFormed limit) {i : Instruction} {e : Halt}
    (hcheck : m.refusal? keys i = some e) : ∃ c, e = .fault c := by
  cases e with
  | fault c => exact ⟨c, rfl⟩
  | notAByte =>
      have hbyte := h.delayTimer
      exact absurd ⟨hbyte.1, Int.lt_add_one_of_le hbyte.2⟩ (delayTimer_of_refusal hcheck)

/-! ## Steps -/

/-- Nothing but a fault stops a step of a well-formed machine. -/
theorem Blocked.eq_fault {word : Option Word} {halt : Halt} (hblocked : Blocked m keys word halt)
    (hwell : m.WellFormed limit) : ∃ cause, halt = .fault cause := by
  cases hblocked with
  | fetch => exact ⟨_, rfl⟩
  | decode => exact ⟨_, rfl⟩
  | check _ _ hcheck => exact refusal_eq_fault hwell hcheck

/-- A well-formed machine fetches unless the program counter is behind the last word. -/
theorem inRange_pc_iff (h : m.WellFormed limit) : Memory.InRange m.pc 2 ↔ ¬0xFFE < m.pc := by
  have hlow := h.pc.1
  simp only [Memory.InRange, memorySize]
  omega

/-- Behind the first two rules, the check of the instruction decides. -/
theorem decide_of_decoded (h : m.WellFormed limit) {w : Word} {i : Instruction}
    (hfetch : m.fetch = .ok w) (hdecode : ofWord? w = some i) :
    Decide (m.faultRules keys) (verdict (m.refusal? keys i)) := by
  obtain ⟨hpc, rfl⟩ := fetch_eq_ok_iff.mp hfetch
  have hword := toWord_of_ofWord? hdecode
  refine .inr ⟨(inRange_pc_iff h).mp hpc, .inr ⟨fun hnone => hnone i hword, ?_⟩⟩
  rw [← hword]
  exact decide_wordRules h i

/-- No rule applies to a step that executes an instruction. -/
theorem decide_of_executes (h : m.WellFormed limit) {s : Step} {i : Instruction}
    (hexec : Executes m divider keys s i) : Decide (m.faultRules keys) none := by
  have hdecide := @decide_of_decoded _ m keys h _ i hexec.fetched hexec.decoded
  rw [hexec.allowed] at hdecide
  exact hdecide

/-- A step that is blocked is stopped by the fault that the rules decide on. -/
theorem decide_of_blocked (h : m.WellFormed limit) {w : Option Word} {e : Halt}
    (hblocked : Blocked m keys w e) :
    ∃ c, e = .fault c ∧ Decide (m.faultRules keys) (some (c.kind, c.address)) := by
  cases hblocked with
  | fetch hfetch =>
      by_cases hpc : Memory.InRange m.pc 2
      · rw [fetch_of_inRange hpc] at hfetch
        cases hfetch
      · rw [fetch_of_not_inRange hpc] at hfetch
        cases hfetch
        rw [inRange_pc_iff h, Classical.not_not] at hpc
        exact ⟨_, rfl, .inl ⟨hpc, rfl⟩⟩
  | decode hfetch hdecode =>
      obtain ⟨hpc, rfl⟩ := fetch_eq_ok_iff.mp hfetch
      exact ⟨_, rfl, .inr ⟨(inRange_pc_iff h).mp hpc, .inl ⟨ofWord?_eq_none_iff.mp hdecode, rfl⟩⟩⟩
  | @check w i e hfetch hdecode hcheck =>
      obtain ⟨c, rfl⟩ := refusal_eq_fault h hcheck
      have hdecide := @decide_of_decoded _ m keys h w i hfetch hdecode
      rw [hcheck] at hdecide
      exact ⟨c, rfl, hdecide⟩

end Machine

end ChipEight
