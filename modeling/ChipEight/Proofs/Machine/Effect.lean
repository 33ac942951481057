import ChipEight.Proofs.Machine.Block
import ChipEight.Proofs.Machine.Sprite

/-!
# Check, then change

An instruction is performed action by action. This module says what that amounts to:
`Machine.refusal?` is the one check of an instruction, and `Machine.effect` is all that
the instruction does to a machine that passes it. Both look at the machine as it was
before the instruction.

## Main results

* `Action.run_perform` — performing an instruction is checking it and then changing the
  machine at once. In particular an instruction that is refused has changed nothing, wherever
  among its actions the refusal stands.
-/

namespace ChipEight

/-! ## The stack -/

namespace Memory

/-- Memory with an address on the stack, if there is room for it. -/
def pushed (m : Memory) (address : Int) : Memory :=
  { m with
    bytes := setBytes m.bytes m.sp [UInt8.ofInt (address / 256), UInt8.ofInt address]
    depth := ⟨min (m.depth.val + 1) stackDepth, by omega⟩ }

/-- The newest return address. -/
def top (m : Memory) : Word := m.frame (m.depth.val - 1)

theorem depth_pred_lt (m : Memory) : m.depth.val - 1 < stackDepth + 1 :=
  Nat.lt_of_le_of_lt (Nat.sub_le _ 1) m.depth.isLt

/-- Memory without the newest return address. -/
def popped (m : Memory) : Memory := { m with depth := ⟨m.depth.val - 1, m.depth_pred_lt⟩ }

theorem push_of_lt {m : Memory} (address : Int) (h : m.depth.val < stackDepth) :
    m.push address = .ok (m.pushed address) := by
  have hmin : min (m.depth.val + 1) stackDepth = m.depth.val + 1 := Nat.min_eq_left h
  rw [push, dif_pos h]
  simp only [pushed, hmin]

theorem push_of_not_lt {m : Memory} (address : Int) (h : ¬m.depth.val < stackDepth) :
    m.push address = .error (.stackOverflow address) := dif_neg h

theorem pop_of_ne_zero {m : Memory} (h : m.depth.val ≠ 0) : m.pop = .ok (m.top, m.popped) :=
  if_neg h

theorem pop_of_eq_zero {m : Memory} (h : m.depth.val = 0) : m.pop = .error .stackUnderflow :=
  if_pos h

end Memory

namespace Machine

/-! ## Checks -/

/-- Why a checked access stops an instruction, if it does. -/
def denied : Except Fault.Cause Unit → Option Halt
  | .ok () => none
  | .error cause => some (.fault cause)

/-- Why an instruction is not executed, if it is not. -/
def refusal? (m : Machine) (keys : Keyboard) : Instruction → Option Halt
  | .ret => if m.memory.depth.val = 0 then some (.fault .stackUnderflow) else none
  | .jump t => if t.val < programStart then some (.fault (.reservedJump t.val)) else none
  | .jumpAlt t => if t.val < programStart then some (.fault (.reservedJump t.val)) else none
  | .call t =>
    if t.val < programStart then some (.fault (.reservedCall t.val))
    else if m.memory.depth.val < stackDepth then none
    else some (.fault (.stackOverflow m.pc))
  | .draw _ _ n => denied (Memory.checkRange m.index n.val)
  | .skipKey x | .skipNoKey x =>
    if (m.reg x).toNat < keyCount then none else some (.fault (.noSuchKey (m.reg x).toNat))
  | .getDelay _ => if 0 ≤ m.delayTimer ∧ m.delayTimer < 256 then none else some .notAByte
  | .waitKey _ =>
    match keys.pressedKey with
    | none => none
    | some k => if 0 ≤ k ∧ k < keyCount then none else some (.fault (.badKeyReport k))
  | .storeDecimal _ => denied (Memory.checkWritable m.index 3)
  | .storeRegs x => denied (Memory.checkWritable m.index (x.val + 1))
  | .loadRegs x => denied (Memory.checkRange m.index (x.val + 1))
  | _ => none

section Allowed

variable {m : Machine} {keys : Keyboard}

theorem denied_eq_none_iff {x : Except Fault.Cause Unit} : denied x = none ↔ x = .ok () := by
  cases x with
  | error cause => simp [denied]
  | ok _ => simp [denied]

theorem allowed_ret : m.refusal? keys .ret = none ↔ m.memory.depth.val ≠ 0 := by
  simp [refusal?]

theorem allowed_jump {t : Target} :
    m.refusal? keys (.jump t) = none ↔ programStart ≤ t.val := by
  simp [refusal?]

theorem allowed_jumpAlt {t : Target} :
    m.refusal? keys (.jumpAlt t) = none ↔ programStart ≤ t.val :=
  @allowed_jump m keys t

theorem allowed_call {t : Target} : m.refusal? keys (.call t) = none ↔
    programStart ≤ t.val ∧ m.memory.depth.val < stackDepth := by
  by_cases ht : t.val < programStart
  · simp [refusal?, ht, Nat.not_le.mpr ht]
  · simp [refusal?, ht, Nat.not_lt.mp ht]

theorem allowed_getDelay {x : Reg} :
    m.refusal? keys (.getDelay x) = none ↔ 0 ≤ m.delayTimer ∧ m.delayTimer < 256 := by
  simp [refusal?]

theorem allowed_storeDecimal {x : Reg} : m.refusal? keys (.storeDecimal x) = none ↔
    programStart ≤ m.index ∧ Memory.InRange m.index 3 :=
  denied_eq_none_iff.trans Memory.checkWritable_eq_ok_iff

theorem allowed_storeRegs {x : Reg} : m.refusal? keys (.storeRegs x) = none ↔
    programStart ≤ m.index ∧ Memory.InRange m.index (x.val + 1) :=
  denied_eq_none_iff.trans Memory.checkWritable_eq_ok_iff

theorem allowed_loadRegs {x : Reg} : m.refusal? keys (.loadRegs x) = none ↔
    Memory.InRange m.index (x.val + 1) :=
  denied_eq_none_iff.trans Memory.checkRange_eq_ok_iff

end Allowed

/-! ## Changes -/

/-- What an instruction did. -/
structure Effect where
  /-- The machine behind it. -/
  machine : Machine
  /-- Whether the program counter is already that of the next instruction. -/
  setsPc : Bool := false
  /-- What became of the picture, if the instruction drew. -/
  redraw : Option Redraw := none

/-- Passes over the next instruction if a condition holds. -/
def skipped (m : Machine) (condition : Bool) : Effect :=
  { machine := if condition then { m with pc := m.pc + wordSize } else m }

/-- The machine behind a two-register operation. -/
def combined (m : Machine) (op : Arith) (x y : Reg) : Machine :=
  match op.eval (m.reg x) (m.reg y) with
  | (v, some flag) => (m.setReg flagRegister flag).setReg x v
  | (v, none) => m.setReg x v

/-- Passing over an instruction changes nothing but the program counter. -/
theorem skipped_eq (m : Machine) (condition : Bool) :
    ∃ pc, m.skipped condition = { machine := { m with pc } } := by
  cases condition with
  | false => exact ⟨m.pc, rfl⟩
  | true => exact ⟨m.pc + wordSize, rfl⟩

/-- A two-register operation changes nothing but registers. -/
theorem combined_eq (m : Machine) (op : Arith) (x y : Reg) :
    ∃ registers, m.combined op x y = { m with registers } := by
  unfold combined
  rcases op.eval (m.reg x) (m.reg y) with ⟨v, _ | flag⟩
  · exact ⟨_, rfl⟩
  · exact ⟨_, rfl⟩

/-- The picture with the sprite of `n` rows at the index drawn, and whether a lit pixel
went out. -/
def stamped (m : Machine) (x y : Reg) (n : Fin 16) : Bitmap × Bool :=
  m.display.stamp (m.memory.bytesBetween m.index.toNat (Memory.blockEnd m.index n.val))
    (m.reg x).toNat (m.reg y).toNat

/-- Whether the key is held whose number a register holds. -/
def holds (m : Machine) (keys : Keyboard) (x : Reg) : Bool :=
  if h : (m.reg x).toNat < keyCount then keys.isPressed ⟨(m.reg x).toNat, h⟩ else false

/-- The machine with bytes stored from the index on. -/
def stored (m : Machine) (values : List UInt8) : Machine :=
  { m with memory := m.memory.storeAll m.index.toNat (some m.pc) values }

/-- What an instruction does that is not refused. -/
def effect (m : Machine) (keys : Keyboard) : Instruction → Effect
  | .clear => { machine := { m with display := Bitmap.blank }, redraw := some .cleared }
  | .ret => { machine := { m with memory := m.memory.popped, pc := m.memory.top.toNat } }
  | .jump t | .jumpAlt t => { machine := { m with pc := t.val }, setsPc := true }
  | .call t =>
    { machine := { m with memory := m.memory.pushed m.pc, pc := t.val }, setsPc := true }
  | .skipEqByte x b => m.skipped (m.reg x == b)
  | .skipNeByte x b => m.skipped (m.reg x != b)
  | .skipEqReg x y => m.skipped (m.reg x == m.reg y)
  | .skipNeReg x y => m.skipped (m.reg x != m.reg y)
  | .loadByte x b => { machine := m.setReg x b }
  | .addByte x b => { machine := m.setReg x (m.reg x + b) }
  | .arith op x y => { machine := m.combined op x y }
  | .loadIndex t => { machine := { m with index := t.val } }
  | .random x mask =>
    { machine := { m with random := m.random.next.2 }.setReg x (m.random.next.1 &&& mask) }
  | .draw x y n =>
    { machine := { m with display := (m.stamped x y n).1 }.setReg flagRegister
        (if (m.stamped x y n).2 then 1 else 0)
      redraw := some (.drawn (m.stamped x y n).2) }
  | .skipKey x => m.skipped (m.holds keys x)
  | .skipNoKey x => m.skipped (!m.holds keys x)
  | .getDelay x => { machine := m.setReg x (UInt8.ofInt m.delayTimer) }
  | .waitKey x =>
    match keys.pressedKey with
    | none => { machine := m, setsPc := true }
    | some k => { machine := m.setReg x (UInt8.ofInt k) }
  | .setDelay x => { machine := { m with delayTimer := (m.reg x).toNat } }
  | .setSound x => { machine := { m with soundTimer := (m.reg x).toNat } }
  | .addIndex x =>
    { machine := { m with index := (m.index + (m.reg x).toNat) % (indexMask + 1) } }
  | .loadGlyph x => { machine := { m with index := glyphAddress (m.reg x).toNat } }
  | .storeDecimal x => { machine := m.stored (decimalDigits (m.reg x)) }
  | .storeRegs x =>
    { machine := { m.stored ((Reg.upTo x).map m.reg) with index := m.index + (x.val + 1) } }
  | .loadRegs x =>
    { machine := { m with registers := m.loaded (x.val + 1), index := m.index + (x.val + 1) } }

end Machine

/-! ## Local instructions -/

/-- Whether an instruction changes registers and the program counter at most. -/
def Instruction.isLocal : Instruction → Bool
  | .jump _ | .jumpAlt _ | .skipEqByte _ _ | .skipNeByte _ _ | .skipEqReg _ _ | .skipNeReg _ _
  | .loadByte _ _ | .addByte _ _ | .arith _ _ _ | .skipKey _ | .skipNoKey _ | .getDelay _
  | .waitKey _ => true
  | _ => false

namespace Machine

theorem effect_of_isLocal (m : Machine) (keys : Keyboard) {i : Instruction}
    (hlocal : i.isLocal = true) :
    ∃ registers pc, (m.effect keys i).machine = { m with registers, pc } := by
  cases i with
  | jump t | jumpAlt t => exact ⟨m.registers, t.val, rfl⟩
  | skipEqByte | skipNeByte | skipEqReg | skipNeReg | skipKey | skipNoKey =>
      obtain ⟨pc, h⟩ := m.skipped_eq _
      refine ⟨m.registers, pc, ?_⟩
      show (m.skipped _).machine = _
      rw [h]
  | loadByte | addByte | getDelay => exact ⟨_, m.pc, rfl⟩
  | arith op x y =>
      obtain ⟨registers, h⟩ := m.combined_eq op x y
      exact ⟨registers, m.pc, h⟩
  | waitKey x =>
      unfold effect
      cases keys.pressedKey with
      | none => exact ⟨m.registers, m.pc, rfl⟩
      | some k => exact ⟨_, m.pc, rfl⟩
  | _ => cases hlocal

end Machine

namespace Action

open Memory

/-- What is left behind an effect. -/
def done (e : Machine.Effect) : Progress := { machine := e.machine, redraw := e.redraw }

/-- The actions `a` check the instruction `i` and then change the machine at once. -/
def CheckedRun (m : Machine) (keys : Keyboard) (a : Action Bool) (i : Instruction) : Prop :=
  a.run { machine := m } =
    match m.refusal? keys i with
    | some h => .error h { machine := m }
    | none => .ok (m.effect keys i).setsPc (done (m.effect keys i))

section Perform

variable {m : Machine} {keys : Keyboard} {a : Action Bool} {i : Instruction}

theorem CheckedRun.refused {h : Halt} (hcheck : m.refusal? keys i = some h)
    (hrun : a.run { machine := m } = .error h { machine := m }) : CheckedRun m keys a i := by
  unfold CheckedRun
  rw [hcheck, hrun]

theorem CheckedRun.performed (hcheck : m.refusal? keys i = none)
    (hrun : a.run { machine := m } = .ok (m.effect keys i).setsPc (done (m.effect keys i))) :
    CheckedRun m keys a i := by
  unfold CheckedRun
  rw [hcheck, hrun]

/-! ## Jumps, calls and returns -/

theorem run_jump (t : Target) : CheckedRun m keys (jump t) (.jump t) := by
  by_cases h : t.val < programStart
  · refine .refused (if_pos h) ?_
    simp only [jump, refuseReserved, if_pos h, run_bind, run_halt]
  · refine .performed (if_neg h) ?_
    simp only [jump, refuseReserved, if_neg h, run_bind, run_pure, run_change]
    rfl

theorem run_call (t : Target) : CheckedRun m keys (call t) (.call t) := by
  by_cases h : t.val < programStart
  · refine .refused (if_pos h) ?_
    simp only [call, refuseReserved, if_pos h, run_bind, run_halt]
  · by_cases hroom : m.memory.depth.val < stackDepth
    · refine .performed (by rw [Machine.refusal?, if_neg h, if_pos hroom]) ?_
      simp only [call, refuseReserved, if_neg h, push_of_lt _ hroom, run_bind, run_pure,
        run_machine, run_attempt_ok, run_change]
      rfl
    · refine .refused (by rw [Machine.refusal?, if_neg h, if_neg hroom]) ?_
      simp only [call, refuseReserved, if_neg h, push_of_not_lt _ hroom, run_bind, run_pure,
        run_machine, run_attempt_error]

theorem run_ret : CheckedRun m keys ret .ret := by
  by_cases h : m.memory.depth.val = 0
  · refine .refused (if_pos h) ?_
    simp only [ret, pop_of_eq_zero h, run_bind, run_machine, run_attempt_error]
  · refine .performed (if_neg h) ?_
    simp only [ret, pop_of_ne_zero h, run_bind, run_machine, run_attempt_ok, run_change, run_pure]
    rfl

/-! ## Registers and the picture -/

theorem run_combine (op : Arith) (x y : Reg) :
    CheckedRun m keys (combine op x y) (.arith op x y) := by
  refine .performed rfl ?_
  simp only [combine, Machine.effect, Machine.combined, run_bind, run_machine]
  rcases op.eval (m.reg x) (m.reg y) with ⟨v, _ | flag⟩
  · rfl
  · rfl

theorem run_clear : CheckedRun m keys clear .clear := by
  have hblank :
      (Vector.ofFn fun i =>
        if (List.finRange displayHeight).contains i then 0 else m.display.get i) =
          Bitmap.blank := by
    apply Vector.ext
    intro i hi
    simp [Bitmap.blank]
  refine .performed rfl ?_
  unfold clear
  rw [run_bind, run_forM_setRow, hblank]
  simp only [run_bind, run_present, run_pure]
  rfl

theorem run_draw (x y : Reg) (n : Fin 16) : CheckedRun m keys (draw x y n) (.draw x y n) := by
  by_cases h : InRange m.index n.val
  · have hcheck : checkRange m.index n.val = .ok () := checkRange_eq_ok_iff.mpr h
    have hread : m.memory.readBlock m.index n.val =
        .ok (m.memory.bytesBetween m.index.toNat (blockEnd m.index n.val)) := by
      rw [readBlock, hcheck]
      rfl
    refine .performed (by rw [Machine.refusal?, hcheck]; rfl) ?_
    simp only [draw, hread, run_bind, run_machine, run_attempt_ok, run_stampRows, Bool.false_or,
      run_change, run_present, run_pure]
    rfl
  · have hcheck : checkRange m.index n.val = .error (.outOfBounds n.val m.index) := if_neg h
    have hread : m.memory.readBlock m.index n.val = .error (.outOfBounds n.val m.index) := by
      rw [readBlock, hcheck]
      rfl
    refine .refused (by rw [Machine.refusal?, hcheck]; rfl) ?_
    simp only [draw, hread, run_bind, run_machine, run_attempt_error]

/-! ## Keys and timers -/

/-- The operand of a key instruction is refused, or it is the key that `holds` asks
for. -/
theorem run_keyOperand (x : Reg) (f : Bool → Bool) :
    (do skipIf (f (keys.isPressed (← keyOperand x))) : Action Bool).run { machine := m } =
      if (m.reg x).toNat < keyCount then
        (skipIf (f (m.holds keys x))).run { machine := m }
      else .error (.fault (.noSuchKey (m.reg x).toNat)) { machine := m } := by
  by_cases h : (m.reg x).toNat < keyCount
  · simp only [keyOperand, Machine.holds, dif_pos h, if_pos h, run_bind, run_machine, run_pure]
  · simp only [keyOperand, dif_neg h, if_neg h, run_bind, run_machine, run_halt]

theorem run_skipIf (condition : Bool) :
    (skipIf condition).run { machine := m } = .ok false (done (m.skipped condition)) := by
  cases condition <;> rfl

/-- An instruction that skips by what `f` makes of whether a key is held. -/
theorem run_skipHeld (x : Reg) (f : Bool → Bool)
    (hcheck : m.refusal? keys i = m.refusal? keys (.skipKey x))
    (heffect : m.effect keys i = m.skipped (f (m.holds keys x))) :
    CheckedRun m keys (do skipIf (f (keys.isPressed (← keyOperand x)))) i := by
  have hrun := @run_keyOperand m keys x f
  by_cases h : (m.reg x).toNat < keyCount
  · refine .performed (hcheck.trans (if_pos h)) ?_
    rw [if_pos h, run_skipIf, ← heffect] at hrun
    rw [hrun, heffect]
    rfl
  · refine .refused (hcheck.trans (if_neg h)) ?_
    rw [if_neg h] at hrun
    exact hrun

theorem run_getDelay (x : Reg) : CheckedRun m keys (getDelay x) (.getDelay x) := by
  by_cases h : 0 ≤ m.delayTimer ∧ m.delayTimer < 256
  · refine .performed (if_pos h) ?_
    simp only [getDelay, assign, if_pos h, run_bind, run_machine, run_change, run_pure]
    rfl
  · refine .refused (if_neg h) ?_
    simp only [getDelay, if_neg h, run_bind, run_machine, run_halt]

theorem run_waitKey (x : Reg) : CheckedRun m keys (waitKey keys x) (.waitKey x) := by
  cases hkey : keys.pressedKey with
  | none =>
      refine .performed (by rw [Machine.refusal?, hkey]) ?_
      simp only [waitKey, Machine.effect, hkey, run_pure]
      rfl
  | some k =>
      by_cases h : 0 ≤ k ∧ k < keyCount
      · refine .performed (by simp only [Machine.refusal?, hkey, if_pos h]) ?_
        simp only [waitKey, Machine.effect, hkey, if_pos h, assign, run_bind, run_change, run_pure]
        rfl
      · refine .refused (by simp only [Machine.refusal?, hkey, if_neg h]; rfl) ?_
        simp only [waitKey, hkey, if_neg h, run_halt]

/-! ## Blocks -/

theorem run_storeDecimal (x : Reg) : CheckedRun m keys (storeDecimal x) (.storeDecimal x) := by
  cases h : checkWritable m.index 3 with
  | error cause =>
      refine .refused (by rw [Machine.refusal?, h]; rfl) ?_
      simp only [storeDecimal, h, run_bind, run_machine, run_attempt_error]
  | ok _ =>
      have hrange : InRange m.index (decimalDigits (m.reg x)).length :=
        (checkWritable_eq_ok_iff.mp h).2
      refine .performed (by rw [Machine.refusal?, h]; rfl) ?_
      simp only [storeDecimal, h, run_bind, run_machine, run_attempt_ok,
        run_storeBytes _ _ _ _ hrange, run_pure]
      rfl

theorem length_upTo (x : Reg) : (Reg.upTo x).length = x.val + 1 := by
  have hlt := x.isLt
  rw [Reg.upTo, List.length_take, List.length_finRange]
  omega

theorem run_storeRegs (x : Reg) : CheckedRun m keys (storeRegs x) (.storeRegs x) := by
  cases h : checkWritable m.index (x.val + 1) with
  | error cause =>
      refine .refused (by rw [Machine.refusal?, h]; rfl) ?_
      simp only [storeRegs, h, run_bind, run_machine, run_attempt_error]
  | ok _ =>
      have hrange : InRange m.index (Reg.upTo x).length := by
        rw [length_upTo]
        exact (checkWritable_eq_ok_iff.mp h).2
      refine .performed (by rw [Machine.refusal?, h]; rfl) ?_
      simp only [storeRegs, h, run_bind, run_machine, run_attempt_ok,
        run_forM_storeReg _ _ _ hrange, length_upTo, run_pure]
      rfl

theorem run_loadRegs (x : Reg) : CheckedRun m keys (loadRegs x) (.loadRegs x) := by
  by_cases h : InRange m.index (x.val + 1 : Nat)
  · have hcheck : checkRange m.index (x.val + 1) = .ok () := checkRange_eq_ok_iff.mpr h
    refine .performed (by rw [Machine.refusal?, hcheck]; rfl) ?_
    simp only [loadRegs, Reg.upTo, hcheck, run_bind, run_machine, run_attempt_ok,
      run_forM_loadReg _ _ _ x.isLt h, run_pure]
    rfl
  · have hcheck : checkRange m.index (x.val + 1) = .error (.outOfBounds (x.val + 1) m.index) :=
      if_neg h
    refine .refused (by rw [Machine.refusal?, hcheck]; rfl) ?_
    simp only [loadRegs, hcheck, run_bind, run_machine, run_attempt_error]

/-! ## All instructions -/

/-- Performing an instruction is checking it and then changing the machine at once. -/
theorem run_perform (m : Machine) (keys : Keyboard) (i : Instruction) :
    CheckedRun m keys (perform keys i) i := by
  cases i with
  | clear => exact run_clear
  | ret => exact run_ret
  | jump t => exact run_jump t
  | call t => exact run_call t
  | jumpAlt t => exact @run_jump m keys t
  | arith op x y => exact run_combine op x y
  | draw x y n => exact run_draw x y n
  | skipKey x => exact run_skipHeld x id rfl rfl
  | skipNoKey x => exact run_skipHeld x not rfl rfl
  | getDelay x => exact run_getDelay x
  | waitKey x => exact run_waitKey x
  | storeDecimal x => exact run_storeDecimal x
  | storeRegs x => exact run_storeRegs x
  | loadRegs x => exact run_loadRegs x
  | skipEqByte x b | skipNeByte x b | skipEqReg x y | skipNeReg x y =>
      refine .performed rfl ?_
      simp only [perform, run_bind, run_machine, run_skipIf]
      rfl
  | loadByte x b | addByte x b | random x b =>
      refine .performed rfl ?_
      simp only [perform, random, assign, run_bind, run_machine, run_change, run_pure]
      rfl
  | loadIndex t =>
      refine .performed rfl ?_
      simp only [perform, run_bind, run_change, run_pure]
      rfl
  | setDelay x | setSound x | addIndex x | loadGlyph x =>
      refine .performed rfl ?_
      simp only [perform, run_bind, run_change, run_pure]
      rfl

end Perform

end Action

end ChipEight
