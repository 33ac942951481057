import ChipEight.Proofs.Machine.CallStack
import ChipEight.Proofs.Machine.Timers

/-!
# Where a program goes

After an instruction a program goes one of six ways, which the word, the registers and the keys
decide. The way says how the program counter moves on, and what becomes of the calls that are
open. So the addresses that a program visits follow from its ways alone: that is `Way.route`,
which needs to know nothing of the machine but where it begins.

## Main results

* `Machine.Executes.pc_next`, `Machine.Executes.calls_next` — a step goes the way of its word.
-/

namespace ChipEight

/-- How a program goes on after an instruction. -/
inductive Way
  /-- Elsewhere. -/
  | jump (target : Int)
  /-- Elsewhere, to come back later. -/
  | call (target : Int)
  /-- Behind the newest call. -/
  | back
  /-- Past the next instruction. -/
  | over
  /-- To the same instruction. -/
  | stay
  /-- To the next instruction. -/
  | on
  deriving DecidableEq, Repr

namespace Way

/-- Where a way leads from `pc`, with the open calls made from the addresses `calls`, the
newest last. -/
def next (pc : Int) (calls : List Int) : Way → Int
  | .jump target | .call target => target
  | .back => calls.getLastD pc + 2
  | .over => pc + 4
  | .stay => pc
  | .on => pc + 2

/-- The calls that are open then. -/
def callsBehind (pc : Int) (calls : List Int) : Way → List Int
  | .call _ => calls ++ [pc]
  | .back => calls.dropLast
  | .jump _ | .over | .stay | .on => calls

/-- The addresses on the ways from `pc`, that at the end included. -/
def route (pc : Int) (calls : List Int) : List Way → List Int
  | [] => [pc]
  | w :: ways => pc :: route (w.next pc calls) (w.callsBehind pc calls) ways

end Way

namespace Machine

/-- Whether the condition of a word holds that may skip an instruction. -/
def skips (m : Machine) (keys : Keyboard) (w : Word) : Bool :=
  match w.family.val with
  | 0x3 => m.reg w.x == w.byte
  | 0x4 => m.reg w.x != w.byte
  | 0x5 => m.reg w.x == m.reg w.y
  | 0x9 => m.reg w.x != m.reg w.y
  | 0xE =>
    if w.byte = 0x9E then m.holds keys w.x else if w.byte = 0xA1 then !m.holds keys w.x else false
  | _ => false

/-- The way of a word: `00EE` returns, `1nnn` and `Bnnn` jump, `2nnn` calls, `Fx0A` stays as long
as no key is reported, and words with a condition skip if it holds. -/
def way (m : Machine) (keys : Keyboard) (w : Word) : Way :=
  match w.family.val with
  | 0x0 => if w = 0x00EE then .back else .on
  | 0x1 | 0xB => .jump w.target.val
  | 0x2 => .call w.target.val
  | 0xF => if w.byte = 0x0A ∧ keys.pressedKey = none then .stay else .on
  | _ => if m.skips keys w then .over else .on

variable {limit divider : Int} {m : Machine} {keys : Keyboard} {s : Step} {i : Instruction}

/-! ## Instructions -/

/-- Where an instruction leaves the program counter. -/
def pcBehind (m : Machine) (keys : Keyboard) (i : Instruction) : Int :=
  if (m.effect keys i).setsPc then (m.effect keys i).machine.pc
  else (m.effect keys i).machine.pc + wordSize

theorem pcBehind_skipped (condition : Bool) (h : m.effect keys i = m.skipped condition) :
    m.pcBehind keys i = (if condition then Way.over else .on).next m.pc m.calls := by
  unfold pcBehind
  rw [h]
  cases condition with
  | false => rfl
  | true =>
      show m.pc + (2 : Int) + 2 = m.pc + 4
      omega

theorem pcBehind_on (hpc : (m.effect keys i).machine.pc = m.pc)
    (hsets : (m.effect keys i).setsPc = false) :
    m.pcBehind keys i = Way.on.next m.pc m.calls := by
  unfold pcBehind
  rw [hpc, hsets]
  rfl

/-- An instruction that is not refused goes the way of its word. -/
theorem pcBehind_eq (hallowed : m.refusal? keys i = none) :
    m.pcBehind keys i = (m.way keys i.toWord).next m.pc m.calls := by
  cases i with
  | ret =>
      have hcalls : m.calls = _ ++ [((m.effect keys .ret).machine.pc : Int)] :=
        calls_ret (allowed_ret.mp hallowed)
      show (m.memory.top.toNat : Int) + 2 = m.calls.getLastD m.pc + 2
      rw [hcalls, List.getLastD_concat]
      rfl
  | jump t | call t | jumpAlt t =>
      simp (disch := decide) only [Instruction.toWord, way, Word.fields_ofTarget]
      rfl
  | skipEqByte x b | skipNeByte x b =>
      simp (disch := decide) only [Instruction.toWord, way, skips, Word.fields_ofRegByte]
      exact pcBehind_skipped _ rfl
  | skipEqReg x y | skipNeReg x y =>
      simp (disch := decide) only [Instruction.toWord, way, skips, Word.fields_ofRegs]
      exact pcBehind_skipped _ rfl
  | skipKey x =>
      simp (disch := decide) only [Instruction.toWord, way, skips, Word.fields_ofRegByte]
      exact pcBehind_skipped (m.holds keys x) rfl
  | skipNoKey x =>
      simp (disch := decide) only [Instruction.toWord, way, skips, Word.fields_ofRegByte]
      exact pcBehind_skipped (!m.holds keys x) rfl
  | waitKey x =>
      simp (disch := decide) only [Instruction.toWord, way, Word.fields_ofRegByte, true_and]
      unfold pcBehind effect
      cases keys.pressedKey with
      | none => rfl
      | some k => rfl
  | arith op x y =>
      obtain ⟨registers, h⟩ := m.combined_eq op x y
      have hfields := Word.fields_ofRegs x y (show 0x8 < 16 by decide) (Instruction.code_lt op)
      simp only [Instruction.toWord, way, skips, hfields]
      apply pcBehind_on
      · show (m.combined op x y).pc = m.pc
        rw [h]
      · rfl
  | draw x y n =>
      have hfields := Word.fields_ofRegs x y (show 0xD < 16 by decide) n.isLt
      simp only [Instruction.toWord, way, skips, hfields]
      rfl
  | clear => rfl
  | loadIndex t =>
      simp (disch := decide) only [Instruction.toWord, way, skips, Word.fields_ofTarget]
      rfl
  | loadByte x b | addByte x b | random x b | getDelay x | setDelay x | setSound x | addIndex x
  | loadGlyph x | storeDecimal x | storeRegs x =>
      simp (disch := decide) only [Instruction.toWord, way, skips, Word.fields_ofRegByte]
      rfl
  | loadRegs x =>
      simp (disch := decide) only [Instruction.toWord, way, Word.fields_ofRegByte]
      apply pcBehind_on
      · rw [effect]
      · rfl

/-! ## Steps -/

/-- No other word calls or returns. -/
theorem callsBehind_way {w : Word} (hcall : w.family.val ≠ 0x2) (hret : w ≠ 0x00EE) :
    (m.way keys w).callsBehind m.pc m.calls = m.calls := by
  unfold way
  split
  · rw [if_neg hret]
    rfl
  · rfl
  · rfl
  next hfamily => exact absurd hfamily hcall
  · split <;> rfl
  · split <;> rfl

namespace Executes

/-- A step goes the way of its word. -/
theorem pc_next (hexec : Executes m divider keys s i) :
    s.next.pc = (m.way keys s.word).next m.pc m.calls := by
  rw [hexec.next, pc_finish, ← Instruction.toWord_of_ofWord? hexec.decoded,
    ← pcBehind_eq hexec.allowed]
  rfl

/-- The stack behind a step is as the way of its word says. -/
theorem calls_next (hexec : Executes m divider keys s i) (h : m.WellFormed limit) :
    s.next.calls = (m.way keys s.word).callsBehind m.pc m.calls := by
  by_cases hcall : s.word.family.val = 0x2
  · have hway : m.way keys s.word = .call s.word.target.val := by
      simp only [way, hcall]
    rw [hexec.calls_of_call h hcall, hway]
    rfl
  · by_cases hret : s.word = 0x00EE
    · obtain ⟨p, hcalls, -⟩ := hexec.calls_of_ret hret
      have hway : m.way keys s.word = .back := by
        rw [hret]
        rfl
      rw [hway, Way.callsBehind, hcalls, List.dropLast_concat]
    · rw [hexec.calls_of_other hcall hret, callsBehind_way hcall hret]

end Executes

end Machine

end ChipEight
