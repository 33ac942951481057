import ChipEight.Proofs.Instruction.Coding
import ChipEight.Proofs.Machine.Step

/-!
# What the word of a step tells

Two things that a step does besides changing registers and memory can be told from the word
that was executed. It shows the picture iff the word is `00E0` or `Dxyn`, and it takes a byte
from the random source iff the word is `Cxkk`. All other instructions leave the display and
the random source alone.

`Machine.Yields` is the form of statements about a single word: where it is executed, the step
succeeds and has a given outcome.

## Main results

* `Machine.Executes.redraw_isSome_iff`, `Machine.Executes.display_eq` — drawing.
* `Machine.Executes.random_next`, `Machine.Executes.reg_of_isRandom` — random bytes.
* `Machine.Yields.of_executes` — a word whose instruction is not refused is executed.
-/

namespace ChipEight

namespace Word

/-- The word of an instruction that draws, `00E0` or `Dxyn`. -/
def IsDraw (w : Word) : Prop := w = 0x00E0 ∨ w.family.val = 0xD

instance : DecidablePred IsDraw := fun w =>
  inferInstanceAs (Decidable (w = 0x00E0 ∨ w.family.val = 0xD))

/-- The word of an instruction that takes a random byte, `Cxkk`. -/
def IsRandom (w : Word) : Prop := w.family.val = 0xC

instance : DecidablePred IsRandom := fun w => inferInstanceAs (Decidable (w.family.val = 0xC))

end Word

/-! ## Instructions -/

namespace Instruction

/-- Whether an instruction shows the picture. -/
def shows : Instruction → Bool
  | .clear | .draw _ _ _ => true
  | _ => false

/-- How many random bytes an instruction takes. -/
def bytesTaken : Instruction → Nat
  | .random _ _ => 1
  | _ => 0

variable {w : Word} {i : Instruction}

theorem ofWord?_of_family_draw (h : w.family.val = 0xD) :
    ofWord? w = some (.draw w.x w.y w.n) := by
  simp only [ofWord?, h]

theorem ofWord?_of_family_random (h : w.family.val = 0xC) :
    ofWord? w = some (.random w.x w.byte) := by
  simp only [ofWord?, h]

theorem shows_iff (hdecode : ofWord? w = some i) : i.shows = true ↔ w.IsDraw := by
  have hword := toWord_of_ofWord? hdecode
  constructor
  · intro hshows
    cases i with
    | clear => exact .inl hword.symm
    | draw x y n => exact .inr (hword ▸ (Word.fields_ofRegs x y (by decide) n.isLt).1)
    | _ => cases hshows
  · rintro (rfl | hfamily)
    · cases hdecode
      rfl
    · rw [ofWord?_of_family_draw hfamily] at hdecode
      cases hdecode
      rfl

theorem bytesTaken_eq (hdecode : ofWord? w = some i) :
    i.bytesTaken = if w.IsRandom then 1 else 0 := by
  have hword := toWord_of_ofWord? hdecode
  by_cases hfamily : w.family.val = 0xC
  · rw [ofWord?_of_family_random hfamily] at hdecode
    cases hdecode
    exact (if_pos hfamily).symm
  · have hother : ¬w.IsRandom := hfamily
    rw [if_neg hother]
    cases i with
    | random x mask => exact absurd (hword ▸ (Word.fields_ofRegByte x mask (by decide)).1) hfamily
    | _ => rfl

end Instruction

namespace Machine

variable {divider : Int} {m : Machine} {keys : Keyboard} {s : Step} {i : Instruction}

/-! ## Effects -/

theorem redraw_effect (m : Machine) (keys : Keyboard) (i : Instruction) :
    (m.effect keys i).redraw.isSome = i.shows := by
  cases i with
  | waitKey x =>
      unfold effect
      cases keys.pressedKey <;> rfl
  | _ => rfl

/-- An instruction that does not show the picture leaves it alone. -/
theorem display_effect (hshows : i.shows = false) :
    (m.effect keys i).machine.display = m.display := by
  cases hlocal : i.isLocal with
  | true =>
      obtain ⟨registers, pc, h⟩ := m.effect_of_isLocal keys hlocal
      rw [h]
  | false =>
      cases i with
      | clear | draw x y n => cases hshows
      | loadRegs x => rw [effect]
      | ret | call | loadIndex | random | setDelay | setSound | addIndex | loadGlyph
      | storeDecimal | storeRegs => rfl
      | _ => cases hlocal

/-- An instruction moves the random source by as many bytes as it takes. -/
theorem random_effect (m : Machine) (keys : Keyboard) (i : Instruction) :
    (m.effect keys i).machine.random = m.random.skip i.bytesTaken := by
  cases hlocal : i.isLocal with
  | true =>
      have hnone : i.bytesTaken = 0 := by
        cases i with
        | random => cases hlocal
        | _ => rfl
      obtain ⟨registers, pc, h⟩ := m.effect_of_isLocal keys hlocal
      rw [h, hnone]
      rfl
  | false =>
      cases i with
      | loadRegs x =>
          rw [effect]
          rfl
      | clear | ret | call | loadIndex | random | draw | setDelay | setSound | addIndex
      | loadGlyph | storeDecimal | storeRegs => rfl
      | _ => cases hlocal

/-! ## What a word achieves -/

/-- Where the word `w` is at the program counter of `m`, a step executes it, however the timers
run and whatever keys are held, and `P` holds of the machine behind it. -/
def Yields (m : Machine) (w : Word) (P : Machine → Prop) : Prop :=
  m.fetch = .ok w → ∀ divider keys, ∃ s, m.step divider keys = .ok s ∧ P s.next

/-- An instruction that no keys refuse is executed. -/
theorem Yields.of_executes {P : Machine → Prop} (hallowed : ∀ keys, m.refusal? keys i = none)
    (h : ∀ divider keys s, Executes m divider keys s i → P s.next) : m.Yields i.toWord P := by
  intro hfetch divider keys
  let next := (m.effect keys i).machine.finish (m.effect keys i).setsPc divider
  have hexec : Executes m divider keys ⟨m.pc, i.toWord, next, (m.effect keys i).redraw⟩ i :=
    ⟨hfetch, Instruction.ofWord?_toWord i, hallowed keys, rfl, rfl, rfl⟩
  exact ⟨_, step_of_executes hexec, h divider keys _ hexec⟩

theorem Yields.mono {w : Word} {P Q : Machine → Prop} (h : m.Yields w P)
    (himp : ∀ m', P m' → Q m') : m.Yields w Q := by
  intro hfetch divider keys
  obtain ⟨s, hstep, hP⟩ := h hfetch divider keys
  exact ⟨s, hstep, himp s.next hP⟩

/-! ## Steps -/

namespace Executes

/-- A step shows the picture iff it executes `00E0` or `Dxyn`. -/
theorem redraw_isSome_iff (hexec : Executes m divider keys s i) :
    s.redraw.isSome = true ↔ s.word.IsDraw := by
  rw [hexec.redraw, redraw_effect]
  exact Instruction.shows_iff hexec.decoded

/-- All that `Dxyn` does apart from timers and counters. -/
theorem draw_inv (hexec : Executes m divider keys s i) (hdraw : s.word.family.val = 0xD) :
    Memory.InRange m.index s.word.n.val ∧
      s.next.display = (m.stamped s.word.x s.word.y s.word.n).1 ∧
      s.next.registers = m.registers.set flagRegister.val
        (if (m.stamped s.word.x s.word.y s.word.n).2 then 1 else 0) flagRegister.isLt ∧
      s.next.index = m.index ∧ s.next.memory = m.memory := by
  have hdecode := hexec.decoded
  rw [Instruction.ofWord?_of_family_draw hdraw] at hdecode
  cases hdecode
  obtain ⟨_, _, _, _, hfinish⟩ :=
    (m.effect keys (.draw s.word.x s.word.y s.word.n)).machine.finish_eq
      (m.effect keys (.draw s.word.x s.word.y s.word.n)).setsPc divider
  rw [hexec.next, hfinish]
  exact ⟨Memory.checkRange_eq_ok_iff.mp (denied_eq_none_iff.mp hexec.allowed), rfl, rfl, rfl, rfl⟩

/-- `Dxyn` leaves in the flag register whether a lit pixel went out. -/
theorem flag_of_stamped (hexec : Executes m divider keys s i) (hdraw : s.word.family.val = 0xD) :
    s.next.reg flagRegister = if (m.stamped s.word.x s.word.y s.word.n).2 then 1 else 0 := by
  obtain ⟨-, -, hregisters, -⟩ := hexec.draw_inv hdraw
  unfold reg
  rw [hregisters]
  exact Vector.getElem_set_self _

/-- What a step shows: a blank picture, or one with a sprite, of which the flag register tells
whether a lit pixel went out. -/
theorem redraw_eq (hexec : Executes m divider keys s i) :
    s.redraw =
      if s.word = 0x00E0 then some .cleared
      else if s.word.family.val = 0xD then some (.drawn (s.next.reg flagRegister == 1))
      else none := by
  have hdecode := hexec.decoded
  by_cases hclear : s.word = 0x00E0
  · rw [hclear] at hdecode
    cases hdecode
    rw [if_pos hclear]
    exact hexec.redraw
  · rw [if_neg hclear]
    by_cases hdraw : s.word.family.val = 0xD
    · rw [Instruction.ofWord?_of_family_draw hdraw] at hdecode
      cases hdecode
      rw [if_pos hdraw, hexec.redraw, hexec.flag_of_stamped hdraw, effect]
      cases (m.stamped s.word.x s.word.y s.word.n).2 <;> rfl
    · rw [if_neg hdraw, ← Option.not_isSome_iff_eq_none, hexec.redraw_isSome_iff]
      exact not_or.mpr ⟨hclear, hdraw⟩

/-- A step that does not show the picture leaves it alone. -/
theorem display_eq (hexec : Executes m divider keys s i) (hquiet : s.redraw.isSome = false) :
    s.next.display = m.display := by
  rw [hexec.redraw, redraw_effect] at hquiet
  obtain ⟨_, _, _, _, hfinish⟩ :=
    (m.effect keys i).machine.finish_eq (m.effect keys i).setsPc divider
  rw [hexec.next, hfinish]
  exact display_effect hquiet

/-- A step takes one random byte if it executes `Cxkk`, and none otherwise. -/
theorem random_next (hexec : Executes m divider keys s i) :
    s.next.random = m.random.skip (if s.word.IsRandom then 1 else 0) := by
  obtain ⟨_, _, _, _, hfinish⟩ :=
    (m.effect keys i).machine.finish_eq (m.effect keys i).setsPc divider
  rw [hexec.next, hfinish, ← Instruction.bytesTaken_eq hexec.decoded]
  exact random_effect m keys i

/-- The byte that `Cxkk` takes is masked and loaded. -/
theorem reg_of_isRandom (hexec : Executes m divider keys s i) (hword : s.word.IsRandom) :
    s.next.reg s.word.x = m.random.next.1 &&& s.word.byte := by
  have hdecode := hexec.decoded
  rw [Instruction.ofWord?_of_family_random hword] at hdecode
  cases hdecode
  obtain ⟨_, _, _, _, hfinish⟩ :=
    (m.effect keys (.random s.word.x s.word.byte)).machine.finish_eq
      (m.effect keys (.random s.word.x s.word.byte)).setsPc divider
  rw [hexec.next, hfinish]
  simp [effect, reg, setReg]

end Executes

end Machine

end ChipEight
