import ChipEight.Proofs.Instruction.Coding
import ChipEight.Proofs.Machine.Step
import ChipEight.Proofs.Memory.Bytes

/-!
# Timers

Both timers run alike, so everything here is said of a `Timer`. An instruction leaves a timer
as it was or sets it, and after that it loses one if the count of executed instructions is a
multiple of the divider. The multiples from `a` up to `b` are counted by a quotient that is
rounded up: there are `divUp b d - divUp a d` of them.

## Main results

* `divUp_succ` — the quotient grows behind multiples of the divider.
* `Machine.Executes.timer_next` — a timer behind a step.
-/

namespace ChipEight

/-! ## Quotients that are rounded up -/

/-- The quotient of two numbers, rounded up. -/
def divUp (a d : Int) : Int := -(-a / d)

theorem divUp_eq_iff {a d q : Int} (hd : 0 < d) :
    divUp a d = q ↔ a ≤ q * d ∧ q * d < a + d := by
  have hneg : divUp a d = q ↔ -a / d = -q := by
    unfold divUp
    omega
  rw [hneg, Int.ediv_eq_iff_of_pos hd, Int.neg_mul]
  omega

theorem divUp_mono {a b d : Int} (hd : 0 < d) (h : a ≤ b) : divUp a d ≤ divUp b d :=
  Int.neg_le_neg (Int.ediv_le_ediv hd (Int.neg_le_neg h))

theorem divUp_succ {a d : Int} (hd : 0 < d) :
    divUp (a + 1) d = divUp a d + if a % d = 0 then 1 else 0 := by
  obtain ⟨hle, hlt⟩ := (divUp_eq_iff hd).mp (Eq.refl (divUp a d))
  by_cases hmod : a % d = 0
  · -- A multiple of the divider is reached exactly, so the next number begins a new quotient.
    obtain ⟨k, rfl⟩ := Int.dvd_of_emod_eq_zero hmod
    have hk : divUp (d * k) d = k := (divUp_eq_iff hd).mpr (by rw [Int.mul_comm]; omega)
    rw [if_pos hmod, hk, divUp_eq_iff hd, Int.add_mul, Int.mul_comm k]
    omega
  · have hne : a ≠ divUp a d * d := by
      intro heq
      rw [heq, Int.mul_emod_left] at hmod
      exact hmod rfl
    rw [if_neg hmod, Int.add_zero, divUp_eq_iff hd]
    omega

/-! ## The two timers -/

/-- The timers of a machine. -/
inductive Timer
  | delay
  | sound
  deriving DecidableEq

namespace Timer

/-- The low byte of the word that sets a timer, `Fx15` or `Fx18`. -/
def code : Timer → UInt8
  | .delay => 0x15
  | .sound => 0x18

/-- The instruction that sets a timer. -/
def setter : Timer → Reg → Instruction
  | .delay => .setDelay
  | .sound => .setSound

end Timer

/-- The word of an instruction that sets a timer. -/
def Word.Sets (w : Word) (t : Timer) : Prop := w.family.val = 0xF ∧ w.byte = t.code

instance (w : Word) (t : Timer) : Decidable (w.Sets t) :=
  inferInstanceAs (Decidable (w.family.val = 0xF ∧ w.byte = t.code))

/-- The words of the family `Fxkk` are told apart by their low byte. -/
theorem Instruction.ofWord?_of_family_misc {w : Word} (h : w.family.val = 0xF) :
    ofWord? w = ofMiscWord? w.x w.byte.toNat := by
  simp only [ofWord?, h]

theorem Timer.ofWord?_of_sets {w : Word} {t : Timer} (h : w.Sets t) :
    Instruction.ofWord? w = some (t.setter w.x) := by
  rw [Instruction.ofWord?_of_family_misc h.1, h.2]
  cases t with
  | delay => rfl
  | sound => rfl

theorem Timer.sets_of_setter {w : Word} {t : Timer} {x : Reg}
    (hdecode : Instruction.ofWord? w = some (t.setter x)) : w.Sets t := by
  have hword : (t.setter x).toWord = Word.ofRegByte 0xF x t.code := by
    cases t with
    | delay => rfl
    | sound => rfl
  obtain ⟨hfamily, -, hbyte⟩ := Word.fields_ofRegByte x t.code (show 0xF < 16 by decide)
  rw [← hword, Instruction.toWord_of_ofWord? hdecode] at hfamily hbyte
  exact ⟨hfamily, hbyte⟩

namespace Machine

/-- The value of a timer. -/
def timer (m : Machine) : Timer → Int
  | .delay => m.delayTimer
  | .sound => m.soundTimer

variable {m : Machine} {keys : Keyboard} {divider : Int} {s : Step} {i : Instruction} {t : Timer}

/-! ## Instructions -/

theorem timer_effect_setter (m : Machine) (keys : Keyboard) (t : Timer) (x : Reg) :
    (m.effect keys (t.setter x)).machine.timer t = (m.reg x).toNat := by
  cases t with
  | delay => rfl
  | sound => rfl

/-- Any other instruction leaves the timer alone. -/
theorem timer_effect_of_ne (hne : ∀ x, i ≠ t.setter x) :
    (m.effect keys i).machine.timer t = m.timer t := by
  cases hlocal : i.isLocal with
  | true =>
      obtain ⟨registers, pc, h⟩ := m.effect_of_isLocal keys hlocal
      rw [h]
      cases t with
      | delay => rfl
      | sound => rfl
  | false =>
      cases i with
      | setDelay x =>
          cases t with
          | delay => exact absurd rfl (hne x)
          | sound => rfl
      | setSound x =>
          cases t with
          | delay => rfl
          | sound => exact absurd rfl (hne x)
      | clear | ret | call | loadIndex | random | draw | addIndex | loadGlyph
      | storeDecimal | storeRegs =>
          cases t with
          | delay => rfl
          | sound => rfl
      | loadRegs x =>
          cases t with
          | delay =>
              show (m.effect keys (.loadRegs x)).machine.delayTimer = m.delayTimer
              rw [effect]
          | sound =>
              show (m.effect keys (.loadRegs x)).machine.soundTimer = m.soundTimer
              rw [effect]
      | _ => cases hlocal

/-! ## Steps -/

/-- A timer that the word of a step has set, or left alone. -/
def timerSet (m : Machine) (w : Word) (t : Timer) : Int :=
  if w.Sets t then (m.reg w.x).toNat else m.timer t

theorem timer_finish (m : Machine) (setsPc : Bool) (divider : Int) (t : Timer) :
    (m.finish setsPc divider).timer t =
      if m.cycle % divider = 0 then lessOne (m.timer t) else m.timer t := by
  unfold finish decay
  split
  · cases t <;> rfl
  · cases t <;> rfl

/-- A timer behind a step. It is set before it runs. -/
theorem Executes.timer_next (hexec : Executes m divider keys s i) (t : Timer) :
    s.next.timer t =
      if m.cycle % divider = 0 then lessOne (m.timerSet s.word t) else m.timerSet s.word t := by
  have heffect : (m.effect keys i).machine.timer t = m.timerSet s.word t := by
    unfold timerSet
    by_cases hsets : s.word.Sets t
    · have hdecode := hexec.decoded
      rw [Timer.ofWord?_of_sets hsets] at hdecode
      cases hdecode
      rw [if_pos hsets, timer_effect_setter]
    · rw [if_neg hsets]
      apply timer_effect_of_ne
      rintro x rfl
      exact hsets (Timer.sets_of_setter hexec.decoded)
  rw [hexec.next, timer_finish, cycle_effect, heffect]

/-- `Fx07` reads the delay timer before it runs. -/
theorem Executes.reg_of_getDelay (hexec : Executes m divider keys s i)
    (hfamily : s.word.family.val = 0xF) (hbyte : s.word.byte = 0x07) :
    ((s.next.reg s.word.x).toNat : Int) = m.delayTimer := by
  have hdecode := hexec.decoded
  rw [Instruction.ofWord?_of_family_misc hfamily, hbyte] at hdecode
  cases hdecode
  obtain ⟨_, _, _, _, hfinish⟩ :=
    (m.effect keys (.getDelay s.word.x)).machine.finish_eq
      (m.effect keys (.getDelay s.word.x)).setsPc divider
  have hreg : s.next.reg s.word.x = UInt8.ofInt m.delayTimer := by
    rw [hexec.next, hfinish]
    simp [effect, reg, setReg]
  have hbyte : 0 ≤ m.delayTimer ∧ m.delayTimer < 256 := allowed_getDelay.mp hexec.allowed
  rw [hreg, Memory.toNat_ofInt, Int.emod_eq_of_lt hbyte.1 hbyte.2]

end Machine

end ChipEight
