import ChipEight.Proofs.Machine.Classification

/-!
# Where inputs enter

A machine has three inputs from outside, the random source, the keys and the rate at which
its timers run. `Machine.Twins` leaves out all that they can touch directly: two machines are
twins if they differ in the timers and in the random source only. Five instructions read an
input. Every other one does the same on twins, whatever keys are held and however fast the
timers run, and leaves twins behind. It also fails on one of them as on the other.

## Main results

* `Machine.Twins.effect` — one case per instruction.
* `Machine.Twins.executes`, `Machine.Twins.blocked` — steps of twins.
-/

namespace ChipEight

/-! ## Instructions that read an input -/

/-- The word of an instruction that reads an input: `Cxkk`, `Ex9E`, `ExA1`, `Fx07` or
`Fx0A`. -/
def Word.ReadsInput (w : Word) : Prop :=
  w.family.val = 0xC ∨ w.family.val = 0xE ∧ (w.byte = 0x9E ∨ w.byte = 0xA1) ∨
    w.family.val = 0xF ∧ (w.byte = 0x07 ∨ w.byte = 0x0A)

instance : DecidablePred Word.ReadsInput := fun w =>
  inferInstanceAs (Decidable (w.family.val = 0xC ∨ _ ∧ (_ ∨ _) ∨ _ ∧ (_ ∨ _)))

namespace Instruction

/-- Whether an instruction reads the random source, the keys or a timer. -/
def readsInput : Instruction → Bool
  | .random _ _ | .skipKey _ | .skipNoKey _ | .getDelay _ | .waitKey _ => true
  | _ => false

theorem readsInput_word {w : Word} {i : Instruction} (hdecode : ofWord? w = some i)
    (hreads : i.readsInput = true) : w.ReadsInput := by
  have hfields : ∀ f x b, f < 16 → i.toWord = Word.ofRegByte f x b →
      w.family.val = f ∧ w.byte = b := by
    intro f x b hf hword
    obtain ⟨hfamily, -, hbyte⟩ := Word.fields_ofRegByte x b hf
    rw [← toWord_of_ofWord? hdecode, hword]
    exact ⟨hfamily, hbyte⟩
  cases i with
  | random x mask => exact .inl (hfields 0xC x mask (by decide) rfl).1
  | skipKey x =>
      obtain ⟨hfamily, hbyte⟩ := hfields 0xE x 0x9E (by decide) rfl
      exact .inr (.inl ⟨hfamily, .inl hbyte⟩)
  | skipNoKey x =>
      obtain ⟨hfamily, hbyte⟩ := hfields 0xE x 0xA1 (by decide) rfl
      exact .inr (.inl ⟨hfamily, .inr hbyte⟩)
  | getDelay x =>
      obtain ⟨hfamily, hbyte⟩ := hfields 0xF x 0x07 (by decide) rfl
      exact .inr (.inr ⟨hfamily, .inl hbyte⟩)
  | waitKey x =>
      obtain ⟨hfamily, hbyte⟩ := hfields 0xF x 0x0A (by decide) rfl
      exact .inr (.inr ⟨hfamily, .inr hbyte⟩)
  | _ => cases hreads

end Instruction

namespace Machine

/-- Letting the timers run changes nothing else. -/
theorem decay_eq (m : Machine) (divider : Int) :
    ∃ delayTimer soundTimer, m.decay divider = { m with delayTimer, soundTimer } := by
  unfold decay
  split
  · exact ⟨_, _, rfl⟩
  · exact ⟨_, _, rfl⟩

/-! ## Twins -/

/-- The machines are the same except for their timers and their random sources. -/
def Twins (m m' : Machine) : Prop :=
  ∃ delayTimer soundTimer random, m' = { m with delayTimer, soundTimer, random }

namespace Twins

variable {m m' : Machine} {i : Instruction} {s : Step} {limit : Int}

theorem memory (h : Twins m m') : m'.memory = m.memory := by
  obtain ⟨_, _, _, rfl⟩ := h
  rfl

theorem registers (h : Twins m m') : m'.registers = m.registers := by
  obtain ⟨_, _, _, rfl⟩ := h
  rfl

theorem index (h : Twins m m') : m'.index = m.index := by
  obtain ⟨_, _, _, rfl⟩ := h
  rfl

theorem pc (h : Twins m m') : m'.pc = m.pc := by
  obtain ⟨_, _, _, rfl⟩ := h
  rfl

theorem cycle (h : Twins m m') : m'.cycle = m.cycle := by
  obtain ⟨_, _, _, rfl⟩ := h
  rfl

theorem display (h : Twins m m') : m'.display = m.display := by
  obtain ⟨_, _, _, rfl⟩ := h
  rfl

theorem fetch (h : Twins m m') : m'.fetch = m.fetch := by
  unfold Machine.fetch
  rw [h.memory, h.pc]

/-! ## Instructions -/

/-- Whether an instruction is refused depends on an input only if it reads one. -/
theorem refusal (h : Twins m m') (keys keys' : Keyboard) (hquiet : i.readsInput = false) :
    m'.refusal? keys' i = m.refusal? keys i := by
  obtain ⟨_, _, _, rfl⟩ := h
  cases i with
  | random | skipKey | skipNoKey | getDelay | waitKey => cases hquiet
  | _ => rfl

theorem skipped (h : Twins m m') (condition : Bool) :
    Twins (m.skipped condition).machine (m'.skipped condition).machine := by
  obtain ⟨_, _, _, rfl⟩ := h
  cases condition with
  | false => exact ⟨_, _, _, rfl⟩
  | true => exact ⟨_, _, _, rfl⟩

theorem combined (h : Twins m m') (op : Arith) (x y : Reg) :
    Twins (m.combined op x y) (m'.combined op x y) := by
  have hregs := h.registers
  obtain ⟨_, _, _, rfl⟩ := h
  unfold Machine.combined reg
  rw [hregs]
  rcases op.eval m.registers[x] m.registers[y] with ⟨v, _ | flag⟩
  · exact ⟨_, _, _, rfl⟩
  · exact ⟨_, _, _, rfl⟩

/-- An instruction that reads no input does the same to twins. -/
theorem effect (h : Twins m m') (keys keys' : Keyboard) (hquiet : i.readsInput = false) :
    Twins (m.effect keys i).machine (m'.effect keys' i).machine ∧
      (m'.effect keys' i).setsPc = (m.effect keys i).setsPc ∧
      (m'.effect keys' i).redraw = (m.effect keys i).redraw := by
  have hregs := h.registers
  cases i with
  | random | skipKey | skipNoKey | getDelay | waitKey => cases hquiet
  | skipEqByte x b | skipNeByte x b | skipEqReg x y | skipNeReg x y =>
      unfold Machine.effect reg
      rw [hregs]
      exact ⟨h.skipped _, rfl, rfl⟩
  | arith op x y => exact ⟨h.combined op x y, rfl, rfl⟩
  | _ =>
      obtain ⟨_, _, _, rfl⟩ := h
      exact ⟨⟨_, _, _, rfl⟩, rfl, rfl⟩

/-- The rate of the timers is seen in the timers only. -/
theorem finish (h : Twins m m') (setsPc : Bool) (divider divider' : Int) :
    Twins (m.finish setsPc divider) (m'.finish setsPc divider') := by
  obtain ⟨_, _, hdecay⟩ := m.decay_eq divider
  obtain ⟨_, _, hdecay'⟩ := m'.decay_eq divider'
  obtain ⟨_, _, _, rfl⟩ := h
  unfold Machine.finish
  rw [hdecay, hdecay']
  exact ⟨_, _, _, rfl⟩

/-! ## Steps -/

/-- Twins execute the same instruction, unless that reads an input. -/
theorem executes (h : Twins m m') {divider : Int} {keys : Keyboard}
    (hexec : Executes m divider keys s i) (hquiet : i.readsInput = false) (divider' : Int)
    (keys' : Keyboard) :
    ∃ s', Executes m' divider' keys' s' i ∧ s'.pc = s.pc ∧ s'.word = s.word ∧
      s'.redraw = s.redraw ∧ Twins s.next s'.next := by
  obtain ⟨htwins, hsets, hredraw⟩ := h.effect keys keys' hquiet
  have hfetched : m'.fetch = .ok s.word := h.fetch.trans hexec.fetched
  have hallowed : m'.refusal? keys' i = none := (h.refusal keys keys' hquiet).trans hexec.allowed
  refine ⟨⟨m'.pc, s.word, _, _⟩, ⟨hfetched, hexec.decoded, hallowed, rfl, rfl, rfl⟩,
    ?_, rfl, ?_, ?_⟩
  · exact h.pc.trans hexec.pc.symm
  · exact hredraw.trans hexec.redraw.symm
  · rw [hexec.next, hsets]
    exact htwins.finish _ divider divider'

/-- An instruction that reads an input is refused for its operand, which twins share, or
because of a misreported key. -/
theorem refusal_of_readsInput (h : Twins m m') (hwell : m.WellFormed limit) {keys : Keyboard}
    (hkeys : ¬keys.Misreports) {halt : Halt} (hcheck : m.refusal? keys i = some halt)
    (hreads : i.readsInput = true) (keys' : Keyboard) : m'.refusal? keys' i = some halt := by
  cases i with
  | random => cases hcheck
  | skipKey | skipNoKey =>
      rw [← hcheck]
      obtain ⟨_, _, _, rfl⟩ := h
      rfl
  | getDelay x =>
      have hbyte : 0 ≤ m.delayTimer ∧ m.delayTimer < 256 :=
        ⟨hwell.delayTimer.1, Int.lt_add_one_of_le hwell.delayTimer.2⟩
      rw [refusal?, if_pos hbyte] at hcheck
      cases hcheck
  | waitKey x =>
      obtain ⟨c, rfl⟩ := refusal_eq_fault hwell hcheck
      have hverdict := congrArg verdict hcheck
      rw [verdict_waitKey, if_neg hkeys] at hverdict
      cases hverdict
  | _ => cases hreads

/-- Twins are stopped by the same fault, unless the keyboard causes it. -/
theorem blocked (h : Twins m m') (hwell : m.WellFormed limit) {keys : Keyboard}
    {word : Option Word} {halt : Halt} (hblocked : Blocked m keys word halt)
    (hkeys : ∀ w, m.fetch = .ok w → w.ReadsInput → ¬keys.Misreports) (keys' : Keyboard) :
    Blocked m' keys' word halt := by
  have hfetches := h.fetch
  cases hblocked with
  | fetch hfetch => exact .fetch (hfetches.trans hfetch)
  | decode hfetch hdecode => exact .decode (hfetches.trans hfetch) hdecode
  | @check w i halt hfetch hdecode hcheck =>
      refine .check (hfetches.trans hfetch) hdecode ?_
      cases hreads : i.readsInput with
      | false => rw [h.refusal keys keys' hreads, hcheck]
      | true =>
          have hword := Instruction.readsInput_word hdecode hreads
          exact h.refusal_of_readsInput hwell (hkeys w hfetch hword) hcheck hreads keys'

end Twins

end Machine

end ChipEight
