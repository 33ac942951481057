import ChipEight.Proofs.Console.Alike
import ChipEight.Proofs.Console.CallStack
import ChipEight.Proofs.Machine.Inputs
import ChipEight.Proofs.Session.WellFormed

/-!
# Inputs enter through their instructions only

Two consoles are given the same program and may differ in everything that comes from outside:
the random source, the keys at every moment, the rate of the timers, and whoever observes. As
long as the first takes no input, their machines are twins, so both do the same step for
step, faults included. The induction is on the number of steps that were attempted, and a
well-formed machine goes with the relation: it can always read its delay timer, so that no
step fails because of the timers.

## Main results

* `Console.Twins.step` — one step of consoles whose machines are twins.
* `Console.inputs_enter_by_instructions` — any number of steps from power-on.
-/

namespace ChipEight

namespace Console

/-! ## Steps and their inputs -/

/-- The console after `k` attempts at a step, each with the keys that are held then. -/
def after (c : Console) (keys : Nat → Keyboard) : Nat → Console
  | 0 => c
  | k + 1 => ((c.after keys k).step (keys k)).1

/-- An input enters in the next step: it executes an instruction that reads one, or such an
instruction is stopped by a keyboard that reports no key. -/
def TakesInput (c : Console) (keys : Keyboard) : Prop :=
  ∃ w, c.machine.fetch = .ok w ∧ w.ReadsInput ∧
    ((∃ r, (c.step keys).2 = .ok r) ∨ keys.Misreports)

/-- Two steps answered the same: they executed the same word at the same address and went on
to the same address, or they failed with the same fault. -/
inductive SameAnswer : Except Failure StepReport → Except Failure StepReport → Prop
  | ok {r r' : StepReport} (report : r'.plain = r.plain) : SameAnswer (.ok r) (.ok r')
  | fault {f f' : Fault} (kind : f'.kind = f.kind) (opcode : f'.opcode = f.opcode)
    (pc : f'.pc = f.pc) (address : f'.address = f.address) :
    SameAnswer (.error (.fault f)) (.error (.fault f'))

/-- All that can be seen of the consoles is the same, except for the timers. -/
structure SameButTimers (c d : Console) : Prop where
  pc : d.machine.pc = c.machine.pc
  registers : d.machine.registers = c.machine.registers
  index : d.machine.index = c.machine.index
  sp : d.machine.memory.sp = c.machine.memory.sp
  cycle : d.machine.cycle = c.machine.cycle
  bytes : d.machine.memory.bytes = c.machine.memory.bytes
  log : d.machine.memory.log = c.machine.memory.log
  display : d.machine.display = c.machine.display
  frame : d.screen.frame = c.screen.frame
  drawCount : d.screen.drawCount = c.screen.drawCount
  draws : d.draws = c.draws

/-! ## Twins -/

/-- The machines of the consoles are twins, and the same was shown. -/
structure Twins (c d : Console) : Prop where
  machine : c.machine.Twins d.machine
  frame : d.screen.frame = c.screen.frame
  drawCount : d.screen.drawCount = c.screen.drawCount
  draws : d.draws = c.draws

namespace Twins

variable {c c' d d' : Console} {keys : Keyboard} {limit : Int}

theorem sameButTimers (h : Twins c d) : SameButTimers c d where
  pc := h.machine.pc
  registers := h.machine.registers
  index := h.machine.index
  sp := by rw [h.machine.memory]
  cycle := h.machine.cycle
  bytes := by rw [h.machine.memory]
  log := by rw [h.machine.memory]
  display := h.machine.display
  frame := h.frame
  drawCount := h.drawCount
  draws := h.draws

theorem of_bare (h : Twins c d) (hc : c'.bare = c.bare) (hd : d'.bare = d.bare) :
    Twins c' d' where
  machine := by rw [machine_of_bare hc, machine_of_bare hd]; exact h.machine
  frame := by rw [screen_of_bare hc, screen_of_bare hd, h.frame]
  drawCount := by rw [screen_of_bare hc, screen_of_bare hd, h.drawCount]
  draws := by rw [draws_of_bare hc, draws_of_bare hd, h.draws]

/-- Twins show the same picture. -/
theorem redraw (h : Twins c d) : Twins c.redraw d.redraw := by
  refine ⟨h.machine, ?_, ?_, h.draws⟩
  · show d.machine.display.rows = c.machine.display.rows
    rw [h.machine.display]
  · show d.screen.drawCount + 1 = c.screen.drawCount + 1
    rw [h.drawCount]

theorem behind (h : Twins c d) {s s' : Machine.Step} (hnext : s.next.Twins s'.next)
    (hredraw : s'.redraw = s.redraw) : Twins (c.behind s) (d.behind s') := by
  unfold Console.behind
  rw [hredraw]
  split
  · apply redraw
    exact ⟨hnext, h.frame, h.drawCount, congrArg (· + 1) h.draws⟩
  · exact ⟨hnext, h.frame, h.drawCount, h.draws⟩

/-! ## Steps -/

/-- A step that takes no input answers the same on both consoles. -/
theorem step (h : Twins c d) (hwell : c.machine.WellFormed limit)
    (hquiet : ¬c.TakesInput keys) (keys' : Keyboard) :
    SameAnswer (c.step keys).2 (d.step keys').2 ∧
      Twins (c.step keys).1 (d.step keys').1 := by
  rcases Machine.executes_or_blocked c.machine c.config.timerDivider keys with
    ⟨s, i, hexec⟩ | ⟨word, halt, hblocked⟩
  · obtain ⟨c', hc, hc'⟩ := step_of_executes hexec
    have hreads : i.readsInput = false := by
      cases hreads : i.readsInput with
      | false => rfl
      | true =>
          have hword := Instruction.readsInput_word hexec.decoded hreads
          exact absurd ⟨s.word, hexec.fetched, hword, .inl ⟨_, congrArg Prod.snd hc⟩⟩ hquiet
    obtain ⟨s', hexec', hpc, hword, hredraw, hnext⟩ :=
      h.machine.executes hexec hreads d.config.timerDivider keys'
    obtain ⟨d', hd, hd'⟩ := step_of_executes hexec'
    rw [hc, hd]
    refine ⟨.ok ?_, (h.behind hnext hredraw).of_bare hc' hd'⟩
    simp only [StepReport.plain, answerOf, hpc, hword, hredraw, hnext.pc]
  · obtain ⟨c', hc, hc'⟩ := step_of_blocked hblocked
    have hkeys : ∀ w, c.machine.fetch = .ok w → w.ReadsInput → ¬keys.Misreports := by
      intro w hfetch hword hmisreports
      exact hquiet ⟨w, hfetch, hword, .inr hmisreports⟩
    have hblocked' := h.machine.blocked hwell hblocked hkeys keys'
    obtain ⟨d', hd, hd'⟩ := step_of_blocked hblocked'
    rw [hc, hd, h.machine.pc]
    obtain ⟨cause, rfl⟩ := hblocked.eq_fault hwell
    exact ⟨.fault rfl rfl rfl rfl, h.of_bare hc' hd'⟩

/-- As long as the first console takes no input, both go on as twins. -/
theorem after (h : Twins c d) (hwell : c.machine.WellFormed Machine.pcLimit)
    (keys keys' : Nat → Keyboard) :
    ∀ k, (∀ i < k, ¬(c.after keys i).TakesInput (keys i)) →
      Twins (c.after keys k) (d.after keys' k) ∧
        (c.after keys k).machine.WellFormed Machine.pcLimit := by
  intro k
  induction k with
  | zero =>
      intro _
      exact ⟨h, hwell⟩
  | succ k ih =>
      intro hquiet
      obtain ⟨htwins, hwells⟩ := ih fun i hi => hquiet i (Nat.lt_succ_of_lt hi)
      obtain ⟨-, hnext⟩ := htwins.step hwells (hquiet k (Nat.lt_succ_self k)) (keys' k)
      exact ⟨hnext, machine_step Machine.invariant_wellFormed hwells (keys k)⟩

theorem load (h : Twins c d) (program : List UInt8) :
    Twins (c.load program).1 (d.load program).1 := by
  obtain ⟨delayTimer, soundTimer, random, hmachine⟩ := h.machine
  unfold Console.load Machine.load
  rw [h.machine.memory]
  cases c.machine.memory.load program with
  | error cause => exact h
  | ok memory =>
      refine ⟨⟨delayTimer, soundTimer, random, ?_⟩, h.frame, h.drawCount, h.draws⟩
      show { d.machine with memory } = _
      rw [hmachine]
      rfl

end Twins

/-! ## Runs from power-on -/

/-- Newly made consoles are twins, whatever their settings and random sources are. -/
theorem twins_create {config config' : Config} {random random' : Option Generator}
    {trace trace' : Trace.Dispatcher} {c d : Console}
    (hc : create config random trace = .ok c) (hd : create config' random' trace' = .ok d) :
    Twins c d := by
  obtain ⟨_, _, rfl⟩ := create_inv hc
  obtain ⟨_, _, rfl⟩ := create_inv hd
  -- Random sources are not to be computed, whatever the settings say of them.
  generalize random.getD (randomOf config.seed) = g
  generalize random'.getD (randomOf config'.seed) = g'
  have hmachine : (Machine.powerOn g).Twins (Machine.powerOn g') := ⟨0, 0, g', rfl⟩
  apply Twins.redraw
  exact ⟨hmachine, rfl, rfl, rfl⟩

/-- Two consoles are made with any settings, random sources and observers, and are given the
same program; the keys that are held may differ at every step. While the first takes no
input in its first `k` steps, the other does the same: each step answers the same, faults
included, and leaves the same behind, except for the timers. -/
theorem inputs_enter_by_instructions {config config' : Config}
    {random random' : Option Generator} {trace trace' : Trace.Dispatcher} {c d : Console}
    (hc : create config random trace = .ok c) (hd : create config' random' trace' = .ok d)
    (program : List UInt8) (keys keys' : Nat → Keyboard) (k : Nat)
    (hquiet : ∀ i < k, ¬((c.load program).1.after keys i).TakesInput (keys i)) :
    (∀ i < k, SameAnswer (((c.load program).1.after keys i).step (keys i)).2
      (((d.load program).1.after keys' i).step (keys' i)).2) ∧
    ∀ i ≤ k, SameButTimers ((c.load program).1.after keys i)
      ((d.load program).1.after keys' i) := by
  obtain ⟨g, hpower⟩ := machine_create hc
  have hwell : (c.load program).1.machine.WellFormed Machine.pcLimit :=
    machine_load Machine.invariant_wellFormed (hpower ▸ Machine.wellFormed_powerOn g) program
  have hafter := ((twins_create hc hd).load program).after hwell keys keys'
  constructor
  · intro i hi
    obtain ⟨htwins, hwells⟩ := hafter i fun j hj => hquiet j (Nat.lt_trans hj hi)
    exact (htwins.step hwells (hquiet i hi) (keys' i)).1
  · intro i hi
    exact (hafter i fun j hj => hquiet j (Nat.lt_of_lt_of_le hj hi)).1.sameButTimers

/-- A program that sets the delay timer and returns without a call. -/
def setAndReturn : List UInt8 := [0x61, 0x05, 0xF1, 0x15, 0x00, 0xEE]

/-- A keyboard with every key held. -/
def allKeys : Keyboard where
  isPressed := fun _ => true
  pressedKey := some 0

/-- A console whose timers run with every instruction, with another random source. -/
def hurried : Console :=
  Console.redraw
    { config := { timerDivider := 1, seed := some 7 }
      ownsRandom := false
      machine := .powerOn ⟨Vector.replicate generatorSize 1, 5⟩
      screen := {}
      trace := {}
      history := none
      log := #[] }

/-- The timers run apart, and nothing else does: the return fails on both consoles. -/
theorem hurried_inputs :
    let c := (Session.fresh.console.load setAndReturn).1
    let d := (hurried.load setAndReturn).1
    let keys := fun _ => noKeys
    let keys' := fun _ => allKeys
    (∀ i < 3, ¬(c.after keys i).TakesInput (keys i)) ∧
      SameAnswer ((c.after keys 2).step (keys 2)).2 ((d.after keys' 2).step (keys' 2)).2 ∧
      SameButTimers (c.after keys 3) (d.after keys' 3) ∧
      (c.after keys 3).machine.delayTimer = 5 ∧ (d.after keys' 3).machine.delayTimer = 4 := by
  intro c d keys keys'
  have hruns : (∀ i : Fin 3, (c.after keys i).machine.fetch.toOption.all
        fun w => !decide w.ReadsInput) ∧
      (c.after keys 3).machine.delayTimer = 5 ∧ (d.after keys' 3).machine.delayTimer = 4 := by
    decide +kernel
  obtain ⟨hwords, hslow, hfast⟩ := hruns
  have hquiet : ∀ i < 3, ¬(c.after keys i).TakesInput (keys i) := by
    rintro i hi ⟨w, hfetch, hreads, -⟩
    have hword := hwords ⟨i, hi⟩
    rw [hfetch] at hword
    simp [Except.toOption, hreads] at hword
  have hcreate : create { timerDivider := 1, seed := some 7 }
      (some ⟨Vector.replicate generatorSize 1, 5⟩) {} = .ok hurried := rfl
  obtain ⟨hanswers, hsame⟩ :=
    inputs_enter_by_instructions Session.create_fresh hcreate setAndReturn keys keys' 3 hquiet
  exact ⟨hquiet, hanswers 2 (by decide), hsame 3 (by decide), hslow, hfast⟩

end Console

end ChipEight
