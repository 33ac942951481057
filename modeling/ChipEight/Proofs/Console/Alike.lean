import ChipEight.Proofs.Console.Course
import ChipEight.Proofs.Console.PowerOn

/-!
# Consoles that go on alike

Two consoles are alike if they hold the same machine, show the same picture and have the
settings in common that a machine can notice. How often they have drawn before may differ, by
amounts that never change. Alike consoles stay alike under every operation and give the same
answers, so whatever the relation leaves out cannot be told by running programs: who
observes, what was logged, whether instructions are traced, and all the past.

A step of alike consoles is one step of one machine, seen twice. The loops are followed once, by
induction on the number of steps.

## Main results

* `Console.Alike.step` — one step, with what it answers.
* `Console.Alike.run` — any number of steps.
-/

namespace ChipEight

/-- A report without the instruction in words, which depends on whether it was traced. -/
def StepReport.plain (r : StepReport) : StepReport := { r with description := none }

namespace Console

/-- The consoles go on alike. The first has drawn `drawn` times more often than the second, and
its display was drawn `shown` times more often. -/
structure Alike (drawn shown : Nat) (c d : Console) : Prop where
  machine : c.machine = d.machine
  timerDivider : c.config.timerDivider = d.config.timerDivider
  seed : c.config.seed = d.config.seed
  ownsRandom : c.ownsRandom = d.ownsRandom
  frame : c.screen.frame = d.screen.frame
  drawCount : c.screen.drawCount = d.screen.drawCount + shown
  draws : c.draws = d.draws + drawn

variable {drawn shown : Nat} {c c' d d' : Console}

namespace Alike

theorem of_bare (h : Alike drawn shown c d) (hc : c'.bare = c.bare) (hd : d'.bare = d.bare) :
    Alike drawn shown c' d' where
  machine := by rw [machine_of_bare hc, machine_of_bare hd, h.machine]
  timerDivider := by rw [config_of_bare hc, config_of_bare hd, h.timerDivider]
  seed := by rw [config_of_bare hc, config_of_bare hd, h.seed]
  ownsRandom := by rw [ownsRandom_of_bare hc, ownsRandom_of_bare hd, h.ownsRandom]
  frame := by rw [screen_of_bare hc, screen_of_bare hd, h.frame]
  drawCount := by rw [screen_of_bare hc, screen_of_bare hd, h.drawCount]
  draws := by rw [draws_of_bare hc, draws_of_bare hd, h.draws]

theorem withMachine (h : Alike drawn shown c d) (m : Machine) :
    Alike drawn shown { c with machine := m } { d with machine := m } :=
  ⟨rfl, h.timerDivider, h.seed, h.ownsRandom, h.frame, h.drawCount, h.draws⟩

theorem redraw (h : Alike drawn shown c d) : Alike drawn shown c.redraw d.redraw := by
  refine ⟨h.machine, h.timerDivider, h.seed, h.ownsRandom, ?_, ?_, h.draws⟩
  · show c.machine.display.rows = d.machine.display.rows
    rw [h.machine]
  · show c.screen.drawCount + 1 = d.screen.drawCount + 1 + shown
    rw [h.drawCount, Nat.add_right_comm]

/-! ## Steps -/

/-- Both consoles take over the same machine, and show its picture if that was drawn. -/
theorem behind (h : Alike drawn shown c d) (s : Machine.Step) :
    Alike drawn shown (c.behind s) (d.behind s) := by
  unfold Console.behind
  split
  · apply redraw
    refine ⟨rfl, h.timerDivider, h.seed, h.ownsRandom, h.frame, h.drawCount, ?_⟩
    show c.draws + 1 = d.draws + 1 + drawn
    rw [h.draws, Nat.add_right_comm]
  · exact h.withMachine s.next

/-- Alike consoles execute the same instruction, or they fail in the same way. -/
theorem step (h : Alike drawn shown c d) (keys : Keyboard) :
    (∃ c' d' r r', c.step keys = (c', .ok r) ∧ d.step keys = (d', .ok r') ∧
      Alike drawn shown c' d' ∧ r.plain = r'.plain ∧
      (c.config.debug = d.config.debug → r = r')) ∨
    (∃ c' d' e, c.step keys = (c', .error e) ∧ d.step keys = (d', .error e) ∧
      Alike drawn shown c' d') := by
  rcases Machine.executes_or_blocked c.machine c.config.timerDivider keys with
    ⟨s, i, hexec⟩ | ⟨w, halt, hblocked⟩
  · left
    obtain ⟨c', hc, hc'⟩ := step_of_executes hexec
    rw [h.machine, h.timerDivider] at hexec
    obtain ⟨d', hd, hd'⟩ := step_of_executes hexec
    refine ⟨c', d', _, _, hc, hd, (h.behind s).of_bare hc' hd', rfl, ?_⟩
    intro hdebug
    unfold answerOf
    rw [hdebug]
  · right
    obtain ⟨c', hc, hc'⟩ := step_of_blocked hblocked
    rw [h.machine] at hblocked hc
    obtain ⟨d', hd, hd'⟩ := step_of_blocked hblocked
    exact ⟨c', d', _, hc, hd, h.of_bare hc' hd'⟩

theorem steps (keys : Keyboard) : ∀ (n : Nat) {c d : Console}, Alike drawn shown c d →
    Alike drawn shown (c.steps keys n).1 (d.steps keys n).1 ∧
      (c.steps keys n).2 = (d.steps keys n).2 := by
  intro n
  induction n with
  | zero =>
      intro c d h
      exact ⟨h, rfl⟩
  | succ n ih =>
      intro c d h
      rcases h.step keys with ⟨c', d', r, r', hc, hd, hnext, -⟩ | ⟨c', d', e, hc, hd, hnext⟩
      · simp only [Console.steps, hc, hd]
        exact ih hnext
      · simp only [Console.steps, hc, hd]
        exact ⟨hnext, trivial⟩

theorem run (h : Alike drawn shown c d) (keys : Keyboard) (n : Int) :
    Alike drawn shown (c.run keys n).1 (d.run keys n).1 ∧
      (c.run keys n).2 = (d.run keys n).2 := by
  obtain ⟨hnext, hresult⟩ := steps keys n.toNat h
  rw [run_eq, run_eq, hresult]
  exact ⟨hnext, rfl⟩

/-! ## Other operations -/

theorem load (h : Alike drawn shown c d) (program : List UInt8) :
    Alike drawn shown (c.load program).1 (d.load program).1 ∧
      (c.load program).2 = (d.load program).2 := by
  unfold Console.load
  rw [h.machine]
  cases d.machine.load program with
  | error cause => exact ⟨h, rfl⟩
  | ok m => exact ⟨(h.withMachine m).of_bare rfl rfl, rfl⟩

theorem reset (h : Alike drawn shown c d) : Alike drawn shown c.reset d.reset := by
  have hrandom : c.randomAfterReset = d.randomAfterReset := by
    unfold randomAfterReset
    rw [h.ownsRandom, h.seed, h.machine]
  rw [reset_eq, reset_eq, hrandom]
  exact (h.withMachine _).redraw

theorem reseed (h : Alike drawn shown c d) (random : Generator) :
    Alike drawn shown { c with machine := { c.machine with random } }
      { d with machine := { d.machine with random } } := by
  rw [h.machine]
  exact h.withMachine _

end Alike

/-! ## New consoles -/

/-- Whoever observes them, consoles that are made with the same settings and the same random
source are alike. -/
theorem alike_create {config config' : Config} {random : Option Generator}
    {trace trace' : Trace.Dispatcher} (hc : create config random trace = .ok c)
    (hd : create config' random trace' = .ok d)
    (htimer : config.timerDivider = config'.timerDivider) (hseed : config.seed = config'.seed) :
    Alike 0 0 c d := by
  obtain ⟨_, _, rfl⟩ := create_inv hc
  obtain ⟨_, _, rfl⟩ := create_inv hd
  rw [← hseed]
  exact ⟨rfl, htimer, hseed, rfl, rfl, rfl, rfl⟩

/-- A console after a reset is like a new one, except for how often it has drawn. The new one
has the random source that the reset leaves. -/
theorem alike_reset_create {random : Option Generator} {trace : Trace.Dispatcher}
    (howns : c.ownsRandom = random.isNone) (hrandom : ∀ g ∈ random, g = c.machine.random)
    (hd : create c.config random trace = .ok d) :
    Alike c.draws c.screen.drawCount c.reset d := by
  have hsource : c.randomAfterReset = random.getD (randomOf c.config.seed) := by
    unfold randomAfterReset
    rw [howns]
    cases random with
    | none => rfl
    | some g => exact (hrandom g rfl).symm
  obtain ⟨_, _, rfl⟩ := create_inv hd
  rw [reset_eq, hsource]
  -- Whatever the machine at power-on is, both consoles hold it and show its picture.
  generalize Machine.powerOn _ = m
  exact ⟨rfl, rfl, rfl, howns, rfl, Nat.add_comm _ _, (Nat.zero_add _).symm⟩

end Console

end ChipEight
