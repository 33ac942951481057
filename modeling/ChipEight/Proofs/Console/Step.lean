import ChipEight.Console
import ChipEight.Proofs.Machine.Step

/-!
# Steps of a console

A console adds observers to a machine. What they are told, and what they write to the log,
has no influence on any step: `Console.bare` is a console without them, and two consoles that
are equal when bare behave alike. Steps of a console are thereby steps of its machine:
one that fails changes nothing else, and one that succeeds leaves what `Console.behind` says.

## Main results

* `Console.step_error_inv` — a step that fails is one at which the machine is blocked, and
  it changes nothing but what observers were told.
* `Console.step_ok_behind` — a step that succeeds executes an instruction of the machine, and
  shows the picture if that instruction drew.
-/

namespace ChipEight

namespace Console

/-! ## Observers -/

/-- The console without its observers and its log. -/
def bare (c : Console) : Console := { c with trace := {}, log := #[] }

section Bare

variable {c d : Console}

theorem config_of_bare (h : c.bare = d.bare) : c.config = d.config :=
  show c.bare.config = d.bare.config by rw [h]

theorem ownsRandom_of_bare (h : c.bare = d.bare) : c.ownsRandom = d.ownsRandom :=
  show c.bare.ownsRandom = d.bare.ownsRandom by rw [h]

theorem machine_of_bare (h : c.bare = d.bare) : c.machine = d.machine :=
  show c.bare.machine = d.bare.machine by rw [h]

theorem screen_of_bare (h : c.bare = d.bare) : c.screen = d.screen :=
  show c.bare.screen = d.bare.screen by rw [h]

theorem draws_of_bare (h : c.bare = d.bare) : c.draws = d.draws :=
  show c.bare.draws = d.bare.draws by rw [h]

end Bare

theorem bare_traceFetch (c : Console) : c.traceFetch.bare = c.bare := by
  unfold traceFetch
  split
  · rfl
  · rfl

theorem bare_traceFault (c : Console) (f : Fault) : (c.traceFault f).bare = c.bare := by
  unfold traceFault
  split
  · rfl
  · rfl

theorem bare_traceDraw (c : Console) (pc : Int) (word : Word) (r : Redraw) :
    (c.traceDraw pc word r).bare = c.bare := by
  unfold traceDraw
  split
  · rfl
  · rfl

/-! ## Steps that fail -/

/-- Giving up before anything was done leaves the console as it was. -/
theorem bare_refuse (c : Console) (pc : Int) (word : Option Word) (h : Halt) :
    (c.refuse pc (Machine.stop pc word { machine := c.machine } h)).bare = c.bare := by
  have htake : c.takeOver pc word { machine := c.machine } = c := by
    unfold takeOver
    cases word with
    | none => rfl
    | some w => rfl
  unfold refuse
  cases h with
  | fault cause =>
      show ((c.takeOver pc word { machine := c.machine }).traceFault _).bare = c.bare
      rw [bare_traceFault, htake]
  | notAByte =>
      show (c.takeOver pc word { machine := c.machine }).bare = c.bare
      rw [htake]

variable {c c' : Console} {keys : Keyboard}

theorem step_eq_refuse {w : Option Word} {h : Halt} (hblocked : c.machine.Blocked keys w h) :
    c.step keys =
      (c.traceFetch.refuse c.machine.pc
        (Machine.stop c.machine.pc w { machine := c.machine } h),
        .error (c.machine.failure c.machine.pc w h)) := by
  have hmachine := machine_of_bare (bare_traceFetch c)
  rw [← hmachine] at hblocked ⊢
  have hstep := Machine.step_of_blocked c.traceFetch.config.timerDivider hblocked
  simp only [step, hstep]
  rfl

/-- A console whose machine is blocked fails to step. -/
theorem step_of_blocked {w : Option Word} {h : Halt} (hblocked : c.machine.Blocked keys w h) :
    ∃ c', c.step keys = (c', .error (c.machine.failure c.machine.pc w h)) ∧ c'.bare = c.bare := by
  have hrefuse := bare_refuse c.traceFetch c.machine.pc w h
  rw [bare_traceFetch, machine_of_bare (bare_traceFetch c)] at hrefuse
  exact ⟨_, step_eq_refuse hblocked, hrefuse⟩

/-! ## Steps that succeed -/

/-- The console behind an executed instruction, but for its observers and its log. -/
def behind (c : Console) (s : Machine.Step) : Console :=
  if s.redraw.isSome then redraw { c with machine := s.next, draws := c.draws + 1 }
  else { c with machine := s.next }

/-- What a console answers that has executed an instruction. -/
def answerOf (c : Console) (s : Machine.Step) : StepReport where
  pc := s.pc
  word := s.word
  nextPc := s.next.pc
  redrawn := s.redraw.isSome
  description := if c.config.debug then some s.word.describe else none

section Behind

variable (c : Console) (s : Machine.Step)

@[simp] theorem config_behind : (c.behind s).config = c.config := by
  unfold behind
  split <;> rfl

@[simp] theorem ownsRandom_behind : (c.behind s).ownsRandom = c.ownsRandom := by
  unfold behind
  split <;> rfl

@[simp] theorem machine_behind : (c.behind s).machine = s.next := by
  unfold behind
  split <;> rfl

theorem draws_behind : (c.behind s).draws = c.draws + s.redraw.isSome.toNat := by
  unfold behind
  cases s.redraw <;> rfl

theorem bare_behind : (c.behind s).bare = c.bare.behind s := by
  unfold behind
  split <;> rfl

theorem bare_accept : (c.accept s).bare = (c.behind s).bare := by
  unfold accept takeOver behind
  cases s.redraw with
  | none => rfl
  | some r => exact bare_traceDraw { c with machine := s.next, draws := c.draws + 1 }.redraw _ _ r

/-- The picture was shown once more iff the instruction drew. -/
theorem reportOf_accept : c.reportOf (c.accept s) s = c.answerOf s := by
  have hmachine : (c.accept s).machine = s.next :=
    (machine_of_bare (bare_accept c s)).trans (machine_behind c s)
  have hdraws : (c.accept s).draws = c.draws + s.redraw.isSome.toNat :=
    (draws_of_bare (bare_accept c s)).trans (draws_behind c s)
  unfold reportOf answerOf
  rw [hmachine, hdraws]
  cases s.redraw <;> simp

end Behind

theorem step_eq_accept {s : Machine.Step} {i : Instruction}
    (hexec : c.machine.Executes c.config.timerDivider keys s i) :
    c.step keys = (c.traceFetch.accept s, .ok (c.answerOf s)) := by
  have hfetch := bare_traceFetch c
  have hanswer : c.traceFetch.answerOf s = c.answerOf s := by
    unfold answerOf
    rw [config_of_bare hfetch]
  rw [← machine_of_bare hfetch, ← config_of_bare hfetch] at hexec
  have hstep := Machine.step_of_executes hexec
  simp only [step, hstep, reportOf_accept, hanswer]

/-- A console whose machine executes an instruction steps. -/
theorem step_of_executes {s : Machine.Step} {i : Instruction}
    (hexec : c.machine.Executes c.config.timerDivider keys s i) :
    ∃ c', c.step keys = (c', .ok (c.answerOf s)) ∧ c'.bare = (c.behind s).bare := by
  refine ⟨_, step_eq_accept hexec, ?_⟩
  rw [bare_accept, bare_behind, bare_traceFetch, bare_behind]

/-! ## What a step was -/

/-- A step that fails: the machine is blocked, and stays as it was. -/
theorem step_error_inv {e : Failure} (hstep : c.step keys = (c', .error e)) :
    ∃ w h, c.machine.Blocked keys w h ∧ e = c.machine.failure c.machine.pc w h ∧
      c'.bare = c.bare := by
  rcases Machine.executes_or_blocked c.machine c.config.timerDivider keys with
    ⟨s, i, hexec⟩ | ⟨w, h, hblocked⟩
  · obtain ⟨d, hok, -⟩ := step_of_executes hexec
    rw [hok] at hstep
    cases hstep
  · obtain ⟨d, herr, hbare⟩ := step_of_blocked hblocked
    rw [herr] at hstep
    cases hstep
    exact ⟨w, h, hblocked, rfl, hbare⟩

/-- A step that succeeds: the machine executes an instruction, and everything but observers
and log is as `behind` says. -/
theorem step_ok_behind {r : StepReport} (hstep : c.step keys = (c', .ok r)) :
    ∃ s i, c.machine.Executes c.config.timerDivider keys s i ∧ r = c.answerOf s ∧
      c'.bare = (c.behind s).bare := by
  rcases Machine.executes_or_blocked c.machine c.config.timerDivider keys with
    ⟨s, i, hexec⟩ | ⟨w, h, hblocked⟩
  · obtain ⟨d, hok, hbare⟩ := step_of_executes hexec
    rw [hok] at hstep
    cases hstep
    exact ⟨s, i, hexec, rfl, hbare⟩
  · obtain ⟨d, herr, -⟩ := step_of_blocked hblocked
    rw [herr] at hstep
    cases hstep

/-- A step that succeeds, as far as settings and machine are concerned. -/
theorem step_ok_inv {r : StepReport} (hstep : c.step keys = (c', .ok r)) :
    ∃ s i, c.machine.Executes c.config.timerDivider keys s i ∧ c'.config = c.config ∧
      c'.ownsRandom = c.ownsRandom ∧ c'.machine = s.next ∧ r.pc = c.machine.pc ∧
      r.word = s.word ∧ r.nextPc = s.next.pc := by
  obtain ⟨s, i, hexec, rfl, hbare⟩ := step_ok_behind hstep
  refine ⟨s, i, hexec, ?_, ?_, ?_, hexec.pc, rfl, rfl⟩
  · rw [config_of_bare hbare, config_behind]
  · rw [ownsRandom_of_bare hbare, ownsRandom_behind]
  · rw [machine_of_bare hbare, machine_behind]

theorem step_eq_of_toOption {r : StepReport} (h : (c.step keys).2.toOption = some r) :
    c.step keys = ((c.step keys).1, .ok r) := by
  rcases hstep : c.step keys with ⟨c', e | r'⟩
  · rw [hstep] at h
    cases h
  · rw [hstep] at h
    cases h
    rfl

/-- Every step that succeeds is counted. -/
theorem cycle_step {r : StepReport} (hstep : c.step keys = (c', .ok r)) :
    c'.machine.cycle = c.machine.cycle + 1 := by
  obtain ⟨s, i, hexec, -, -, hmachine, -⟩ := step_ok_inv hstep
  rw [hmachine, hexec.cycle_next]

/-- No key is held. -/
def noKeys : Keyboard := Keypad.released.keyboard

end Console

end ChipEight
