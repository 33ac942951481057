import ChipEight.Console

/-!
# Consoles at power-on

A console comes to power-on in two ways, newly made or by a reset. Both leave the same machine
up to its random source, and both show a blank picture. Whether a console can be made at all
is decided by its configuration alone.

## Main results

* `Console.observersOf_eq_ok_iff` — who observes a new console.
* `Console.create_inv` — a console that was made, but for its observers.
* `Console.create_again` — whoever observes and whatever the random source is, a configuration
  that makes a console makes one again.
-/

namespace ChipEight

namespace Console

variable {config : Config} {random : Option Generator} {trace : Trace.Dispatcher} {c : Console}

/-! ## Observers -/

/-- Whoever observes already, or else a logger. -/
def speakers (trace : Trace.Dispatcher) : Trace.Dispatcher :=
  if trace.hasObservers then trace
  else (trace.add .logger).2.register (trace.add .logger).1

/-- The history and the observers of a console that is made for those of `trace`. -/
inductive Observes (config : Config) (trace : Trace.Dispatcher) :
    Option Nat → Trace.Dispatcher → Prop
  | quiet (hdebug : config.debug = false) : Observes config trace none trace
  | forgetful (hdebug : config.debug = true) (hnone : config.traceHistory = 0) :
    Observes config trace none (speakers trace)
  | recorded {n : Nat} (hdebug : config.debug = true) (hsome : config.traceHistory ≠ 0)
    (hcapacity : Recent.capacity? config.traceHistory = .ok n) :
    Observes config trace (some ((speakers trace).add (.recorder (.empty (some n)))).1)
      (((speakers trace).add (.recorder (.empty (some n)))).2.register
        ((speakers trace).add (.recorder (.empty (some n)))).1)

theorem observersOf_eq_ok_iff {history : Option Nat} {trace' : Trace.Dispatcher} :
    observersOf config trace = .ok (history, trace') ↔ Observes config trace history trace' := by
  constructor
  · intro h
    unfold observersOf at h
    cases hdebug : config.debug with
    | false =>
        rw [hdebug] at h
        cases h
        exact .quiet hdebug
    | true =>
        simp only [hdebug, Bool.not_true, Bool.false_eq_true, if_false] at h
        by_cases hnone : config.traceHistory = 0
        · rw [if_pos hnone] at h
          cases h
          exact .forgetful hdebug hnone
        · rw [if_neg hnone] at h
          cases hcapacity : Recent.capacity? config.traceHistory with
          | error e =>
              rw [hcapacity] at h
              cases h
          | ok n =>
              rw [hcapacity] at h
              cases h
              exact .recorded hdebug hnone hcapacity
  · intro h
    unfold observersOf
    cases h with
    | quiet hdebug => rw [hdebug]; rfl
    | forgetful hdebug hnone => rw [hdebug, if_pos hnone]; rfl
    | recorded hdebug hsome hcapacity => rw [hdebug, if_neg hsome, hcapacity]; rfl

/-! ## New consoles -/

theorem create_inv (hcreate : create config random trace = .ok c) :
    ∃ trace' history, c = redraw
      { config
        ownsRandom := random.isNone
        machine := .powerOn (random.getD (randomOf config.seed))
        screen := {}
        trace := trace'
        history
        log := #[] } := by
  unfold create at hcreate
  split at hcreate
  · cases hcreate
  · cases hcreate
    exact ⟨_, _, rfl⟩

theorem machine_create (hcreate : create config random trace = .ok c) :
    ∃ g, c.machine = .powerOn g := by
  obtain ⟨_, _, rfl⟩ := create_inv hcreate
  exact ⟨_, rfl⟩

/-- A console is made if its observers can be. -/
theorem observersOf_of_create (hcreate : create config random trace = .ok c) :
    observersOf config trace = .ok (c.history, c.trace) := by
  unfold create at hcreate
  cases hobservers : observersOf config trace with
  | error e =>
      rw [hobservers] at hcreate
      cases hcreate
  | ok x =>
      rw [hobservers] at hcreate
      cases hcreate
      rfl

theorem settings_create (hcreate : create config random trace = .ok c) :
    c.config = config ∧ c.ownsRandom = random.isNone := by
  obtain ⟨_, _, rfl⟩ := create_inv hcreate
  exact ⟨rfl, rfl⟩

theorem observersOf_again {history : Option Nat} {trace' : Trace.Dispatcher}
    (h : observersOf config trace = .ok (history, trace')) (other : Trace.Dispatcher) :
    ∃ y, observersOf config other = .ok y := by
  cases observersOf_eq_ok_iff.mp h with
  | quiet hdebug => exact ⟨_, observersOf_eq_ok_iff.mpr (.quiet hdebug)⟩
  | forgetful hdebug hnone => exact ⟨_, observersOf_eq_ok_iff.mpr (.forgetful hdebug hnone)⟩
  | recorded hdebug hsome hcapacity =>
      exact ⟨_, observersOf_eq_ok_iff.mpr (.recorded hdebug hsome hcapacity)⟩

theorem create_again (hcreate : create config random trace = .ok c)
    (random' : Option Generator) (trace' : Trace.Dispatcher) :
    ∃ d, create config random' trace' = .ok d := by
  obtain ⟨⟨history, trace''⟩, hagain⟩ := observersOf_again (observersOf_of_create hcreate) trace'
  simp only [create, hagain]
  exact ⟨_, rfl⟩

/-! ## Resets -/

/-- Where the random source of a console is after a reset. -/
def randomAfterReset (c : Console) : Generator :=
  if c.ownsRandom then randomOf c.config.seed else c.machine.random

theorem reset_eq (c : Console) :
    c.reset = redraw { c with machine := .powerOn c.randomAfterReset } := rfl

/-- Showing the picture changes nothing but the display. -/
theorem settings_redraw (c : Console) :
    c.redraw.config = c.config ∧ c.redraw.ownsRandom = c.ownsRandom := ⟨rfl, rfl⟩

theorem observers_redraw (c : Console) :
    c.redraw.trace = c.trace ∧ c.redraw.history = c.history := ⟨rfl, rfl⟩

theorem settings_reset (c : Console) :
    c.reset.config = c.config ∧ c.reset.ownsRandom = c.ownsRandom := by
  rw [reset_eq]
  exact settings_redraw { c with machine := .powerOn c.randomAfterReset }

theorem observers_reset (c : Console) :
    c.reset.trace = c.trace ∧ c.reset.history = c.history := by
  rw [reset_eq]
  exact observers_redraw { c with machine := .powerOn c.randomAfterReset }

end Console

end ChipEight
