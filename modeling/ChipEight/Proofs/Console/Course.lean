import ChipEight.Proofs.Console.Step

/-!
# Courses of steps

A course is any number of steps, one after another, each with the keys as they are then. It
is labelled with the reports of the steps that succeeded; steps that failed leave no label,
because they execute nothing. Every loop over steps follows a course, so what a single step
adds to a count is summed up over courses, once for all loops.

## Main results

* `Console.course_steps` — a run follows the course of the instructions that it executes.
* `Console.Course.cycle_eq` — a course counts the steps that succeed.
* `Console.Course.settings` — no course changes a setting.
-/

namespace ChipEight

namespace Console

/-- Steps lead from one console to another; those that succeed have the reports `rs`. -/
inductive Course : Console → List StepReport → Console → Prop
  | refl (c : Console) : Course c [] c
  | ok {c c' d : Console} {keys : Keyboard} {r : StepReport} {rs : List StepReport}
    (hstep : c.step keys = (c', .ok r)) (hrest : Course c' rs d) : Course c (r :: rs) d
  | error {c c' d : Console} {keys : Keyboard} {e : Failure} {rs : List StepReport}
    (hstep : c.step keys = (c', .error e)) (hrest : Course c' rs d) : Course c rs d

/-- The reports of the instructions that `steps` executes. -/
def executed (c : Console) (keys : Keyboard) : Nat → List StepReport
  | 0 => []
  | n + 1 =>
    match c.step keys with
    | (_, .error _) => []
    | (c, .ok r) => r :: executed c keys n

variable {c d : Console} {rs : List StepReport}

/-! ## Runs -/

theorem course_steps (keys : Keyboard) :
    ∀ (n : Nat) (c : Console), Course c (c.executed keys n) (c.steps keys n).1 := by
  intro n
  induction n with
  | zero =>
      intro c
      exact .refl c
  | succ n ih =>
      intro c
      rcases hstep : c.step keys with ⟨c', e | r⟩
      · simp only [executed, steps, hstep]
        exact .error hstep (.refl c')
      · simp only [executed, steps, hstep]
        exact .ok hstep (ih c')

theorem run_eq (c : Console) (keys : Keyboard) (n : Int) :
    c.run keys n =
      ((c.steps keys n.toNat).1, (c.steps keys n.toNat).2.map fun _ => n) := by
  unfold run
  rcases c.steps keys n.toNat with ⟨c', e | _⟩
  · rfl
  · rfl

/-- Steps that all succeed are executed instructions. -/
theorem length_executed (keys : Keyboard) (n : Nat) :
    ∀ {c : Console}, (c.steps keys n).2 = .ok () → (c.executed keys n).length = n := by
  induction n with
  | zero =>
      intro c _
      rfl
  | succ n ih =>
      intro c hok
      rcases hstep : c.step keys with ⟨d, e | r⟩
      · simp only [steps, hstep] at hok
        cases hok
      · simp only [steps, hstep] at hok
        simp only [executed, hstep, List.length_cons, ih hok]

/-! ## Counts -/

/-- Steps that fail are not counted. -/
theorem Course.cycle_eq (h : Course c rs d) :
    d.machine.cycle = c.machine.cycle + rs.length := by
  induction h with
  | refl c => exact (Int.add_zero _).symm
  | ok hstep _ ih =>
      rw [ih, cycle_step hstep, List.length_cons]
      omega
  | error hstep _ ih =>
      obtain ⟨-, -, -, -, hbare⟩ := step_error_inv hstep
      rw [ih, machine_of_bare hbare]

/-! ## Loads -/

/-- A load changes nothing but memory and the log, whether it succeeds or not. -/
theorem load_eq (c : Console) (program : List UInt8) : ∃ memory log,
    (c.load program).1 = { c with machine := { c.machine with memory }, log } := by
  unfold load Machine.load
  cases c.machine.memory.load program with
  | error cause => exact ⟨_, _, rfl⟩
  | ok memory => exact ⟨_, _, rfl⟩

/-! ## Settings -/

theorem settings_step (c : Console) (keys : Keyboard) :
    (c.step keys).1.config = c.config ∧ (c.step keys).1.ownsRandom = c.ownsRandom := by
  rcases hstep : c.step keys with ⟨c', e | r⟩
  · obtain ⟨-, -, -, -, hbare⟩ := step_error_inv hstep
    exact ⟨config_of_bare hbare, ownsRandom_of_bare hbare⟩
  · obtain ⟨-, -, -, hconfig, howns, -⟩ := step_ok_inv hstep
    exact ⟨hconfig, howns⟩

/-- No step changes a setting. -/
theorem Course.settings (h : Course c rs d) :
    d.config = c.config ∧ d.ownsRandom = c.ownsRandom := by
  induction h with
  | refl c => exact ⟨rfl, rfl⟩
  | @ok c c' d keys _ _ hstep _ ih | @error c c' d keys _ _ hstep _ ih =>
      obtain ⟨hconfig, howns⟩ := settings_step c keys
      rw [hstep] at hconfig howns
      exact ⟨ih.1.trans hconfig, ih.2.trans howns⟩

end Console

end ChipEight
