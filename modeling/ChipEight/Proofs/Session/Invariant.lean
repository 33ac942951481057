import ChipEight.Proofs.Session.Course

/-!
# Invariants of reachable sessions

What every step, every load and a power-on preserve of the machine holds in every reachable
session. A property of machines is followed along courses, and so through runs and drives,
once and for all here.

## Main results

* `Session.Reachable.machine_of_invariant` — an invariant of machines holds of the machine
  of every reachable session.
-/

namespace ChipEight

/-- A property of machines that whatever is done to a machine preserves. -/
structure Machine.Invariant (P : Machine → Prop) : Prop where
  powerOn : ∀ random, P (powerOn random)
  load : ∀ {m m' : Machine} {program}, P m → m.load program = .ok m' → P m'
  step : ∀ {m : Machine} {divider keys s}, P m → m.step divider keys = .ok s → P s.next
  reseed : ∀ {m : Machine} (random), P m → P { m with random }

variable {P : Machine → Prop}

/-! ## Consoles -/

namespace Console

variable {c d : Console} {rs : List StepReport}

theorem machine_load (hP : Machine.Invariant P) (h : P c.machine) (program : List UInt8) :
    P (c.load program).1.machine := by
  unfold load
  cases hload : c.machine.load program with
  | error cause => exact h
  | ok m => exact hP.load h hload

theorem machine_step (hP : Machine.Invariant P) (h : P c.machine) (keys : Keyboard) :
    P (c.step keys).1.machine := by
  rcases hstep : c.step keys with ⟨c', e | r⟩
  · obtain ⟨-, -, -, -, hbare⟩ := step_error_inv hstep
    rw [machine_of_bare hbare]
    exact h
  · obtain ⟨s, i, hexec, -, -, hmachine, -⟩ := step_ok_inv hstep
    rw [hmachine]
    exact hP.step h (Machine.step_of_executes hexec)

theorem Course.machine_of_invariant (hcourse : Course c rs d) (hP : Machine.Invariant P) :
    P c.machine → P d.machine := by
  induction hcourse with
  | refl c =>
      intro h
      exact h
  | @ok c c' d keys _ _ hstep _ ih | @error c c' d keys _ _ hstep _ ih =>
      intro h
      have hnext := machine_step hP h keys
      rw [hstep] at hnext
      exact ih hnext

end Console

/-! ## Sessions -/

namespace Session

/-- One operation. -/
theorem machine_perform (hP : Machine.Invariant P) {s : Session} (h : P s.console.machine)
    (o : Op) : P (s.perform o).console.machine := by
  rcases o.onlySteps_or with honly | ⟨program, rfl⟩ | rfl | ⟨random, rfl⟩
  · obtain ⟨c, hcourse, hbare⟩ := s.course_perform honly
    rw [Console.machine_of_bare hbare]
    exact hcourse.machine_of_invariant hP h
  · exact Console.machine_load hP h program
  · exact hP.powerOn _
  · exact hP.reseed random h

/-- What is preserved holds in every reachable session. -/
theorem Reachable.machine_of_invariant (hP : Machine.Invariant P) {s : Session}
    (h : Reachable s) : P s.console.machine := by
  induction h with
  | start hvalid hcreate =>
      obtain ⟨g, hpower⟩ := Console.machine_create hcreate
      rw [hpower]
      exact hP.powerOn g
  | perform o _ ih => exact machine_perform hP ih o

/-- Every reachable session has the valid configuration that it began with. -/
theorem Reachable.config_valid {s : Session} (h : Reachable s) : s.console.config.Valid := by
  induction h with
  | start hvalid hcreate =>
      rw [(Console.settings_create hcreate).1]
      exact hvalid
  | @perform s o _ ih =>
      rw [(s.settings_perform o).1]
      exact ih

end Session

end ChipEight
