import ChipEight.Proofs.Console.CallStack
import ChipEight.Proofs.Machine.Timers
import ChipEight.Proofs.Session.WellFormed

/-!
# How far the timers have run

A timer runs once in `divider` instructions, counted from power-on, and stops at zero. As long
as no instruction sets it, its value is therefore known from the count of instructions alone:
which ones they were, and how often a step failed in between, makes no difference. The proof
sums up the steps of a course; a decrement that stops at zero adds up because what was stopped
once stays at zero.

## Main results

* `Console.Course.timer_eq` — a timer at the end of a course that does not set it.
* `Session.reachable_timer_eq` — timers of reachable sessions, when set, running and read.
-/

namespace ChipEight

namespace Console

variable {c c' d : Console} {keys : Keyboard} {r : StepReport} {rs : List StepReport}

/-! ## Steps -/

/-- A timer behind a step. It is set before it runs. -/
theorem timer_step (hstep : c.step keys = (c', .ok r)) (t : Timer) :
    c'.machine.timer t =
      if c.machine.cycle % c.config.timerDivider = 0 then
        Machine.lessOne (c.machine.timerSet r.word t)
      else c.machine.timerSet r.word t := by
  obtain ⟨s, i, hexec, -, -, hmachine, -, hword, -⟩ := step_ok_inv hstep
  rw [hmachine, hword, hexec.timer_next]

/-- A timer that a step does not set runs if the step reaches a multiple of the divider. -/
theorem timer_step_of_not_sets (hstep : c.step keys = (c', .ok r)) {t : Timer}
    (hdivider : 0 < c.config.timerDivider) (htimer : 0 ≤ c.machine.timer t)
    (hkept : ¬r.word.Sets t) :
    c'.machine.timer t = max 0 (c.machine.timer t -
      (divUp c'.machine.cycle c.config.timerDivider -
        divUp c.machine.cycle c.config.timerDivider)) := by
  have hset : c.machine.timerSet r.word t = c.machine.timer t := if_neg hkept
  rw [timer_step hstep, hset, cycle_step hstep, divUp_succ hdivider]
  split
  · unfold Machine.lessOne
    congr 1
    omega
  · omega

/-! ## Courses -/

/-- A timer that is not set has run as often as multiples of the divider were passed. -/
theorem Course.timer_eq (h : Course c rs d) (t : Timer) :
    0 < c.config.timerDivider → 0 ≤ c.machine.timer t → (∀ r ∈ rs, ¬r.word.Sets t) →
      d.machine.timer t = max 0 (c.machine.timer t -
        (divUp d.machine.cycle c.config.timerDivider -
          divUp c.machine.cycle c.config.timerDivider)) := by
  induction h with
  | refl c =>
      intro _ htimer _
      omega
  | @ok c c' d keys r rs hstep hcourse ih =>
      intro hdivider htimer hquiet
      have hconfig : c'.config = c.config := by
        have hsettings := (settings_step c keys).1
        rwa [hstep] at hsettings
      have hnext := timer_step_of_not_sets hstep hdivider htimer (hquiet r List.mem_cons_self)
      have hlow : 0 ≤ c'.machine.timer t := by
        rw [hnext]
        exact Int.le_max_left _ _
      have hrest := ih (hconfig ▸ hdivider) hlow
        fun r' hr' => hquiet r' (List.mem_cons_of_mem r hr')
      have hlater : c'.machine.cycle ≤ d.machine.cycle := by
        rw [hcourse.cycle_eq]
        omega
      have hmono := divUp_mono hdivider hlater
      rw [hrest, hnext, hconfig]
      omega
  | @error c c' d keys _ rs hstep _ ih =>
      intro hdivider htimer hquiet
      obtain ⟨-, -, -, -, hbare⟩ := step_error_inv hstep
      rw [config_of_bare hbare, machine_of_bare hbare] at ih
      exact ih hdivider htimer hquiet

end Console

namespace Session

theorem timer_nonneg {m : Machine} {limit : Int} (h : m.WellFormed limit) (t : Timer) :
    0 ≤ m.timer t := by
  cases t with
  | delay => exact h.delayTimer.1
  | sound => exact h.soundTimer.1

/-- Let `c` be the count of instructions and `d` the divider of a reachable session. After `k`
more instructions the count is `c + k`, and a timer that none of them has set is down by
`⌈(c + k) / d⌉ - ⌈c / d⌉`, or at zero. Steps that fail do not count. An instruction that sets a
timer leaves the value of its register, less one if `d` divides `c`; and the delay timer is read
as it was before the step. -/
theorem reachable_timer_eq {s : Session} (h : Reachable s) (t : Timer) :
    let m := s.console.machine
    let d := s.console.config.timerDivider
    (∀ rs c, Console.Course s.console rs c →
      c.machine.cycle = m.cycle + rs.length ∧
      ((∀ r ∈ rs, ¬r.word.Sets t) →
        c.machine.timer t =
          max 0 (m.timer t - (divUp (m.cycle + rs.length) d - divUp m.cycle d)))) ∧
    (∀ keys c r, s.console.step keys = (c, .ok r) → r.word.Sets t →
      c.machine.timer t =
        if d ∣ m.cycle then max 0 (((m.reg r.word.x).toNat : Int) - 1)
        else ((m.reg r.word.x).toNat : Int)) ∧
    (∀ keys c r, s.console.step keys = (c, .ok r) → r.word.family.val = 0xF →
      r.word.byte = 0x07 → (c.machine.reg r.word.x).toNat = m.delayTimer) := by
  intro m d
  have hwell : m.WellFormed Machine.pcLimit := h.machine_of_invariant Machine.invariant_wellFormed
  have hdivider : 0 < d := h.config_valid.1
  refine ⟨?_, ?_, ?_⟩
  · intro rs c hcourse
    refine ⟨hcourse.cycle_eq, ?_⟩
    rw [← hcourse.cycle_eq]
    exact hcourse.timer_eq t hdivider (timer_nonneg hwell t)
  · intro keys c r hstep hsets
    have hset : m.timerSet r.word t = (m.reg r.word.x).toNat := if_pos hsets
    rw [Console.timer_step hstep]
    simp only [Int.dvd_iff_emod_eq_zero]
    show (if m.cycle % d = 0 then Machine.lessOne (m.timerSet r.word t) else _) = _
    rw [hset]
    rfl
  · intro keys c r hstep hfamily hbyte
    obtain ⟨u, i, hexec, -, -, hmachine, -, hword, -⟩ := Console.step_ok_inv hstep
    rw [hword] at hfamily hbyte ⊢
    rw [hmachine]
    exact hexec.reg_of_getDelay hfamily hbyte

/-- A program that sets the delay timer to twenty and then waits for a key. -/
def waiting : List UInt8 := [0x60, 0x14, 0xF0, 0x15, 0xF0, 0x0A]

/-- The session that has set the timer. -/
def timed : Session := (fresh.perform (.load waiting)).perform (.run 2)

/-- The program polls fifteen times, past the cycles eight and sixteen. -/
theorem timed_timer_eq :
    timed.console.machine.timer .delay = 20 ∧
      (timed.console.steps Console.noKeys 15).1.machine.timer .delay = 18 ∧
      (timed.console.steps Console.noKeys 15).1.machine.cycle = 17 := by
  have hrun : timed.console.machine.timer .delay = 20 ∧ timed.console.machine.cycle = 2 ∧
      timed.console.config.timerDivider = 8 ∧
      (timed.console.executed Console.noKeys 15).length = 15 ∧
      ∀ r ∈ timed.console.executed Console.noKeys 15, ¬r.word.Sets .delay := by
    decide +kernel
  obtain ⟨htimer, hcycle, hdivider, hlength, hquiet⟩ := hrun
  have hreachable : Reachable timed := (reachable_fresh.perform _).perform _
  obtain ⟨hcourses, -, -⟩ := reachable_timer_eq hreachable .delay
  obtain ⟨hcount, hvalue⟩ := hcourses _ _ (Console.course_steps Console.noKeys 15 timed.console)
  rw [hlength] at hcount hvalue
  have hend := hvalue hquiet
  rw [htimer, hcycle, hdivider] at hend
  rw [hcycle] at hcount
  exact ⟨htimer, hend, hcount⟩

end Session

end ChipEight
