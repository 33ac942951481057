import ChipEight.Proofs.Console.Inputs
import ChipEight.Proofs.Machine.Route

/-!
# The addresses that a session visits

Every step of a reachable session goes the way of its word, and what is reported of it agrees
with the machine. So the addresses of the instructions that are executed one after another are
those of a route, however many steps fail in between; the stack needs to be read at the
beginning only.

## Main results

* `Session.reachable_route` — where a step leads, and the addresses of a run.
-/

namespace ChipEight

namespace Console

/-- The reports of the steps that succeed among attempts with the given keys, each with the way
that it goes, and the console at the end. -/
def tour (c : Console) : List Keyboard → List (StepReport × Way) × Console
  | [] => ([], c)
  | keys :: rest =>
    match c.step keys with
    | (d, .error _) => d.tour rest
    | (d, .ok r) => ((r, c.machine.way keys r.word) :: (d.tour rest).1, (d.tour rest).2)

variable {c c' : Console} {keys : Keyboard} {r : StepReport}

/-- A step goes the way of its word. -/
theorem pc_step (hstep : c.step keys = (c', .ok r)) :
    c'.machine.pc = (c.machine.way keys r.word).next c.machine.pc c.machine.calls := by
  obtain ⟨s, i, hexec, -, -, hmachine, -, hword, -⟩ := step_ok_inv hstep
  rw [hmachine, hword]
  exact hexec.pc_next

theorem calls_step (hwell : c.machine.WellFormed Machine.pcLimit)
    (hstep : c.step keys = (c', .ok r)) :
    c'.machine.calls =
      (c.machine.way keys r.word).callsBehind c.machine.pc c.machine.calls := by
  obtain ⟨s, i, hexec, -, -, hmachine, -, hword, -⟩ := step_ok_inv hstep
  rw [hmachine, hword]
  exact hexec.calls_next hwell

/-- The addresses of a tour are those of the route that its ways make up. -/
theorem tour_route (attempts : List Keyboard) :
    ∀ {c : Console}, c.machine.WellFormed Machine.pcLimit →
      (c.tour attempts).1.map (·.1.pc) ++ [(c.tour attempts).2.machine.pc] =
        Way.route c.machine.pc c.machine.calls ((c.tour attempts).1.map (·.2)) := by
  induction attempts with
  | nil =>
      intro c _
      rfl
  | cons keys rest ih =>
      intro c hwell
      rcases hstep : c.step keys with ⟨d, e | r⟩
      · -- A step that fails is no part of the tour, and the next one begins at the same place.
        obtain ⟨-, -, -, -, hbare⟩ := step_error_inv hstep
        have hmachine := machine_of_bare hbare
        have hrest := ih (c := d) (hmachine ▸ hwell)
        simp only [tour, hstep]
        rw [hrest, hmachine]
      · obtain ⟨-, -, -, -, -, -, hpc, -, -⟩ := step_ok_inv hstep
        have hnext := machine_step Machine.invariant_wellFormed hwell keys
        rw [hstep] at hnext
        have hrest := ih (c := d) hnext
        simp only [tour, hstep, List.map_cons, List.cons_append, Way.route]
        rw [hrest, hpc, pc_step hstep, calls_step hwell hstep]

end Console

namespace Session

/-- A step of a reachable session that succeeds reports the address where it was, the word
there, and the address where the machine is then. That is where the way of the word leads; a
return has a call to go back to. And over any attempts at steps, each with other keys held, the
addresses of the instructions that are executed are those of the route from here. -/
theorem reachable_route {s : Session} (h : Reachable s) :
    let m := s.console.machine
    (∀ keys c r, s.console.step keys = (c, .ok r) →
      r.pc = m.pc ∧ m.fetch = .ok r.word ∧ r.nextPc = c.machine.pc ∧
      r.nextPc = (m.way keys r.word).next m.pc m.calls ∧
      (r.word = 0x00EE → m.calls ≠ [])) ∧
    ∀ attempts : List Keyboard,
      (s.console.tour attempts).1.map (·.1.pc) ++ [(s.console.tour attempts).2.machine.pc] =
        Way.route m.pc m.calls ((s.console.tour attempts).1.map (·.2)) := by
  intro m
  have hwell : m.WellFormed Machine.pcLimit := h.machine_of_invariant Machine.invariant_wellFormed
  constructor
  · intro keys c r hstep
    have hpc := Console.pc_step hstep
    obtain ⟨u, i, hexec, -, -, hmachine, hat, hword, hnext⟩ := Console.step_ok_inv hstep
    have hbehind : r.nextPc = c.machine.pc := by
      rw [hnext, hmachine]
    refine ⟨hat, ?_, hbehind, hbehind.trans hpc, ?_⟩
    · rw [hword]
      exact hexec.fetched
    · intro hret hnone
      obtain ⟨p, hcalls, -⟩ := hexec.calls_of_ret (hword.symm.trans hret)
      have hnone' : u.next.calls ++ [p] = [] := hcalls.symm.trans hnone
      simp at hnone'
  · intro attempts
    exact Console.tour_route attempts hwell

/-- A program that calls a routine, which waits for a key, and then circles. -/
def visiting : List UInt8 := [0x22, 0x06, 0x12, 0x02, 0x00, 0x00, 0xF0, 0x0A, 0x00, 0xEE]

/-- The session that is about to run it. -/
def visitor : Session := fresh.perform (.load visiting)

/-- The keys at five attempts. -/
def attempted : List Keyboard :=
  [Console.noKeys, Console.noKeys, Console.allKeys, Console.noKeys, Console.noKeys]

/-- The program polls once in vain. -/
theorem visitor_route :
    (visitor.console.tour attempted).1.map (·.1.pc) ++
        [(visitor.console.tour attempted).2.machine.pc] =
      [0x200, 0x206, 0x206, 0x208, 0x202, 0x202] := by
  have hbegin : visitor.console.machine.pc = 0x200 ∧ visitor.console.machine.calls = [] ∧
      (visitor.console.tour attempted).1.map (·.2) =
        [.call 0x206, .stay, .on, .back, .jump 0x202] := by
    decide +kernel
  obtain ⟨hpc, hcalls, hways⟩ := hbegin
  have hreachable : Reachable visitor := reachable_fresh.perform _
  obtain ⟨-, hroute⟩ := reachable_route hreachable
  rw [hroute attempted, hpc, hcalls, hways]
  rfl

end Session

end ChipEight
