import ChipEight.Machine

/-!
# Acting on a machine

An instruction acts on the machine in place, one small action after another: it looks
at the machine, changes a part of it, shows the picture, or halts. Nothing is taken
back when an action halts. What was changed before stays changed, and `Progress` is
what is left.
-/

namespace ChipEight

/-- Why an instruction was not executed. -/
inductive Halt
  /-- The machine cannot go on. -/
  | fault (cause : Fault.Cause)
  /-- A timer was read into a register that cannot hold its value. -/
  | notAByte
  deriving DecidableEq, Repr

/-- How an instruction changed the picture. -/
inductive Redraw
  /-- The display was blanked. -/
  | cleared
  /-- A sprite was drawn. -/
  | drawn (collision : Bool)
  deriving DecidableEq, Repr

/-- A machine with an instruction under way. -/
structure Progress where
  /-- The machine, as far as the instruction has changed it. -/
  machine : Machine
  /-- How the picture was changed, if it was shown. -/
  redraw : Option Redraw := none

/-- What an instruction does to a machine. -/
abbrev Action := EStateM Halt Progress

namespace Action

variable {α β : Type}

/-- The machine as it is now. -/
def machine : Action Machine := do return (← get).machine

/-- Changes the machine. -/
def change (f : Machine → Machine) : Action Unit :=
  modify fun p => { p with machine := f p.machine }

/-- Shows the picture. -/
def present (r : Redraw) : Action Unit := modify fun p => { p with redraw := some r }

/-- Gives up. -/
def halt (h : Halt) : Action α := throw h

/-- The answer of a checked access; the instruction is given up if that was refused. -/
def attempt : Except Fault.Cause α → Action α
  | .ok a => return a
  | .error cause => halt (.fault cause)

/-! ## What each action does

The lemmas of this section rewrite a run step by step. None of them holds by unfolding
alone as far as the simplifier can tell, and that is meant: it then keeps the steps, and
no run is ever unfolded as a whole.
-/

@[simp] theorem run_pure (a : α) (p : Progress) : (pure a : Action α).run p = .ok a p := (rfl)

theorem run_bind (x : Action α) (f : α → Action β) (p : Progress) :
    (x >>= f).run p =
      match x.run p with
      | .ok a q => (f a).run q
      | .error h q => .error h q := by
  show EStateM.bind x f p = _
  cases h : x p <;> simp only [EStateM.bind, EStateM.run, h]

@[simp] theorem run_machine (p : Progress) : machine.run p = .ok p.machine p := (rfl)

@[simp] theorem run_change (f : Machine → Machine) (p : Progress) :
    (change f).run p = .ok () { p with machine := f p.machine } := (rfl)

@[simp] theorem run_present (r : Redraw) (p : Progress) :
    (present r).run p = .ok () { p with redraw := some r } := (rfl)

@[simp] theorem run_halt (h : Halt) (p : Progress) : (halt h : Action α).run p = .error h p := (rfl)

@[simp] theorem run_attempt_ok (a : α) (p : Progress) : (attempt (.ok a)).run p = .ok a p := (rfl)

@[simp] theorem run_attempt_error (cause : Fault.Cause) (p : Progress) :
    (attempt (.error cause) : Action α).run p = .error (.fault cause) p := (rfl)

end Action

end ChipEight
