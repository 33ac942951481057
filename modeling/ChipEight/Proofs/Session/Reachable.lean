import ChipEight.Session

/-!
# Reachable sessions

A session is reached from a console at power-on by operations of its user, in any order and
as often as wanted, operations that fail included. `Op` lists the operations, `Session.perform`
does them, and `Reachable` has one rule for all of them.
-/

namespace ChipEight

namespace Session

/-! ## Operations -/

/-- What the user of a session can do. -/
inductive Op
  | load (program : List UInt8)
  /-- Executes one instruction. -/
  | step
  /-- Executes a number of instructions. -/
  | run (n : Int)
  /-- Goes back to power-on. -/
  | reset
  /-- Presses a key of the keypad. -/
  | press (code : Int)
  /-- Releases a key of the keypad. -/
  | release (code : Int)
  /-- Queues events. -/
  | post (events : List InputEvent)
  /-- Drives the console for a number of instructions. -/
  | drive (limit : Int) (options : DriveOptions)
  /-- Drives the console until the user asks to stop or the machine cannot go on. -/
  | driveOn (options : DriveOptions)
  /-- Plugs in a keyboard in place of the keypad, or plugs it out. A keyboard whose answers
  change is plugged in anew with other answers. -/
  | plug (device : Option Keyboard)
  /-- Puts the random source anywhere, where one without a seed is after a reset. -/
  | reseed (random : Generator)

/-- Takes over a change of the keypad, if it was one. -/
def withKeypad (s : Session) : Except Fault.Cause Keypad → Session
  | .ok keypad => { s with keypad }
  | .error _ => s

/-- The session behind an operation, whether that failed or not. A drive that goes on for ever has
nothing behind it, so there the session stands for it that was driven. -/
def perform (s : Session) : Op → Session
  | .load program => s.withConsole (s.console.load program).1
  | .step => s.step.1
  | .run n => (s.run n).1
  | .reset => s.withConsole s.console.reset
  | .press code => s.withKeypad (s.keypad.press code)
  | .release code => s.withKeypad (s.keypad.release code)
  | .post events => s.post events
  | .drive limit options => (s.drive limit options).1
  | .driveOn options => (s.driveOn options).elim s (·.1)
  | .plug device => { s with device }
  | .reseed random =>
    s.withConsole { s.console with machine := { s.console.machine with random } }

/-- The sessions that begin with a console at power-on. The rest of the session is not
restricted. -/
inductive Reachable : Session → Prop
  | start {s : Session} {config : Config} {random : Option Generator}
      {trace : Trace.Dispatcher} (hvalid : config.Valid)
      (hcreate : Console.create config random trace = .ok s.console) : Reachable s
  | perform {s : Session} (o : Op) (h : Reachable s) : Reachable (s.perform o)

/-- A session that has just begun. -/
def fresh : Session where
  console := Console.redraw
    { config := {}
      ownsRandom := false
      machine := .powerOn ⟨Vector.replicate generatorSize 0, 0⟩
      screen := {}
      trace := {}
      history := none
      log := #[] }
  pacing := {}

theorem create_fresh :
    Console.create {} (some ⟨Vector.replicate generatorSize 0, 0⟩) {} = .ok fresh.console := by
  rfl

theorem reachable_fresh : Reachable fresh := by
  apply Reachable.start _ create_fresh
  decide

/-- A session that has just begun, with a seed. -/
def seeded : Session where
  console := Console.redraw
    { config := { seed := some 7 }
      ownsRandom := true
      machine := .powerOn (Console.randomOf (some 7))
      screen := {}
      trace := {}
      history := none
      log := #[] }
  pacing := {}

theorem create_seeded : Console.create { seed := some 7 } none {} = .ok seeded.console := by
  rfl

/-! ## Consoles of sessions -/

theorem console_withKeypad (s : Session) (keypad : Except Fault.Cause Keypad) :
    (s.withKeypad keypad).console = s.console := by
  cases keypad <;> rfl

theorem console_afterStep (s : Session) (o : DriveOptions) (interval : Float) :
    (s.afterStep o interval).console = s.console := by
  unfold afterStep
  split
  · rfl
  · rfl

end Session

end ChipEight
