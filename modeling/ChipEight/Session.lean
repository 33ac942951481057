import ChipEight.Console

/-!
# Driving a console

A session steps a console on behalf of a user. Key presses, releases and a request
to quit are queued; before every step the queue is worked off, in order. A caller
may be asked for more events after every step. When a session is paced, it sleeps
after every step; the clock shows the sum of the sleeps. A drive ends when its limit is
reached, when the user asks to stop or when the machine cannot go on; one without a limit may
go on for ever.
-/

namespace ChipEight

/-- What a user does. -/
inductive InputEvent
  /-- A key goes down or up. -/
  | key (code : Int) (isDown : Bool)
  /-- The user wants to stop. -/
  | quit
  deriving DecidableEq, Repr

/-- What a drive did. -/
structure DriveReport where
  /-- Steps that succeeded. -/
  steps : Nat
  /-- How many of them drew. -/
  draws : Nat
  /-- Seconds on the clock. -/
  elapsed : Float
  /-- Whether the user asked to stop. -/
  quit : Bool

/-- A console with keys, a queue of events and a clock. -/
structure Session where
  console : Console
  /-- The keys that events press and release. -/
  keypad : Keypad := .released
  /-- The keyboard that the machine polls in place of the keypad. -/
  device : Option Keyboard := none
  /-- The settings that the pace is taken from. -/
  pacing : Config
  /-- Events that are not worked off yet, the oldest first. -/
  pending : List InputEvent := []
  /-- The clock, in seconds. -/
  clock : Float := 0.0
  /-- How often the session has slept. -/
  sleeps : Nat := 0

namespace Session

/-! ## Events -/

/-- What the machine polls. -/
def keyboard (s : Session) : Keyboard := s.device.getD s.keypad.keyboard

/-- Queues events. -/
def post (s : Session) (events : List InputEvent) : Session :=
  { s with pending := s.pending ++ events }

/-- How the queue was worked off. -/
inductive Drained
  /-- The queue is empty. -/
  | done
  /-- The user wants to stop. -/
  | quit
  /-- An event names no key. -/
  | badKey (cause : Fault.Cause)
  deriving DecidableEq, Repr

/-- Works off events until there are none, the user wants to stop or an event names
no key; in the last two cases the rest stays queued. -/
def drainEvents (keypad : Keypad) : List InputEvent → Keypad × List InputEvent × Drained
  | [] => (keypad, [], .done)
  | .quit :: rest => (keypad, rest, .quit)
  | .key code isDown :: rest =>
    match if isDown then keypad.press code else keypad.release code with
    | .error cause => (keypad, rest, .badKey cause)
    | .ok keypad => drainEvents keypad rest

/-- Works off the queue. -/
def drain (s : Session) : Session × Drained :=
  let (keypad, pending, result) := drainEvents s.keypad s.pending
  ({ s with keypad, pending }, result)

/-! ## Single operations -/

/-- Changes the console. -/
def withConsole (s : Session) (console : Console) : Session := { s with console }

/-- Executes one instruction. -/
def step (s : Session) : Session × Except Failure StepReport :=
  let (console, result) := s.console.step s.keyboard
  (s.withConsole console, result)

/-- Executes a number of instructions. -/
def run (s : Session) (n : Int) : Session × Except Failure Int :=
  let (console, result) := s.console.run s.keyboard n
  (s.withConsole console, result)

/-- Sleeps for some seconds. -/
def sleep (s : Session) (seconds : Float) : Session :=
  { s with clock := s.clock + seconds, sleeps := s.sleeps + 1 }

/-! ## Drives -/

/-- How a drive is to be done. -/
structure DriveOptions where
  /-- Whether to sleep after every step. -/
  realtime : Bool := true
  /-- The events that the caller has after a step. -/
  onStep : Machine → List InputEvent := fun _ => []

/-- Steps and draws so far. -/
structure Tally where
  /-- Steps that succeeded. -/
  steps : Nat := 0
  /-- How many of them drew. -/
  draws : Nat := 0
  deriving DecidableEq, Repr

def Tally.count (t : Tally) (r : StepReport) : Tally where
  steps := t.steps + 1
  draws := if r.redrawn then t.draws + 1 else t.draws

/-- What follows a step: the caller's events, and the sleep. -/
def afterStep (s : Session) (o : DriveOptions) (interval : Float) : Session :=
  let s := s.post (o.onStep s.console.machine)
  if o.realtime then s.sleep interval else s

/-- Executes at most `limit` instructions. Answers with what was done and whether
the user asked to stop, or why the machine could not go on. -/
def cruise (o : DriveOptions) (interval : Float) :
    Nat → Session → Tally → Session × Tally × Except Failure Bool
  | 0, s, t => (s, t, .ok false)
  | limit + 1, s, t =>
    match s.drain with
    | (s, .quit) => (s, t, .ok true)
    | (s, .badKey cause) => (s, t, .error (.fault (.ofCause cause)))
    | (s, .done) =>
      match s.step with
      | (s, .error f) => (s, t, .error f)
      | (s, .ok r) => cruise o interval limit (s.afterStep o interval) (t.count r)

/-- The log entry that ends a drive. -/
def stoppedMessage (t : Tally) (elapsed : Float) : String :=
  "Driver stopped after " ++ toString t.steps ++ " steps (" ++ toString t.draws ++ " draws) in " ++
    Double.fixed 3 elapsed ++ "s"

/-- Drives the console for at most `limit` instructions, none if that is negative. A
drive that started is logged when it ends, however it ends. -/
def drive (s : Session) (limit : Int) (o : DriveOptions) : Session × Except Failure DriveReport :=
  match s.pacing.stepInterval? with
  | none => (s, .error .rateTooLarge)
  | some interval =>
    let start := s.clock
    let (s, t, result) := cruise o interval limit.toNat s {}
    let elapsed := s.clock - start
    let s := s.withConsole (s.console.logged .debug (stoppedMessage t elapsed))
    (s, result.map fun quit => { steps := t.steps, draws := t.draws, elapsed, quit })

/-! ## Drives without a limit -/

/-- Executes instructions as long as the user does not ask to stop and the machine can go on.
There is no answer if that is for ever. -/
def cruiseOn (o : DriveOptions) (interval : Float) (s : Session) (t : Tally) :
    Option (Session × Tally × Except Failure Bool) :=
  match s.drain with
  | (s, .quit) => some (s, t, .ok true)
  | (s, .badKey cause) => some (s, t, .error (.fault (.ofCause cause)))
  | (s, .done) =>
    match s.step with
    | (s, .error f) => some (s, t, .error f)
    | (s, .ok r) => s.afterStep o interval |> (cruiseOn o interval (t := t.count r))
partial_fixpoint

/-- The end of a drive that began when the clock showed `start`: it is logged, and the counts
are the answer. -/
def arrive (start : Float) :
    Session × Tally × Except Failure Bool → Session × Except Failure DriveReport
  | (s, t, result) =>
    let elapsed := s.clock - start
    let s := s.withConsole (s.console.logged .debug (stoppedMessage t elapsed))
    (s, result.map fun quit => { steps := t.steps, draws := t.draws, elapsed, quit })

/-- Drives the console until the user asks to stop or the machine cannot go on. -/
def driveOn (s : Session) (o : DriveOptions) : Option (Session × Except Failure DriveReport) :=
  match s.pacing.stepInterval? with
  | none => some (s, .error .rateTooLarge)
  | some interval => (cruiseOn o interval s {}).map (arrive s.clock)

end Session

end ChipEight
