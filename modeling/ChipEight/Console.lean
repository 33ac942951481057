import ChipEight.Config
import ChipEight.FrameBuffer
import ChipEight.Instruction.Mnemonic
import ChipEight.Machine.Step
import ChipEight.Snapshot.Dump
import ChipEight.Trace.Dispatcher

/-!
# Consoles

A console is a machine with a configuration, a display that it keeps up to date,
and a trace. Every change of the picture is shown on the display, also one that
changes no pixel. If the configuration asks for it, instructions and draws are
traced; faults are traced whenever anyone observes.

Operations answer with the console behind them and with their result or the
reason for their failure, since a failing step may still be traced.
-/

namespace ChipEight

/-- A machine with its configuration, display, trace and log. -/
structure Console where
  /-- The settings. -/
  config : Config
  /-- Whether a reset restarts the random source. -/
  ownsRandom : Bool
  machine : Machine
  /-- The display. -/
  screen : FrameBuffer
  /-- How often an instruction has shown the picture. -/
  draws : Nat := 0
  /-- Who observes the machine. -/
  trace : Trace.Dispatcher
  /-- The observer that remembers the latest events, if there is one. -/
  history : Option Nat
  /-- What was logged, the oldest entry first. -/
  log : Array LogEntry

/-- The outcome of a step. -/
structure StepReport where
  /-- Where the instruction was. -/
  pc : Int
  word : Word
  /-- The program counter behind it. -/
  nextPc : Int
  /-- Whether it drew. -/
  redrawn : Bool
  /-- The instruction in words, if it was traced. -/
  description : Option String
  deriving DecidableEq, Repr

namespace Console

/-! ## Power-on -/

/-- The random source of a seed. Without a seed any source is as good as another. -/
def randomOf (seed : Option Int) : Generator := Generator.ofSeed (seed.getD 0)

/-- The observers of a console that traces: whoever observes already, or else a
logger; and a recorder, if events are to be remembered. -/
def observersOf (config : Config) (trace : Trace.Dispatcher) :
    Except Recent.CapacityError (Option Nat × Trace.Dispatcher) :=
  if !config.debug then .ok (none, trace)
  else
    let trace :=
      if trace.hasObservers then trace
      else
        let (id, trace) := trace.add .logger
        trace.register id
    if config.traceHistory = 0 then .ok (none, trace)
    else
      match Recent.capacity? config.traceHistory with
      | .error e => .error e
      | .ok n =>
        let (id, trace) := trace.add (.recorder (.empty (some n)))
        .ok (some id, trace.register id)

/-- Shows the picture of the machine. -/
def redraw (c : Console) : Console := { c with screen := c.screen.draw c.machine.display.rows }

/-- A console at power-on. A random source given here is the caller's and is never
restarted. -/
def create (config : Config) (random : Option Generator) (trace : Trace.Dispatcher) :
    Except Failure Console :=
  match observersOf config trace with
  | .error e => .error (.badCapacity e)
  | .ok (history, trace) =>
    .ok (redraw
      { config
        ownsRandom := random.isNone
        machine := .powerOn (random.getD (randomOf config.seed))
        screen := {}
        trace
        history
        log := #[] })

/-- Back to power-on; a loaded program is lost. -/
def reset (c : Console) : Console :=
  let random := if c.ownsRandom then randomOf c.config.seed else c.machine.random
  redraw { c with machine := .powerOn random }

/-! ## Log and trace -/

/-- Adds a log entry. -/
def logged (c : Console) (level : LogLevel) (message : String) : Console :=
  { c with log := c.log.push ⟨level, message⟩ }

/-- Hands an event to the observers. -/
def emit (c : Console) (e : Trace.Event) : Console :=
  let (trace, entries) := c.trace.emit e
  { c with trace, log := c.log ++ entries }

/-- Traces the instruction that is about to be executed. -/
def traceFetch (c : Console) : Console :=
  match c.config.debug, c.machine.fetch with
  | true, .ok w => c.emit (.instruction c.machine.pc w.toNat w.describe)
  | _, _ => c

/-- What a draw tells its observers about a collision. -/
def collisionOf : Redraw → Option Bool
  | .cleared => none
  | .drawn collision => some collision

/-- Traces a draw. -/
def traceDraw (c : Console) (pc : Int) (word : Word) (r : Redraw) : Console :=
  if c.config.debug then c.emit (.draw pc word.toNat (collisionOf r)) else c

/-- Traces a fault. -/
def traceFault (c : Console) (f : Fault) : Console :=
  match c.trace.hasObservers, f.pc, f.snapshot with
  | true, some pc, some state =>
    c.emit (.fault pc f.opcode f.text (state.dump c.config.dumpMemoryOnFault))
  | _, _, _ => c

/-! ## Execution -/

def load (c : Console) (program : List UInt8) : Console × Except Failure Unit :=
  match c.machine.load program with
  | .error cause => (c, .error (.fault (.ofCause cause)))
  | .ok machine =>
    ({ c with machine }.logged .debug
      ("Loaded " ++ toString program.length ++ " byte program at 0x" ++
        Text.Hex.upper 3 programStart), .ok ())

/-- Shows the picture on behalf of the instruction `word` at `pc`. -/
def showDraw (c : Console) (pc : Int) (word : Word) (r : Redraw) : Console :=
  { c with draws := c.draws + 1 }.redraw.traceDraw pc word r

/-- Takes over what the instruction `word` at `pc` has done: the machine, and the picture
if it was shown. -/
def takeOver (c : Console) (pc : Int) (word : Option Word) (p : Progress) : Console :=
  let c := { c with machine := p.machine }
  match word, p.redraw with
  | some w, some r => c.showDraw pc w r
  | _, _ => c

/-- Takes over an executed instruction. -/
def accept (c : Console) (s : Machine.Step) : Console :=
  c.takeOver s.pc (some s.word) { machine := s.next, redraw := s.redraw }

/-- Takes over what an instruction at `pc` has done that was given up, and traces the
fault. -/
def refuse (c : Console) (pc : Int) (s : Machine.Stop) : Console :=
  let c := c.takeOver pc s.word s.left
  match s.failure with
  | .fault f => c.traceFault f
  | _ => c

/-- The outcome of an executed instruction, which found the console `c` and left it as
`after`. -/
def reportOf (c after : Console) (s : Machine.Step) : StepReport where
  pc := s.pc
  word := s.word
  nextPc := after.machine.pc
  redrawn := after.draws != c.draws
  description := if c.config.debug then some s.word.describe else none

/-- Executes one instruction. -/
def step (c : Console) (keys : Keyboard) : Console × Except Failure StepReport :=
  let c := c.traceFetch
  match c.machine.step c.config.timerDivider keys with
  | .error s => (c.refuse c.machine.pc s, .error s.failure)
  | .ok s => (c.accept s, .ok (c.reportOf (c.accept s) s))

/-- Executes `n` instructions, or as many as succeed. -/
def steps (c : Console) (keys : Keyboard) : Nat → Console × Except Failure Unit
  | 0 => (c, .ok ())
  | n + 1 =>
    match c.step keys with
    | (c, .error f) => (c, .error f)
    | (c, .ok _) => steps c keys n

/-- Executes a number of instructions and answers with that number; there are none
to execute if it is negative. -/
def run (c : Console) (keys : Keyboard) (n : Int) : Console × Except Failure Int :=
  match c.steps keys n.toNat with
  | (c, .error f) => (c, .error f)
  | (c, .ok ()) => (c, .ok n)

/-! ## Views -/

/-- The events that the console remembers, if it remembers any. -/
def historyEvents (c : Console) : Option (List Trace.Event) := c.history.map c.trace.eventsOf

end Console

end ChipEight
