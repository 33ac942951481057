import ChipEight.CommandLine.Report
import ChipEight.CommandLine.Request
import ChipEight.Listing
import ChipEight.Session

/-!
# The command line

A run executes a program or lists it. It is a function: it is handed its surroundings
together with its command line, and it hands back a report of what it did.

The program has to be there before anything else is looked at. The settings come from
a configuration file, the environment and the command line, and each of these takes
precedence over those before it.
-/

namespace ChipEight.CommandLine

/-! ## Settings -/

/-- The settings of a file, or the default ones. -/
def fileSettings (s : Surroundings) : Option Path → Except RunError Settings
  | none => .ok ({} : Config).settings
  | some p =>
    match s.read p with
    | .error e => .error (.file e)
    | .ok content =>
      match String.fromUTF8? ⟨content.toArray⟩ with
      | none => .error .notText
      | some text =>
        match Settings.ofFileText text with
        | .error e => .error (.config e)
        | .ok t => .ok t

/-- The settings of a run. A seed that was left open on the command line changes nothing here; it
is missed when a machine is set up. -/
def settingsOf (s : Surroundings) (o : Options) : Except RunError Settings :=
  match fileSettings s o.config with
  | .error e => .error e
  | .ok base =>
    match base.withEnvironment s.copying s.environment with
    | .error e => .error (.config (.settings e))
    | .ok under =>
      match under.choose s.copying o.debug o.seed.join with
      | .error e => .error (.config (.settings e))
      | .ok t => .ok t

/-- The configuration of a machine with given settings. -/
def machineConfig (t : Settings) : Except RunError Config :=
  match t.config? with
  | none => .error .otherTypes
  | some c => .ok c

/-- The configuration of the machine of a run. -/
def configOf (s : Surroundings) (o : Options) : Except RunError Config :=
  match settingsOf s o with
  | .error e => .error e
  | .ok t => machineConfig t

/-! ## Execution -/

/-- A machine after its program was executed. -/
structure Played where
  /-- The machine with its picture and its log. -/
  console : Console
  /-- Seconds that were slept. -/
  slept : Float := 0.0
  /-- The status of the run: zero iff all instructions succeeded. -/
  status : Nat

/-- Reports a fault. Whoever observes the machine has got the dump already. -/
def panic (c : Console) (f : Fault) : Console :=
  let c := c.logged .error ("panic: " ++ f.text)
  match f.snapshot, c.trace.hasObservers with
  | some state, false => c.logged .error (state.dump c.config.dumpMemoryOnFault)
  | _, _ => c

/-- The log entry that ends an execution without fault. -/
def executedMessage (r : DriveReport) : String :=
  "Executed " ++ toString r.steps ++ " instructions, " ++ toString r.draws ++ " redraws"

/-- The random source of a machine that was not given a seed. -/
def sourceOf (s : Surroundings) (c : Config) : Option Generator :=
  if c.seed.isSome then none else some (Generator.ofSeed s.entropy)

/-- A machine at power-on. -/
def powerOn (s : Surroundings) (c : Config) (o : Options) : Except RunError Console :=
  if o.seed = some none then .error .integerMissing
  else match Console.create c (sourceOf s c) {} with
    | .error f => .error (.machine f)
    | .ok console => .ok console

/-- Drives a machine with a loaded program. -/
def drive (console : Console) (steps : Int) (realtime : Bool) : Except RunError Played :=
  let session : Session := { console, pacing := console.config }
  match session.drive steps { realtime } with
  | (s, .ok r) =>
    .ok { console := s.console.logged .info (executedMessage r), slept := s.clock, status := 0 }
  | (s, .error (.fault f)) => .ok { console := panic s.console f, slept := s.clock, status := 1 }
  | (_, .error f) => .error (.machine f)

/-- Loads a program into a machine and executes it. -/
def play (console : Console) (program : List UInt8) (o : Options) : Except RunError Played :=
  match console.load program with
  | (c, .error (.fault f)) => .ok { console := panic c f, status := 1 }
  | (_, .error f) => .error (.machine f)
  | (c, .ok ()) =>
    match o.steps, c.config.stepInterval? with
    | some steps, _ => drive c steps o.realtime
    | none, some _ => .error .integerMissing
    | none, none => .error (.machine .rateTooLarge)

/-! ## Results -/

/-- The log entries that are shown: all of them if the machine is traced, and otherwise
those that matter. -/
def shown (c : Config) (log : List LogEntry) : List LogEntry :=
  log.filter fun e => c.debug || e.level != .debug

/-- The text of the final picture, if it was asked for. -/
def asciiText (c : Console) (o : Options) : Except PictureError String :=
  if o.ascii then (c.screen.text litText darkText).map (· ++ "\n") else .ok ""

/-- The image of the final picture, as it is saved at a path. -/
def imageFor (s : Surroundings) (c : Console) (o : Options) (p : Path) : Except RunError Image :=
  match o.zoom with
  | none => .error .integerMissing
  | some zoom =>
    match (({ buffer := c.screen, zoom } : Renderer).save s.imaging s.toFiles p).1 with
    | .error e => .error (.saving e)
    | .ok (_, image) => .ok image

/-- The log entry that follows a saved picture. -/
def savedMessage (p : Path) : String := "Saved frame to " ++ p.text

/-- Saves the final picture of an execution, if that was asked for. `printed` is what
has been printed so far. -/
def savePicture (s : Surroundings) (o : Options) (r : Played) (printed : String) : Report :=
  let report (c : Console) (saved : Option (Path × Image)) (ending : Ending) : Report :=
    { printed, log := shown c.config c.log.toList, saved, slept := r.slept, ending }
  match o.savePng with
  | none => report r.console none (.status r.status)
  | some p =>
    match imageFor s r.console o p with
    | .error e => report r.console none (.broken e)
    | .ok image =>
      report (r.console.logged .info (savedMessage p)) (some (p, image)) (.status r.status)

/-- Prints and saves the final picture of an execution, as far as that was asked for. -/
def conclude (s : Surroundings) (o : Options) (r : Played) : Report :=
  match asciiText r.console o with
  | .error e =>
    { log := shown r.console.config r.console.log.toList, ending := .broken (.picture e) }
  | .ok printed => savePicture s o r printed

/-! ## Runs -/

def listingText (program : List UInt8) : String :=
  String.join ((Listing.ofBytes programStart program).map (·.text ++ "\n"))

def execute (s : Surroundings) (c : Config) (program : List UInt8) (o : Options) : Report :=
  match powerOn s c o with
  | .error e => { ending := .broken e }
  | .ok console =>
    match play console program o with
    | .error e => { ending := .broken e }
    | .ok r => conclude s o r

/-- Executes or lists a program that has been read. -/
def runProgram (s : Surroundings) (program : List UInt8) (o : Options) : Report :=
  match settingsOf s o with
  | .error e => { ending := .broken e }
  | .ok t =>
    if o.disassemble then { printed := listingText program, ending := .status 0 }
    else match machineConfig t with
      | .error e => { ending := .broken e }
      | .ok c => execute s c program o

/-- What a request leads to. -/
def Request.run (s : Surroundings) (r : Request) : Report :=
  match s.read r.program with
  | .ok program => runProgram s program r.options
  | .error .refused => { ending := .broken (.file .refused) }
  | .error _ => { ending := .usage (.programNotFound r.program) }

/-- What a command line leads to. -/
def run (s : Surroundings) (words : List String) : Report :=
  match Request.parse words with
  | .error .help => { ending := .help }
  | .error (.usage e) => { ending := .usage e }
  | .ok r => r.run s

end ChipEight.CommandLine
