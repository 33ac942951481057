import ChipEight.CommandLine.Token
import ChipEight.Path
import ChipEight.Text.Integer

/-!
# Requests

A request is what a command line asks for: a program, and what to do with it. Options
are taken one after another, so of several that choose the same the last one counts.
The first value that belongs to no option is the program. Words that nothing can be
done with are collected and reported at the end, and only if a program was named;
asking for help ends everything at once.
-/

namespace ChipEight.CommandLine

open Text

/-! ## Options -/

/-- Instructions to execute unless told otherwise. -/
def defaultSteps : Int := 5000

/-- Points per pixel of a saved picture unless told otherwise. -/
def defaultZoom : Int := 8

/-- What to do with a program. An integer that is `none` was asked for without saying
which; that only matters when it is needed. -/
structure Options where
  /-- Instructions to execute. -/
  steps : Option Int := some defaultSteps
  /-- Whether to keep the pace of the configuration. -/
  realtime : Bool := false
  /-- Whether to trace, if it was said. -/
  debug : Option Bool := none
  /-- The seed of the random source, if there was to be one. -/
  seed : Option (Option Int) := none
  /-- The file with the configuration. -/
  config : Option Path := none
  /-- Where to save the picture. -/
  savePng : Option Path := none
  /-- Points per pixel of the saved picture. -/
  zoom : Option Int := some defaultZoom
  /-- Whether to print the picture. -/
  ascii : Bool := false
  /-- Whether to list the program in place of executing it. -/
  disassemble : Bool := false
  deriving DecidableEq, Repr

/-- A program and what to do with it. -/
structure Request where
  /-- The file with the program. -/
  program : Path
  /-- What to do. -/
  options : Options
  deriving DecidableEq, Repr

/-- Why a command line makes no request. -/
inductive Stop
  /-- It asks for help. -/
  | help
  /-- It cannot be followed. -/
  | usage (error : UsageError)
  deriving DecidableEq, Repr

/-! ## Values of options -/

/-- The integer that a value denotes. An attached separator stands for no integer. -/
def integerOf (choice : Choice) (text : String) : Except Stop (Option Int) :=
  if text = separatorText then .ok none
  else match Integer.readDecimal? text with
    | some n => .ok (some n)
    | none => .error (.usage (.notAnInteger choice text))

/-- The path that a value denotes. An attached separator stands for no path. -/
def pathOf (text : String) : Option Path :=
  if text = separatorText then none else some (.ofText text)

namespace Options

/-- Takes an option with its value. -/
def withValue (o : Options) (choice : Choice) (text : String) : Except Stop Options :=
  match choice with
  | .steps => (integerOf choice text).map fun n => { o with steps := n }
  | .seed => (integerOf choice text).map fun n => { o with seed := some n }
  | .zoom => (integerOf choice text).map fun n => { o with zoom := n }
  | .config => .ok { o with config := pathOf text }
  | .savePng => .ok { o with savePng := pathOf text }
  | .help | .realtime | .debug | .ascii | .disassemble =>
    .error (.usage (.valueRefused choice text))

/-- Takes an option without value. -/
def withFlag (o : Options) (s : Spelling) : Except Stop Options :=
  match s.choice with
  | .help => .error .help
  | .realtime => .ok { o with realtime := s.isOn }
  | .debug => .ok { o with debug := some s.isOn }
  | .ascii => .ok { o with ascii := s.isOn }
  | .disassemble => .ok { o with disassemble := s.isOn }
  | .steps | .seed | .config | .savePng | .zoom => .error (.usage (.valueExpected s.choice))

end Options

/-! ## Whole command lines -/

/-- A request in the making. -/
structure Draft where
  /-- The program, once it was named. -/
  program : Option Path := none
  /-- What was asked for so far. -/
  options : Options := {}
  /-- The words that nothing could be done with. -/
  extras : List String := []
  deriving DecidableEq, Repr

namespace Draft

/-- Adds a word that nothing can be done with. -/
def withExtra (d : Draft) (word : String) : Draft := { d with extras := d.extras ++ [word] }

/-- Takes the tokens of a command line in turn. A separator next to the program belongs
to it. -/
def read (d : Draft) : List Token → Except Stop Draft
  | [] => .ok d
  | .unknown word :: rest => (d.withExtra word).read rest
  | .separator :: rest =>
    if d.program.isNone && !rest.isEmpty then d.read rest
    else (d.withExtra separatorText).read rest
  | .value text :: rest =>
    match d.program, rest with
    | none, .separator :: rest => { d with program := some (.ofText text) : Draft }.read rest
    | none, rest => { d with program := some (.ofText text) : Draft }.read rest
    | some _, rest => (d.withExtra text).read rest
  | .option s (some text) :: rest =>
    match d.options.withValue s.choice text with
    | .error stop => .error stop
    | .ok options => { d with options : Draft }.read rest
  | .option s none :: rest =>
    match s.choice.takesValue, rest with
    | true, .value text :: rest =>
      match d.options.withValue s.choice text with
      | .error stop => .error stop
      | .ok options => { d with options : Draft }.read rest
    | _, rest =>
      match d.options.withFlag s with
      | .error stop => .error stop
      | .ok options => { d with options : Draft }.read rest

/-- Ends a draft. -/
def finish (d : Draft) : Except Stop Request :=
  match d.program, d.extras with
  | none, _ => .error (.usage .programMissing)
  | some _, word :: words => .error (.usage (.unrecognized (word :: words)))
  | some program, [] => .ok { program, options := d.options }

end Draft

/-- The request that a command line makes. -/
def Request.parse (words : List String) : Except Stop Request :=
  match tokens words with
  | .error e => .error (.usage e)
  | .ok ts =>
    match Draft.read {} ts with
    | .error stop => .error stop
    | .ok d => d.finish

end ChipEight.CommandLine
