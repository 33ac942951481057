import ChipEight.Config
import ChipEight.Json

/-!
# Settings

Settings are what a configuration is made from. They are given by name, in a file or by whoever
sets up a machine. Names that mean nothing are refused, and names that are missing take their
default. Of the values three are looked at: they have to be numbers, and must not be below a least
one. All others are taken as they are, whatever they are. Whoever changes or saves settings copies
them first, and for that a value must not be nested too deeply; how deeply is a matter of the
runtime, so `Copying` is a parameter.

`Settings.config?` is the configuration of a machine with the settings. There is none if a number
is not whole or if the seed is none.
-/

namespace ChipEight

open JsonValue (member? laidOver)

/-! ## Names -/

/-- What can be set. -/
inductive Setting
  | timerDivider
  | cyclesPerSecond
  | debug
  | seed
  | traceHistory
  | dumpMemoryOnFault
  deriving DecidableEq, Repr

namespace Setting

/-- All settings, in the order in which they are written. -/
def all : List Setting :=
  [.timerDivider, .cyclesPerSecond, .debug, .seed, .traceHistory, .dumpMemoryOnFault]

def name : Setting → String
  | .timerDivider => "timer_divider"
  | .cyclesPerSecond => "cycles_per_second"
  | .debug => "debug"
  | .seed => "seed"
  | .traceHistory => "trace_history"
  | .dumpMemoryOnFault => "dump_memory_on_fault"

/-- The names of the settings. -/
def names : List String := all.map name

/-- The least number that a setting may have. There is none for settings that need not be
numbers. -/
def least? : Setting → Option Nat
  | .timerDivider | .cyclesPerSecond => some 1
  | .traceHistory => some 0
  | .debug | .seed | .dumpMemoryOnFault => none

end Setting

/-! ## Errors -/

/-- Why settings are refused. -/
inductive ConfigError
  /-- There are names that mean nothing. -/
  | unknownKeys (names : List String)
  /-- A number is below the least one. -/
  | tooLow (setting : Setting) (least : Nat) (got : String)
  /-- The text of a seed is no integer. -/
  | seedText (text : String)
  /-- A value that has to be a number is none, or there are no settings at all. -/
  | wrongType
  /-- A value cannot be copied. -/
  | tooDeep
  deriving DecidableEq, Repr

/-- The environment variable that holds a seed. -/
def seedVariable : String := "CHIP8_SEED"

/-- The environment variable that turns tracing on or off. -/
def debugVariable : String := "CHIP_8_DEBUG_MODE"

/-- The wording of an error, if it has one. -/
def ConfigError.message : ConfigError → Option String
  | .unknownKeys names => some ("Unknown config keys: " ++ ", ".intercalate names)
  | .tooLow setting least got =>
    some (setting.name ++ " must be >= " ++ toString least ++ ", got " ++ got)
  | .seedText text =>
    some (seedVariable ++ " must be an integer, got " ++ Text.Quoted.quoted text)
  | .wrongType | .tooDeep => none

/-! ## Copies -/

/-- How far values are copied. To copy a value is to copy what it holds, and whoever does so may
give up when lists and objects are nested too deeply. -/
structure Copying where
  copies : JsonValue → Bool
  /-- Values that hold no others are copied. -/
  flat : ∀ v : JsonValue, v.nesting = 0 → copies v = true

/-- Values are copied in which lists and objects are nested up to `depth` deep. -/
def Copying.upTo (depth : Nat) : Copying where
  copies v := decide (v.nesting ≤ depth)
  flat v h := by
    rw [h]
    exact decide_eq_true (Nat.zero_le depth)

/-- Copying that takes two calls for each level, with room for a thousand calls less those under
way. -/
def Copying.usual : Copying := .upTo 490

/-! ## Settings -/

/-- A value for everything that can be set. -/
@[ext]
structure Settings where
  value : Setting → JsonValue

/-- The settings of a configuration. -/
def Config.settings (c : Config) : Settings where
  value
    | .timerDivider => .int c.timerDivider
    | .cyclesPerSecond => .int c.cyclesPerSecond
    | .debug => .bool c.debug
    | .seed => c.seed.elim .null .int
    | .traceHistory => .int c.traceHistory
    | .dumpMemoryOnFault => .bool c.dumpMemoryOnFault

namespace Settings

/-- The value of a setting that is not given. -/
def default (k : Setting) : JsonValue := ({} : Config).settings.value k

/-- What is given for a setting by name, or else the default. -/
def given (members : List (String × JsonValue)) (k : Setting) : JsonValue :=
  (member? members k.name).getD (default k)

/-- The settings by name. -/
def members (t : Settings) : List (String × JsonValue) :=
  Setting.all.map fun k => (k.name, t.value k)

/-- Why a setting is refused, if it is. -/
def refusal? (t : Settings) (k : Setting) : Option ConfigError :=
  match k.least? with
  | none => none
  | some least =>
    match (t.value k).below? least with
    | none => some .wrongType
    | some true => some (.tooLow k least (t.value k).words)
    | some false => none

/-- Passes settings of which none is refused. -/
def checked (t : Settings) : Except ConfigError Settings :=
  match Setting.all.findSome? t.refusal? with
  | some e => .error e
  | none => .ok t

/-- The names that mean nothing, sorted by code points. -/
def unknownNames (names : List String) : List String :=
  (names.filter fun n => !Setting.names.contains n).eraseDups.mergeSort fun a b =>
    Text.CodePoint.precedes (Text.CodePoint.codes a) (Text.CodePoint.codes b)

/-- The settings that are given by name, and the defaults of the others. -/
def ofMembers (members : List (String × JsonValue)) : Except ConfigError Settings :=
  match unknownNames (members.map (·.1)) with
  | n :: ns => .error (.unknownKeys (n :: ns))
  | [] => checked { value := given members }

/-! ## Choices -/

/-- A layer that says whether to trace and where the random source begins, as far as either was
chosen. -/
def choiceLayer (debug : Option Bool) (seed : Option Int) : List (String × JsonValue) :=
  (debug.map fun b => (Setting.debug.name, .bool b)).toList ++
    (seed.map fun n => (Setting.seed.name, .int n)).toList

/-- The settings by name, with every value copied. -/
def copied (how : Copying) (t : Settings) : Except ConfigError (List (String × JsonValue)) :=
  if Setting.all.all fun k => how.copies (t.value k) then .ok t.members else .error .tooDeep

/-- Settings are copied, a layer is made and laid over the copy, and the outcome is checked. -/
def overlaid (how : Copying) (t : Settings)
    (layer : Except ConfigError (List (String × JsonValue))) : Except ConfigError Settings :=
  match t.copied how, layer with
  | .error e, _ => .error e
  | .ok _, .error e => .error e
  | .ok members, .ok layer => ofMembers (laidOver members layer)

/-- The settings with choices laid over them. -/
def choose (how : Copying) (t : Settings) (debug : Option Bool) (seed : Option Int) :
    Except ConfigError Settings :=
  t.overlaid how (.ok (choiceLayer debug seed))

/-! ## Machines -/

/-- Seconds between two instructions, unless the rate is no number or too large for a double. -/
def stepInterval? (t : Settings) : Option Float :=
  (t.value .cyclesPerSecond).double?.map fun rate => 1.0 / rate

/-- The seed that a value stands for, if it is one: nothing, or an integer. -/
def seedOf? : JsonValue → Option (Option Int)
  | .null => some none
  | v => v.int?.map some

/-- The configuration of a machine with these settings. Any value tells whether to do something:
it is not done if the value is empty, zero or false. -/
def config? (t : Settings) : Option Config := do
  let timerDivider ← (t.value .timerDivider).int?
  let cyclesPerSecond ← (t.value .cyclesPerSecond).int?
  let seed ← seedOf? (t.value .seed)
  let traceHistory ← (t.value .traceHistory).int?
  return {
    timerDivider, cyclesPerSecond, seed, traceHistory
    debug := !(t.value .debug).isVoid
    dumpMemoryOnFault := !(t.value .dumpMemoryOnFault).isVoid }

end Settings

end ChipEight
