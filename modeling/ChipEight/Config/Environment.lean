import ChipEight.Config.Settings
import ChipEight.Text.Bytes
import ChipEight.Text.Folding
import ChipEight.Text.Integer

/-!
# Settings from the environment

Two variables take precedence over the settings of a file. One holds a flag, which
is on unless its text says otherwise; the other holds a seed as an integer
literal, and counts as absent when it is empty. The system keeps variables as bytes, so
a variable may hold another text than the one it was set to.
-/

namespace ChipEight

open Text

/-- The variables that matter, as far as they are set. -/
structure Environment where
  /-- The flag for tracing. -/
  debug : Option String := none
  seed : Option String := none
  deriving DecidableEq, Repr

/-- What a variable holds that was set to a text. -/
def heldText (text : String) : Except Bytes.TextError String :=
  (Bytes.forSystem text).map Bytes.toText

/-- The variables after they were set to the texts of an environment, the flag first. -/
def Environment.held (e : Environment) : Except Bytes.TextError Environment :=
  match e.debug.mapM heldText with
  | .error error => .error error
  | .ok debug =>
    match e.seed.mapM heldText with
    | .error error => .error error
    | .ok seed => .ok { debug, seed }

/-- The texts that turn a flag off. -/
def offTexts : List String := ["0", "false", "off", ""]

/-- Whether the text of a flag turns it on. White space around it and case do not
matter. -/
def flagOn (text : String) : Bool :=
  !offTexts.contains (String.ofList (fold (strip text.toList)))

namespace Settings

/-- The seed that an environment asks for: none, or the integer it holds. -/
def environmentSeed (e : Environment) : Except ConfigError (Option Int) :=
  match e.seed with
  | none => .ok none
  | some text =>
    if text.isEmpty then .ok none
    else match Integer.read? text with
      | some n => .ok (some n)
      | none => .error (.seedText text)

/-- The settings `base` with those of an environment laid over them. -/
def withEnvironment (how : Copying) (base : Settings) (e : Environment) :
    Except ConfigError Settings :=
  base.overlaid how ((environmentSeed e).map (choiceLayer (e.debug.map flagOn)))

end Settings

end ChipEight
