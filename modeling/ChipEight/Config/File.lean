import ChipEight.Config.Settings
import ChipEight.Json.Reader
import ChipEight.Json.Writer

/-!
# Configuration files

Settings are written as an object with one setting per line and read back from any text
that holds an object of settings.
-/

namespace ChipEight

/-- Why a text gives no settings. -/
inductive ConfigFileError
  /-- The text is no structured data. -/
  | data (error : JsonError)
  /-- The settings in it are refused. -/
  | settings (error : ConfigError)
  deriving DecidableEq, Repr

namespace Settings

/-- The text of a file with these settings. -/
def fileText (t : Settings) : String := (JsonValue.obj t.members).laidOut "\n"

/-- What is written to the file in which settings are saved. -/
def saved (how : Copying) (t : Settings) : Except ConfigError String :=
  (t.copied how).map fun members => (JsonValue.obj members).laidOut "\n"

/-- The names that a value other than an object offers as settings: the elements of
a list of texts, or the code points of a text. -/
def offeredNames : JsonValue → Option (List String)
  | .str s => some ((Text.CodePoint.codes s).map fun code => Text.CodePoint.ofCodes [code])
  | .arr items => items.mapM fun
    | .str s => some s
    | _ => none
  | _ => none

/-- The settings that a value holds. -/
def ofValue (v : JsonValue) : Except ConfigError Settings :=
  match v with
  | .obj members => ofMembers members
  | _ =>
    match (offeredNames v).map unknownNames with
    | some (n :: ns) => .error (.unknownKeys (n :: ns))
    | _ => .error .wrongType

/-- Reads the text of a file, which consists of characters. -/
def ofFileText (text : String) : Except ConfigFileError Settings :=
  match JsonValue.parse text with
  | .error e => .error (.data e)
  | .ok v =>
    match ofValue v with
    | .error e => .error (.settings e)
    | .ok t => .ok t

end Settings

end ChipEight
