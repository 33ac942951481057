import ChipEight.CommandLine.Surroundings
import ChipEight.CommandLine.Token
import ChipEight.Config.File
import ChipEight.FrameBuffer
import ChipEight.Log
import ChipEight.Machine.Step

/-!
# Reports of runs

What a run did: what it printed and logged, the image it saved, and how it ended.
-/

namespace ChipEight.CommandLine

/-- Why a run broke off. -/
inductive RunError
  /-- A file cannot be used. -/
  | file (error : FileError)
  /-- The configuration file is not text. -/
  | notText
  /-- The settings cannot be used. -/
  | config (error : ConfigFileError)
  /-- The settings describe no machine: a number is not whole, or the seed is none. -/
  | otherTypes
  /-- The machine could not be set up or driven. -/
  | machine (failure : Failure)
  /-- An integer is needed that the command line left open. -/
  | integerMissing
  /-- The picture cannot be drawn. -/
  | picture (error : PictureError)
  /-- The image is not saved. -/
  | saving (error : SavingError)
  deriving DecidableEq, Repr

/-- The wording of settings that cannot be used. -/
def settingsMessage : ConfigFileError → String
  | .data .malformed => "the configuration file is malformed"
  | .data (.longInteger digits) => JsonError.longIntegerMessage digits
  | .data .tooDeep => "the configuration file is nested too deeply"
  | .settings .tooDeep => "a setting is nested too deeply"
  | .settings e => e.message.getD "a setting has a value of the wrong type"

/-- The wording of a machine that could not be set up or driven. -/
def failureMessage : Failure → String
  | .fault f => f.text
  | .notAByte => notAByteMessage
  | .rateTooLarge => "cycles_per_second is too large"
  | .badCapacity e => e.message

/-- The wording of a run that broke off. -/
def RunError.message : RunError → String
  | .file e => e.message
  | .notText => "the configuration file is not text"
  | .config e => settingsMessage e
  | .otherTypes => "the settings describe no machine"
  | .machine f => failureMessage f
  | .integerMissing => "an integer is missing"
  | .picture e => e.message.getD "the picture cannot be drawn"
  | .saving e => e.message.getD "the image cannot be saved"

/-- How a run ended. -/
inductive Ending
  /-- It came to its end, with a status for whoever started it. -/
  | status (code : Nat)
  /-- It was asked for help. -/
  | help
  /-- The command line cannot be followed. -/
  | usage (error : UsageError)
  /-- It broke off. -/
  | broken (error : RunError)
  deriving DecidableEq, Repr

/-- The status of a command line that cannot be followed. -/
def usageStatus : Nat := 2

/-- What a run did. -/
structure Report where
  /-- The text that it printed. -/
  printed : String := ""
  /-- The log entries that it showed, the oldest first. -/
  log : List LogEntry := []
  /-- The image that it saved, and where. -/
  saved : Option (Path × Image) := none
  /-- Seconds that it slept. -/
  slept : Float := 0.0
  /-- How it ended. -/
  ending : Ending

end ChipEight.CommandLine
