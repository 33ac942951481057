import ChipEight.CommandLine.Token

/-!
# Help

The text that explains the command line: one line for every choice.
-/

namespace ChipEight.CommandLine

def programName : String := "chip8vm"

/-- What a choice does. -/
def Choice.summary : Choice → String
  | .help => "Show this text"
  | .steps => "Number of instructions to execute"
  | .realtime => "Pace steps at the configured rate"
  | .debug => "Trace every instruction"
  | .seed => "Seed for the random source"
  | .config => "Load a JSON machine config"
  | .savePng => "Write the final frame as PNG"
  | .zoom => "PNG pixel scale"
  | .ascii => "Print the final frame as text"
  | .disassemble => "List the ROM and exit"

/-- All choices, in the order in which they are offered. -/
def choices : List Choice := (spellings.map (·.choice)).eraseDups

/-- The line that explains a choice. -/
def Choice.helpLine (c : Choice) : String :=
  "  " ++ c.label ++ (if c.takesValue then " VALUE" else "") ++ "  " ++ c.summary

/-- How to call the program. -/
def usageLine : String := "usage: " ++ programName ++ " [options] rom"

/-- The whole explanation. -/
def helpText : String := "\n".intercalate (usageLine :: choices.map Choice.helpLine)

/-- What is said of a command line that cannot be followed. -/
def UsageError.report (e : UsageError) : String := programName ++ ": error: " ++ e.message

end ChipEight.CommandLine
