import ChipEight.CommandLine
import ChipEight.CommandLine.Help
import ChipEight.Picture.Png

/-!
# The program

The outer layer: it reads the files that a command line names and the environment,
runs the command line, and carries out the report.
-/

namespace ChipEight.CommandLine

open Text

/-- The number by which the system tells that a path leads to a directory. -/
def isDirectoryCode : UInt32 := 21

/-- What a path leads to. Only paths of characters can be looked up. -/
def placeAt (p : Path) : IO Place := do
  let some name := CodePoint.plain? p.text | return .refused
  match ← (IO.FS.readBinFile name).toBaseIO with
  | .ok content => return .file content.toList
  | .error (.noFileOrDirectory ..) => return .nothing
  | .error (.inappropriateType _ code _) =>
    return if code = isDirectoryCode then .directory else .behindFile
  | .error _ => return .refused

/-- The paths that a request depends on. -/
def Request.paths (r : Request) : List Path :=
  [r.program] ++ r.options.config.toList ++ r.options.savePng.toList.flatMap fun p => [p, p.parent]

/-- The paths that a command line depends on. -/
def pathsOf (words : List String) : List Path :=
  match Request.parse words with
  | .ok r => r.paths
  | .error _ => []

/-- The surroundings of a command line. -/
def surroundingsOf (words : List String) : IO Surroundings := do
  let places ← (pathsOf words).mapM fun p => return (p, ← placeAt p)
  let debug := (← IO.getEnv debugVariable).map CodePoint.ofPlain
  let seed := (← IO.getEnv seedVariable).map CodePoint.ofPlain
  let entropy ← IO.rand 0 0xFFFFFFFF
  return { lookUp := fun p => (places.lookup p).getD .nothing
           environment := { debug, seed }, entropy }

/-- Carries out a report and answers with the status of the program. -/
def Report.carryOut (r : Report) : IO UInt32 := do
  IO.print (Quoted.shown r.printed)
  for e in r.log do IO.eprintln (Quoted.shown e.message)
  IO.sleep (r.slept * 1000).toUInt32
  match r.saved with
  | some (p, image) => IO.FS.writeBinFile (Quoted.shown p.text) ⟨(Png.encode image).toArray⟩
  | none => pure ()
  match r.ending with
  | .status code => return code.toUInt32
  | .help =>
    IO.println helpText
    return 0
  | .usage e =>
    IO.eprintln usageLine
    IO.eprintln (Quoted.shown e.report)
    return usageStatus.toUInt32
  | .broken e =>
    IO.eprintln (Quoted.shown e.message)
    return 1

end ChipEight.CommandLine

/-- Runs a command line. -/
def main (args : List String) : IO UInt32 := do
  let words := args.map ChipEight.Text.CodePoint.ofPlain
  let surroundings ← ChipEight.CommandLine.surroundingsOf words
  (ChipEight.CommandLine.run surroundings words).carryOut
