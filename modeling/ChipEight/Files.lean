import ChipEight.Path

/-!
# Files

What paths lead to, as far as reading and writing a file depend on it.
-/

namespace ChipEight

/-- Why a file cannot be read or written. -/
inductive FileError
  /-- There is no such file, or no directory to hold it. -/
  | missing
  /-- The path leads to a directory. -/
  | isDirectory
  /-- A name on the way is that of a file. -/
  | notADirectory
  /-- The system refuses the path. -/
  | refused
  /-- The path cannot be handed to the system. -/
  | path (error : Text.Bytes.TextError)
  deriving DecidableEq, Repr

/-- The wording of a file that cannot be used. -/
def FileError.message : FileError → String
  | .missing => "no such file or directory"
  | .isDirectory => "is a directory"
  | .notADirectory => "not a directory"
  | .refused => "the path cannot be used"
  | .path e => e.message.getD "the path cannot be encoded"

/-- What a path leads to. -/
inductive Place
  /-- A file with its bytes. -/
  | file (content : List UInt8)
  | directory
  | nothing
  /-- Nowhere, since a name on the way is that of a file. -/
  | behindFile
  /-- Nowhere, since the system refuses the path. -/
  | refused
  deriving DecidableEq, Repr

/-- The files that there are. -/
structure Files where
  lookUp : Path → Place

namespace Files

def read (files : Files) (p : Path) : Except FileError (List UInt8) :=
  match p.bytes, files.lookUp p with
  | .error e, _ => .error (.path e)
  | .ok _, .file content => .ok content
  | .ok _, .directory => .error .isDirectory
  | .ok _, .nothing => .error .missing
  | .ok _, .behindFile => .error .notADirectory
  | .ok _, .refused => .error .refused

/-- Whether a file can be written. A new file needs a directory to hold it. -/
def writable (files : Files) (p : Path) : Except FileError Unit :=
  match p.bytes, files.lookUp p, files.lookUp p.parent with
  | .error e, _, _ => .error (.path e)
  | .ok _, .file _, _ => .ok ()
  | .ok _, .directory, _ => .error .isDirectory
  | .ok _, .nothing, .directory => .ok ()
  | .ok _, .nothing, _ => .error .missing
  | .ok _, .behindFile, _ => .error .notADirectory
  | .ok _, .refused, _ => .error .refused

end Files

end ChipEight
