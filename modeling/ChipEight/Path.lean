import ChipEight.Text.Bytes
import ChipEight.Text.Lower

/-!
# Paths

A path names a file by the names on the way to it. Names are separated by slashes.
Empty names and single dots lead nowhere and are dropped, so two texts that differ
only in those are the same path; two dots are kept, since what they lead to is for
the file system to say.
-/

namespace ChipEight

/-- The way to a file. -/
structure Path where
  /-- The slashes in front, or nothing if the way starts in the working directory. -/
  root : String
  /-- The names on the way, that of the file last. -/
  names : List String
  deriving DecidableEq, Repr

namespace Path

/-! ## Reading -/

/-- The pieces of a text between slashes; `current` is the piece that has been begun,
last character first. -/
def pieces (current : List Char) : List Char → List (List Char)
  | [] => [current.reverse]
  | c :: cs => if c = '/' then current.reverse :: pieces [] cs else pieces (c :: current) cs

/-- Whether a name leads anywhere. -/
def isStep (name : String) : Bool := name != "" && name != "."

/-- The root of a path. Exactly two slashes are a root of their own; any other number
of them counts as one. -/
def rootOf (cs : List Char) : String :=
  match (cs.takeWhile (· == '/')).length with
  | 0 => ""
  | 2 => "//"
  | _ => "/"

/-- The path that a text denotes. -/
def ofText (s : String) : Path where
  root := rootOf s.toList
  names := ((pieces [] s.toList).map String.ofList).filter isStep

/-! ## Writing -/

/-- A path in its shortest form. -/
def text (p : Path) : String :=
  if p.root = "" ∧ p.names = [] then "." else p.root ++ "/".intercalate p.names

/-! ## Parts -/

/-- The directory that holds a file. -/
def parent (p : Path) : Path := { p with names := p.names.dropLast }

/-- The name of the file. -/
def name (p : Path) : String := p.names.getLastD ""

/-- How many characters of a name are its extension: those from the last dot on. Dots in
front of the name start no extension. -/
def extensionSize (name : List Char) : Nat :=
  let rest := name.dropWhile (· == '.')
  if rest.contains '.' then (rest.reverse.takeWhile (· != '.')).length + 1 else 0

/-- A name without its extension, and the extension. -/
def splitName (name : List Char) : List Char × List Char :=
  name.splitAt (name.length - extensionSize name)

/-- The extension of a file, in lower case and with its dot. -/
def extension (p : Path) : String := String.ofList (Text.lower (splitName p.name.toList).2)

/-- The bytes by which the system knows a path. -/
def bytes (p : Path) : Except Text.Bytes.TextError (List UInt8) := Text.Bytes.forSystem p.text

end Path

end ChipEight
