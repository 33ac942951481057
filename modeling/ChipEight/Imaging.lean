import ChipEight.Path

/-!
# Images

An image is a rectangle of coloured points. The points of a display are repeated across and down
by a library, and a library writes images to files. How large an image may be and which formats
there are is a matter of that library and of its host, so a library is a parameter here: `Imaging`
holds its refusals, and what all of them have in common.
-/

namespace ChipEight

/-- A colour with eight bits per component. -/
structure Colour where
  /-- The red component. -/
  red : UInt8
  /-- The green component. -/
  green : UInt8
  /-- The blue component. -/
  blue : UInt8
  deriving DecidableEq, Repr

/-- A rectangle of coloured points. -/
structure Image where
  /-- Points in a row. -/
  width : Nat
  /-- Rows. -/
  height : Nat
  /-- The rows, the topmost first. -/
  rows : List (List Colour)
  deriving DecidableEq, Repr

/-- Why a library does not do what it is asked for. -/
inductive ImagingError
  /-- A number is out of range. -/
  | range
  /-- There is not enough memory. -/
  | memory
  /-- A value is refused. -/
  | value (message : String)
  /-- Images cannot be written in a format. -/
  | format
  /-- An image cannot be written to a file. -/
  | system
  /-- A text cannot be written to a file. -/
  | text
  deriving DecidableEq, Repr

/-- The wording of an error, if it has one. -/
def ImagingError.message : ImagingError → Option String
  | .value message => some message
  | _ => none

/-- A library that repeats points and writes images. -/
structure Imaging where
  /-- Why the points of a display cannot be repeated as often as asked, across and down. -/
  refusal? : Nat → Option ImagingError
  /-- Why no image can be written at a path. The file is not opened then. -/
  formatRefusal? : Path → Option ImagingError
  /-- Why an image cannot be written at a path. The file has been opened then. -/
  imageRefusal? : Path → Image → Option ImagingError
  /-- A count has 64 bits, one of them for the sign. -/
  counts : ∀ times, 0x8000000000000000 ≤ times → refusal? times = some .range
  /-- Any image can be written to a PNG file. -/
  png : ∀ p : Path, p.extension = ".png" →
    formatRefusal? p = none ∧ ∀ i, imageRefusal? p i = none

end ChipEight
