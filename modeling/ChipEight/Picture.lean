import ChipEight.Imaging
import ChipEight.Layout

/-!
# Pictures

A picture is a list of rows, each a number whose bit `k` is the pixel in column
`k`. Anything may be handed to a display, so a picture is checked before it is
rendered: first that every row fits the width, then that there are as many rows
as the display has. An image also needs colours whose components are bytes, and
a library that makes images of its size.
-/

namespace ChipEight

/-- The rows of a picture, the topmost first. -/
abbrev Picture := List Int

/-- Why a picture cannot be shown. -/
inductive PictureError
  /-- A row has pixels outside the display. -/
  | rowTooWide
  /-- The number of rows is not that of the display. -/
  | wrongHeight (rows : Nat)
  /-- The size of a pixel is below one. -/
  | badZoom (zoom : Int)
  /-- There is no row with that number. -/
  | noSuchRow
  /-- Columns count from zero. -/
  | negativeColumn
  /-- A component of a colour is no byte. -/
  | badComponent
  /-- A colour for some pixels does not have three components. -/
  | wrongComponents (components pixels : Nat)
  /-- The pixels cannot be enlarged. -/
  | imaging (error : ImagingError)
  deriving DecidableEq, Repr

/-- The wording of an error, if it has one. -/
def PictureError.message : PictureError → Option String
  | .rowTooWide => none
  | .wrongHeight rows =>
    some ("expected " ++ toString displayHeight ++ " rows, got " ++ toString rows)
  | .badZoom zoom => some ("zoom must be >= 1, got " ++ toString zoom)
  | .noSuchRow => none
  | .negativeColumn => some "negative shift count"
  | .badComponent => none
  | .wrongComponents components pixels =>
    some ("shape mismatch: value array of shape (" ++ toString components ++
      ",) could not be broadcast to indexing result of shape (" ++ toString pixels ++ ",3)")
  | .imaging e => e.message

/-- A colour as it is asked for: its three components, or one that serves as all three. -/
abbrev Paint := List Int

/-- The colour of lit pixels unless told otherwise. -/
def white : Paint := [255, 255, 255]

/-- The colour of dark pixels unless told otherwise. -/
def black : Paint := [0, 0, 0]

/-- The colour that is asked for some pixels. -/
def Colour.ofPaint (p : Paint) (pixels : Nat) : Except PictureError Colour :=
  if p.any fun c => decide (c < 0 ∨ 255 < c) then .error .badComponent
  else match p.map UInt8.ofInt with
    | [r, g, b] => .ok ⟨r, g, b⟩
    | [c] => .ok ⟨c, c, c⟩
    | cs => .error (.wrongComponents cs.length pixels)

namespace Picture

/-- The picture of a display on which no pixel is lit. -/
def blank : Picture := List.replicate displayHeight 0

/-- Whether a pixel of a row is lit. -/
def lit (row : Int) (column : Nat) : Bool := row.toNat.testBit column

/-- The pixels of a picture, row by row. -/
def grid (p : Picture) : Except PictureError (List (List Bool)) :=
  if p.any fun row => decide (row < 0 ∨ rowMask < row) then .error .rowTooWide
  else if p.length ≠ displayHeight then .error (.wrongHeight p.length)
  else .ok (p.map fun row => (List.range displayWidth).map (lit row))

/-- The picture as text, one line per row. -/
def text (p : Picture) (on off : String) : Except PictureError String :=
  p.grid.map fun rows =>
    "\n".intercalate (rows.map fun row => String.join (row.map fun px => if px then on else off))

/-! ## Images -/

/-- Each element of a list `times` times in a row. -/
def stretch {α : Type} (times : Nat) (xs : List α) : List α :=
  xs.flatMap fun x => List.replicate times x

/-- The image in which each of the given pixels is a square of `zoom` points. -/
def imageOfGrid (rows : List (List Bool)) (zoom : Nat) (on off : Colour) : Image where
  width := displayWidth * zoom
  height := displayHeight * zoom
  rows := stretch zoom
    (rows.map fun row => stretch zoom (row.map fun px => if px then on else off))

/-- How many pixels are lit. -/
def litCount (rows : List (List Bool)) : Nat := rows.flatten.countP id

/-- Why there is no image in which each pixel is a square of `zoom` points. Single points need not
be repeated. -/
def zoomRefusal? (lib : Imaging) (zoom : Nat) : Option ImagingError :=
  if 1 < zoom then lib.refusal? zoom else none

/-- The picture as an image in which each pixel is a square of `zoom` points. -/
def image (lib : Imaging) (p : Picture) (zoom : Int) (on off : Paint) :
    Except PictureError Image :=
  if zoom < 1 then .error (.badZoom zoom)
  else do
    let rows ← p.grid
    let on ← Colour.ofPaint on (litCount rows)
    let off ← Colour.ofPaint off (displayHeight * displayWidth - litCount rows)
    match zoomRefusal? lib zoom.toNat with
    | some e => .error (.imaging e)
    | none => .ok (imageOfGrid rows zoom.toNat on off)

end Picture

end ChipEight
