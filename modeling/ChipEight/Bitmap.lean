import ChipEight.Layout

/-!
# The display of the machine

The display is one 64-bit word per row; bit `k` of a row is the pixel in column
`k`. A sprite is a list of bytes, one per row, the highest bit leftmost. It is
combined with the picture by exclusive or, and whatever falls outside the
display is dropped.
-/

namespace ChipEight

/-- One row of pixels. -/
abbrev Row := BitVec displayWidth

/-- The rows of the display, the topmost first. -/
abbrev Bitmap := Vector Row displayHeight

namespace Bitmap

/-- No pixel is lit. -/
def blank : Bitmap := Vector.replicate displayHeight 0

/-- Whether the pixel in a column of a row is lit. -/
def pixel (b : Bitmap) (column : Nat) (row : Fin displayHeight) : Bool := b[row].getLsbD column

/-- The rows as numbers. -/
def rows (b : Bitmap) : List Int := b.toList.map fun r => (r.toNat : Int)

/-- One byte of a sprite as pixels of a row, its highest bit in column `column`. -/
def lane (byte : UInt8) (column : Nat) : Row :=
  (byte.toBitVec.reverse.setWidth displayWidth) <<< column

/-- The eight pixels of a row that a byte of a sprite can reach. -/
def window (column : Nat) : Row := (0xFF : Row) <<< column

/-- What a sprite adds to a row when its top left corner is at `column`, `top`. -/
def layer (sprite : List UInt8) (column top row : Nat) : Row :=
  if top ≤ row then (sprite[row - top]?).elim 0 (lane · column) else 0

/-- Draws a sprite; the flag tells whether a lit pixel went out. -/
def stamp (b : Bitmap) (sprite : List UInt8) (column top : Nat) : Bitmap × Bool :=
  ( Vector.ofFn fun r => b[r] ^^^ layer sprite column top r
  , (List.finRange displayHeight).any fun r => b[r] &&& layer sprite column top r != 0 )

end Bitmap

end ChipEight
