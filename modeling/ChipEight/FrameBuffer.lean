import ChipEight.Files
import ChipEight.Picture
import ChipEight.Snapshot.Dump

/-!
# Displays

A frame buffer holds the picture that was drawn last, counts the draws and tells
every subscriber of each of them. A renderer is a frame buffer that also makes an
image of the picture, when one is asked for or is to be saved; it keeps the image
until the next draw.
-/

namespace ChipEight

/-! ## Frame buffers -/

/-- The picture that was drawn last, and who was told. -/
structure FrameBuffer where
  /-- The latest picture. -/
  frame : Picture := Picture.blank
  /-- How many pictures were drawn. -/
  drawCount : Nat := 0
  /-- What each subscriber got, the oldest picture first. -/
  subscribers : List (List Picture) := []
  deriving DecidableEq, Repr

namespace FrameBuffer

/-- Shows a picture. -/
def draw (f : FrameBuffer) (p : Picture) : FrameBuffer where
  frame := p
  drawCount := f.drawCount + 1
  subscribers := f.subscribers.map (· ++ [p])

/-- Adds a subscriber, which gets the pictures from now on. -/
def subscribe (f : FrameBuffer) : FrameBuffer := { f with subscribers := f.subscribers ++ [[]] }

/-- The row with a given number; numbers below zero count from the last row. -/
def row? (f : FrameBuffer) (y : Int) : Option Int :=
  if 0 ≤ y then f.frame[y.toNat]?
  else if -f.frame.length ≤ y then f.frame[(f.frame.length + y).toNat]?
  else none

/-- Whether a pixel is lit. Columns beyond the width are read from the row as it
was given. -/
def pixel (f : FrameBuffer) (x y : Int) : Except PictureError Bool :=
  match f.row? y with
  | none => .error .noSuchRow
  | some row => if x < 0 then .error .negativeColumn else .ok (bitSet row x.toNat)

def text (f : FrameBuffer) (on off : String) : Except PictureError String := f.frame.text on off

end FrameBuffer

/-! ## Renderers -/

/-- A frame buffer with an image of its picture. -/
structure Renderer where
  /-- The picture. -/
  buffer : FrameBuffer := {}
  /-- Points per pixel, across and down. -/
  zoom : Int := 8
  /-- The colour of lit pixels. -/
  onColour : Paint := white
  /-- The colour of dark pixels. -/
  offColour : Paint := black
  /-- The image of the picture, once it has been asked for. -/
  cache : Option Image := none
  deriving DecidableEq, Repr

namespace Renderer

/-- Shows a picture; the image of the one before is dropped. -/
def draw (r : Renderer) (p : Picture) : Renderer :=
  { r with buffer := r.buffer.draw p, cache := none }

/-- Adds a subscriber. -/
def subscribe (r : Renderer) : Renderer := { r with buffer := r.buffer.subscribe }

/-- The image of the picture, and the renderer that keeps it. If no image can be made, none is
kept. -/
def image (lib : Imaging) (r : Renderer) : Except PictureError Image × Renderer :=
  match r.cache with
  | some i => (.ok i, r)
  | none =>
    match r.buffer.frame.image lib r.zoom r.onColour r.offColour with
    | .error e => (.error e, r)
    | .ok i => (.ok i, { r with cache := some i })

end Renderer

/-! ## Files -/

/-- Why an image is not saved. -/
inductive SavingError
  /-- It cannot be made. -/
  | picture (error : PictureError)
  /-- The file cannot be used. -/
  | file (error : FileError)
  /-- The library does not write it. -/
  | imaging (error : ImagingError)
  deriving DecidableEq, Repr

/-- The wording of an error, if it has one. -/
def SavingError.message : SavingError → Option String
  | .picture e => e.message
  | .file e => some e.message
  | .imaging e => e.message

/-- Writes an image at a path. A format has to be found before the file is opened, and it is
handed the image afterwards. -/
def Image.written (lib : Imaging) (files : Files) (p : Path) (i : Image) :
    Except SavingError (Path × Image) :=
  match lib.formatRefusal? p with
  | some e => .error (.imaging e)
  | none =>
    match files.writable p with
    | .error e => .error (.file e)
    | .ok () =>
      match lib.imageRefusal? p i with
      | some e => .error (.imaging e)
      | none => .ok (p, i)

namespace Renderer

/-- Saves the image at a path, and answers with both. The image is made before the path is looked
at. -/
def save (lib : Imaging) (files : Files) (p : Path) (r : Renderer) :
    Except SavingError (Path × Image) × Renderer :=
  match r.image lib with
  | (.error e, r) => (.error (.picture e), r)
  | (.ok i, r) => (i.written lib files p, r)

/-! ## Requests -/

/-- What can be asked of a renderer. -/
inductive Op
  | draw (p : Picture)
  /-- Adds a subscription of the subscriber `who`. -/
  | subscribe (who : Nat)
  | image
  /-- Saves the image at a path. -/
  | save (files : Files) (path : Path)
  | text (on off : String)

/-- What is answered. -/
inductive Answer
  | done
  | image (i : Except PictureError Image)
  | saved (i : Except SavingError (Path × Image))
  | text (t : Except PictureError String)

/-- The answer to an operation, and the renderer behind it. -/
def respond (lib : Imaging) (r : Renderer) : Op → Answer × Renderer
  | .draw p => (.done, r.draw p)
  | .subscribe _ => (.done, r.subscribe)
  | .image => (r.image lib).map .image id
  | .save files path => (r.save lib files path).map .saved id
  | .text on off => (.text (r.buffer.text on off), r)

end Renderer

end ChipEight
