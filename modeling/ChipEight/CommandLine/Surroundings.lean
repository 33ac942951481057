import ChipEight.Config.Environment
import ChipEight.Files
import ChipEight.Picture.Png

/-!
# The surroundings of a run

What a run depends on besides its command line: the files, the environment, how far settings are
copied, a seed for machines that are not given one, and the library that makes and writes images.
-/

namespace ChipEight.CommandLine

/-- What a run depends on besides its command line. -/
structure Surroundings extends Files where
  /-- The environment variables that matter. -/
  environment : Environment := {}
  /-- How far the values of settings are copied. -/
  copying : Copying := .usual
  /-- The seed of the random source of a machine that is not given one. -/
  entropy : Int := 0
  /-- The library that makes and writes images. -/
  imaging : Imaging := Png.imaging

end ChipEight.CommandLine
