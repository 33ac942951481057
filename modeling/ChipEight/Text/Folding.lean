/-!
# Folding case

Two texts agree without regard to case if their foldings are equal. `fold` folds
the characters whose folding is ASCII text and keeps all others; for a comparison
with an ASCII text that is enough, since the folding of any other character
contains a character outside ASCII.
-/

namespace ChipEight.Text

/-- Characters outside ASCII with a folding of ASCII letters. -/
def asciiFoldings : List (Char × List Char) :=
  [ ('\u00DF', ['s', 's']), ('\u017F', ['s']), ('\u1E9E', ['s', 's']), ('\u212A', ['k'])
  , ('\uFB00', ['f', 'f']), ('\uFB01', ['f', 'i']), ('\uFB02', ['f', 'l'])
  , ('\uFB03', ['f', 'f', 'i']), ('\uFB04', ['f', 'f', 'l']), ('\uFB05', ['s', 't'])
  , ('\uFB06', ['s', 't']) ]

/-- The folding of a character. -/
def foldChar (c : Char) : List Char := (asciiFoldings.lookup c).getD [c.toLower]

/-- The folding of a text. -/
def fold (cs : List Char) : List Char := cs.flatMap foldChar

end ChipEight.Text
