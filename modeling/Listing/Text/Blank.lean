import Listing.Text.Ranges

/-!
# Blank characters

The white space of every script, and what is done with it: `strip` takes it off both ends of a text,
`words` splits a text at runs of it.
-/

namespace Listing.Text

/-- The code points of white space. -/
def blankRanges : Ranges :=
  [(9, 13), (28, 32), (133, 133), (160, 160), (5760, 5760), (8192, 8202), (8232, 8233),
   (8239, 8239), (8287, 8287), (12288, 12288)]

/-- Is the character white space? -/
def isBlank (c : Char) : Bool := blankRanges.has c

/-- The characters without those at either end that satisfy `p`. -/
def trim (p : Char → Bool) (cs : List Char) : List Char :=
  ((cs.dropWhile p).reverse.dropWhile p).reverse

/-- A text without the white space at its ends. -/
def strip (s : String) : String := String.ofList (trim isBlank s.toList)

/-- Does a text hold nothing but white space? -/
def isBlankText (s : String) : Bool := s.toList.all isBlank

/-- The maximal runs of characters outside white space, the current one kept reversed. -/
def wordsFrom : List Char → List Char → List (List Char)
  | [], [] => []
  | run, [] => [run.reverse]
  | run, c :: cs =>
    if isBlank c then
      if run.isEmpty then wordsFrom [] cs else run.reverse :: wordsFrom [] cs
    else wordsFrom (c :: run) cs

/-- The words of a text. -/
def words (s : String) : List String := (wordsFrom [] s.toList).map String.ofList

end Listing.Text
