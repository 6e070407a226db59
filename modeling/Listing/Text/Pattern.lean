/-!
# LIKE patterns

A pattern is read into parts (`parts`): `%` stands for any run of characters, `_` for one character,
a backslash takes the meaning from the character after it, and every other character stands for
itself. `partsOfPieces` reads a pattern that is a list of texts. `matchesParts` says whether a whole
text fits, for a given notion of equal characters. `escaped` writes a text so that its characters
stand for themselves, and `containing` is the pattern of the texts that hold a given one.
-/

namespace Listing.Text

/-- What one part of a pattern stands for. -/
inductive Part
  /-- Any run of characters, the empty one included. -/
  | anyRun
  /-- Any one character. -/
  | anyChar
  /-- This character. -/
  | exactly (c : Char)
  deriving DecidableEq

/-- The part that an unescaped character stands for. -/
def Part.ofChar (c : Char) : Part :=
  if c = '%' then .anyRun else if c = '_' then .anyChar else .exactly c

/-- The parts of a pattern in which the backslash escapes. A backslash at the very end stands for
nothing. -/
def parts : List Char → List Part
  | [] => []
  | [c] => if c = '\\' then [] else [.ofChar c]
  | c :: d :: rest =>
    if c = '\\' then .exactly d :: parts rest else .ofChar c :: parts (d :: rest)

/-- The parts of a pattern in pieces. A piece of one character that is not escaped stands for what
the character does, and any other piece for its characters. -/
def partsOfPieces : List String → List Part
  | [] => []
  | [s] => if s = "\\" then [] else ofPiece s
  | s :: t :: rest =>
    if s = "\\" then t.toList.map .exactly ++ partsOfPieces rest
    else ofPiece s ++ partsOfPieces (t :: rest)
where
  /-- The parts that an unescaped piece stands for. -/
  ofPiece (s : String) : List Part :=
    match s.toList with
    | [c] => [.ofChar c]
    | cs => cs.map .exactly

/-- Does a whole text fit the parts, characters being compared by `same`? -/
def matchesParts (same : Char → Char → Bool) : List Part → List Char → Bool
  | [], cs => cs.isEmpty
  | .anyRun :: ps, [] => matchesParts same ps []
  | .anyRun :: ps, c :: cs => matchesParts same ps (c :: cs) || matchesParts same (.anyRun :: ps) cs
  | .anyChar :: _, [] => false
  | .anyChar :: ps, _ :: cs => matchesParts same ps cs
  | .exactly _ :: _, [] => false
  | .exactly d :: ps, c :: cs => same d c && matchesParts same ps cs
  termination_by ps cs => ps.length + cs.length

/-- A character written so that it stands for itself in a pattern. -/
def escapeChar (c : Char) : List Char :=
  if c = '\\' || c = '%' || c = '_' then ['\\', c] else [c]

/-- The pattern of the texts that hold `s`. -/
def containing (s : String) : String :=
  String.ofList ('%' :: s.toList.flatMap escapeChar ++ ['%'])

end Listing.Text
