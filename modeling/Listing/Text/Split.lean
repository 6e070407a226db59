/-!
# Splitting texts

`splitOn` cuts a text at every occurrence of a separator, from left to right and without overlap.
`cutFirst` and `cutLast` cut it at one occurrence of a character.
-/

namespace Listing.Text

/-- Cut characters at a separator. `skip` characters still belong to the last one that was met, and
`piece` is the current piece, reversed. -/
def splitFrom (separator : List Char) : Nat → List Char → List Char → List (List Char)
  | _, piece, [] => [piece.reverse]
  | skip + 1, piece, _ :: cs => splitFrom separator skip piece cs
  | 0, piece, c :: cs =>
    if separator.isPrefixOf (c :: cs) then
      piece.reverse :: splitFrom separator (separator.length - 1) [] cs
    else splitFrom separator 0 (c :: piece) cs

/-- The pieces of a text between the occurrences of a separator that is not empty. -/
def splitOn (separator s : String) : List String :=
  (splitFrom separator.toList 0 [] s.toList).map String.ofList

/-- What stands before and after the first `c`, if there is one. -/
def cutFirst (c : Char) (s : String) : Option (String × String) :=
  let cs := s.toList
  match cs.dropWhile (· != c) with
  | [] => none
  | _ :: after => some (String.ofList (cs.takeWhile (· != c)), String.ofList after)

/-- What stands before and after the last `c`, if there is one. -/
def cutLast (c : Char) (s : String) : Option (String × String) :=
  let cs := s.toList.reverse
  match cs.dropWhile (· != c) with
  | [] => none
  | _ :: before =>
    some (String.ofList before.reverse, String.ofList (cs.takeWhile (· != c)).reverse)

end Listing.Text
