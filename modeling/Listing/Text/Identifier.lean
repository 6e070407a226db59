import Listing.Text.Case
import Listing.Text.Digit

/-!
# Spellings of identifiers

`snakeCase` writes the words of an identifier in lower case with underscores between them: a capital
begins a word where a small letter or a digit stands before it, and where a capital stands before it
and a small letter after it. `camelCase` runs the words together.
-/

namespace Listing.Text

/-- A letter `A` to `Z`. -/
def isCapital (c : Char) : Bool := 'A' ≤ c && c ≤ 'Z'

/-- A letter `a` to `z`. -/
def isSmall (c : Char) : Bool := 'a' ≤ c && c ≤ 'z'

/-- Does the character `c` begin a word after `before` and before `rest`? -/
def beginsWord (before : Option Char) (c : Char) (rest : List Char) : Bool :=
  match before with
  | none => false
  | some b =>
    isCapital c &&
      (isSmall b || (digitValue? b).isSome || (isCapital b && (rest.head?.map isSmall).getD false))

/-- The characters with an underscore before each word but the first. -/
def withUnderscores : Option Char → List Char → List Char
  | _, [] => []
  | before, c :: rest =>
    (if beginsWord before c rest then ['_', c] else [c]) ++ withUnderscores (some c) rest

/-- An identifier in small letters, with underscores between its words. -/
def snakeCase (s : String) : String :=
  lower (String.ofList ((withUnderscores none s.toList).map fun c => if c = '-' then '_' else c))

/-- The characters without underscores, the letter after each in upper case. -/
def joinWords : List Char → List Char
  | [] => []
  | [c] => [c]
  | c :: d :: rest => if c = '_' then d.toUpper :: joinWords rest else c :: joinWords (d :: rest)

/-- An identifier that begins with a small letter, its words run together. -/
def camelCase (s : String) : String :=
  match s.toList with
  | [] => ""
  | c :: cs => String.ofList (c.toLower :: joinWords cs)

end Listing.Text
