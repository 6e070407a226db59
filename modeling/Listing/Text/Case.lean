import Listing.Text.CaseTable

/-!
# Letter case

`lower` writes a text in lower case, `sameLetter` compares two characters without regard to case,
`asciiLower` touches the letters `A` to `Z` only.

Two letters need more than the table. The capital sigma becomes the final sigma `ς` at the end of a
word, that is when the nearest character before it that the rule does not look through has case and
the nearest one after it has not. The dotted capital I becomes an i followed by a combining dot.
-/

namespace Listing.Text

/-- The lower case of a single character. -/
def lowerChar (c : Char) : Char :=
  match lowerRuns.find? fun r =>
      r.first ≤ c.toNat && c.toNat ≤ r.last && (c.toNat - r.first) % r.step == 0 with
  | some r => Char.ofNat (c.toNat + r.shift).toNat
  | none => c

/-- Does the first character that the sigma rule does not look through have case? -/
def startsCased (cs : List Char) : Bool :=
  match cs.dropWhile transparentRanges.has with
  | [] => false
  | c :: _ => casedRanges.has c

/-- The lower case of a text, given what stands before it, nearest character first. -/
def lowerFrom : List Char → List Char → List Char
  | _, [] => []
  | before, c :: rest =>
    (if c = 'Σ' then [if startsCased before && !startsCased rest then 'ς' else 'σ']
      else if c = 'İ' then ['i', '\u0307']
      else [lowerChar c]) ++ lowerFrom (c :: before) rest

/-- A text in lower case. -/
def lower (s : String) : String := String.ofList (lowerFrom [] s.toList)

/-- Do two characters stand for the same letter when case does not count? -/
def sameLetter (a b : Char) : Bool :=
  let x := lowerChar a
  let y := lowerChar b
  x == y || ((caseSiblings.lookup x.toNat).getD []).contains y.toNat

/-- The lower case of the letters `A` to `Z`; every other character as it is. -/
def asciiLower (c : Char) : Char := c.toLower

end Listing.Text
