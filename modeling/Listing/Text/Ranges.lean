/-!
# Sets of characters given by ranges

A property of characters is kept as a list of closed ranges of code points. `Ranges.has` asks
whether a character lies in one of them.
-/

namespace Listing.Text

/-- Closed ranges of code points. -/
abbrev Ranges := List (Nat × Nat)

/-- Does a code point lie in one of the ranges? -/
def Ranges.covers (r : Ranges) (n : Nat) : Bool := r.any fun p => p.1 ≤ n && n ≤ p.2

/-- Does a character lie in one of the ranges? -/
def Ranges.has (r : Ranges) (c : Char) : Bool := r.covers c.toNat

end Listing.Text
