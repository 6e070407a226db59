import Listing.Endpoint.Response
import Listing.Page.Inspection
import Listing.Sample.Shop
import Listing.Proofs.Endpoint.CursorLinks
import Listing.Proofs.Endpoint.NumberedLinks
import Listing.Proofs.Params.Rereading
import Listing.Proofs.Relational.Navigation
import Listing.Proofs.Params.Reading
import Listing.Proofs.Declaration.Codeless
import Listing.Proofs.Declaration.Inclusions
import Listing.Proofs.Declaration.Stable
import Listing.Proofs.Request.Vocabulary
import Listing.Proofs.Request.Confinement
import Listing.Proofs.Request.Refusal
import Listing.Proofs.Request.Selection
import Listing.Proofs.Endpoint.Narrowing
import Listing.Proofs.Endpoint.InMemory
import Listing.Proofs.Endpoint.Conjunction
import Listing.Proofs.Endpoint.Purged
import Listing.Proofs.Source.CursorBlocks
import Listing.Proofs.Request.Spellings
import Listing.Proofs.Request.Ordering
import Listing.Proofs.Source.Search
import Listing.Proofs.Relational.Lexicographic
import Listing.Proofs.Cursor.Tokens
import Listing.Proofs.Cursor.Typed
import Listing.Proofs.Page.Appended
import Listing.Proofs.Params.Grammar
import Listing.Proofs.Params.Update
import Listing.Proofs.Request.PagingInput
import Listing.Proofs.Codec.Nesting
import Listing.Proofs.Source.ForgedCursors
import Listing.Proofs.Source.Comparing
import Listing.Proofs.Source.Coercion
import Listing.Proofs.Source.Membership
import Listing.Proofs.Source.Dotted
import Listing.Proofs.Dialect
import Listing.Proofs.Endpoint.Layers
import Listing.Proofs.Page.Count
import Listing.Proofs.Request.OwnName
