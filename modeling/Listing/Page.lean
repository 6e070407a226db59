import Listing.Cursor
import Listing.Number.Quotient
import Listing.Params
import Listing.Rows
import Listing.Settings
import Listing.Value.Attribute
import Listing.Value.Order
import Listing.Value.Pairs

/-!
# Pages

`NumberedPage` is one page out of numbered pages, with the number of all rows or without;
`CursorPage` is one page between two cursors. Both know the links to their neighbours: `Links.url`
writes the path, the appended parameters, and the parameter that names the page.

A page that a source makes has integers for its numbers. A page can be made of other values too, as
far as they can be calculated with.

`CursorPage.cut` makes a page and its cursors from the rows of a query that asked for one row more
than the page holds.
-/

namespace Listing

/-- The page size where none is given. -/
def defaultPerPage : Int := 15

/-! ## Links -/

/-- What the links of a page are made of. -/
structure Links where
  /-- The name of the parameter that names the page. -/
  name : Value
  path : Value := .text "/"
  /-- The parameters that every link carries. -/
  query : Entries := []

namespace Links

/-- The links with further parameters laid over those that they carry. -/
def appends (l : Links) (layers : List Value) : Except Error Links := do
  return { l with query := ← Settings.merge (.map l.query :: layers) }

/-- The links with another path, unless it counts as nothing. -/
def withPath (l : Links) (path : Value) : Links :=
  if path.truthy then { l with path := path } else l

/-- The pairs that a link carries beside the one that names the page. A text is compared with the
names of the carried parameters; a name of another kind is none of them. -/
def carried (l : Links) : List (String × String) :=
  (Params.flatten l.query).filter fun p => !(Value.text p.1).equal l.name

/-- The name of the parameter that names the page, in a query string. Bytes are written as they
are. -/
def nameChars (l : Links) : Except Error (List Char) :=
  match l.name with
  | .bytes os => .ok (Percent.encodeOctets os)
  | name => name.asText.map Percent.encode

/-- The link to the page that `value` names. -/
def url (l : Links) (value : Value) : Except Error String := do
  if !Params.entriesWritable l.query then throw .badValue
  let value ← value.asText
  let page := (← l.nameChars) ++ '=' :: Percent.encode value
  let path ← l.path.asText
  let pieces := l.carried.map QueryString.renderPair ++ [page]
  return path ++ "?" ++ String.ofList (QueryString.renderPieces pieces)

end Links

/-! ## Numbered pages -/

/-- The number of pages that hold `total` rows, at least one. -/
def lastPage (total perPage : Int) : Except Error Int :=
  if perPage = 0 then .ok 1
  else
    match Number.quotientCeiling? total perPage with
    | some n => .ok (max n 1)
    | none => .error .overflow

/-- The number of pages that hold as many rows as a value says. -/
def lastPageOf (total perPage : Value) : Except Error Int :=
  match total.integer?, perPage.integer? with
  | some total, some perPage => lastPage total perPage
  | _, _ => if perPage.truthy then (total.quotientCeiling perPage).map (max · 1) else .ok 1

/-- The number of all rows and the number of the last page. -/
structure PageCount where
  total : Value
  last : Int

/-- A page with a number. -/
structure NumberedPage where
  items : Rows
  perPage : Value
  current : Value := .int 1
  /-- Are there pages after this one? -/
  more : Value := .bool false
  /-- The count of rows and pages, where it is known. -/
  count : Option PageCount := none
  links : Links := { name := .text "page" }

namespace NumberedPage

/-- A page out of pages that hold `total` rows. -/
def counted (items : Rows) (total perPage current : Value) (links : Links) :
    Except Error NumberedPage := do
  let last ← lastPageOf total perPage
  let more ← current.less? (.int last)
  return ⟨items, perPage, current, .bool more, some ⟨total, last⟩, links⟩

/-- Is this the first page? -/
def onFirst (p : NumberedPage) : Except Error Bool := Comparison.atMost.holds? p.current (.int 1)

/-- The link to a page. -/
def url (p : NumberedPage) (page : Value) : Except Error String := do
  p.links.url (.int (max (← page.toInt) 1))

/-- The link to the next page. -/
def nextUrl (p : NumberedPage) : Except Error (Option String) := do
  if p.more.truthy then return some (← p.url (← p.current.add (.int 1))) else return none

/-- The link to the page before. -/
def previousUrl (p : NumberedPage) : Except Error (Option String) := do
  if ← p.onFirst then return none else return some (← p.url (← p.current.sub (.int 1)))

/-- The number of the first row on the page among all rows. -/
def firstItem (p : NumberedPage) : Except Error Value := do
  if p.items.length = 0 then return .null
  else (← (← p.current.sub (.int 1)).mul p.perPage).add (.int 1)

/-- The number of the last row on the page among all rows. -/
def lastItem (p : NumberedPage) : Except Error Value := do
  match ← p.firstItem with
  | .null => return .null
  | first => (← first.add (.int p.items.length)).sub (.int 1)

end NumberedPage

/-! ## Pages between cursors -/

/-- A page between two cursors; null stands for a cursor that is not there. -/
structure CursorPage where
  items : Rows
  perPage : Value
  cursor : Value := .null
  next : Value := .null
  previous : Value := .null
  links : Links := { name := .text "cursor" }

namespace CursorPage

/-- A cursor that may be there, as a value. -/
def ofCursor? (c : Option Cursor) : Value := (c.map Cursor.toValue).getD .null

/-- What a value is written as where a token stands. A text that stands in for a cursor is written
as its octets. -/
def token : Value → Except Error Value
  | .cursor parameters forward => do return .text (← Cursor.encode ⟨parameters, forward⟩)
  | .text s => .ok (.bytes (Utf8.encode s.toList))
  | v => .error (v.operationFault "encode")

/-- The link to the page at a cursor, if there is one. -/
def url (p : CursorPage) (cursor : Value) : Except Error (Option String) := do
  match cursor with
  | .null => return none
  | cursor => return some (← p.links.url (← token cursor))

/-- The token of a cursor, if there is one. -/
def tokenOf (cursor : Value) : Except Error Value :=
  if cursor.truthy then token cursor else .ok .null

/-- The cursor at a row. -/
def position {α : Type} (read : α → Value → Except Error Value) (columns : List Value) (row : α)
    (forward : Bool) : Except Error Cursor := do
  let ps ← columns.mapM fun column => do return (column, ← read row column)
  return ⟨Entries.ofPairs ps, forward⟩

/-- The rows of a page and the cursors to its neighbours. -/
structure Cut (α : Type) where
  items : List α
  next : Option Cursor
  previous : Option Cursor

/-- Cut a page out of the rows of a query from `cursor` on. They come in the order of the listing,
or reversed where the cursor points backward, and there is one more than the page holds if there is
a row beyond it. -/
def cut {α : Type} (rows : List α) (perPage : Int) (cursor : Option Cursor) (columns : List Value)
    (read : α → Value → Except Error Value) : Except Error (Cut α) := do
  let more : Bool := perPage < rows.length
  let backward := (cursor.map fun c => !c.forward).getD false
  let kept := slice rows 0 perPage
  let items := if backward then kept.reverse else kept
  match items.head?, items.getLast? with
  | some first, some last =>
    let next ← if backward || more then (position read columns last true).map some else pure none
    let previous ← if (if backward then more else cursor.isSome) then
        (position read columns first false).map some
      else pure none
    return ⟨items, next, previous⟩
  | _, _ => return ⟨items, none, none⟩

/-- Cut a page of a size that a value says out of rows that are maps or lists. -/
def cutValues (rows : List Value) (perPage cursor : Value) (columns : List Value) :
    Except Error (Cut Value) := do
  let _ ← perPage.less? (.int rows.length)
  match perPage.integer? with
  | none => .error .wrongKind
  | some perPage =>
    match cursor with
    | .null => cut rows perPage none columns Value.item
    | .cursor parameters forward => cut rows perPage (some ⟨parameters, forward⟩) columns Value.item
    | _ => .error .noMember

end CursorPage

/-! ## Pages of both kinds -/

/-- A page. -/
inductive Page
  | numbered (p : NumberedPage)
  | cursor (p : CursorPage)

namespace Page

/-- What the links of the page are made of. -/
def links : Page → Links
  | .numbered p => p.links
  | .cursor p => p.links

/-- The page with other links. -/
def withLinks : Page → Links → Page
  | .numbered p, l => .numbered { p with links := l }
  | .cursor p, l => .cursor { p with links := l }

/-- The rows on the page. -/
def items : Page → Rows
  | .numbered p => p.items
  | .cursor p => p.items

end Page

end Listing
