import Listing.Operation
import Listing.Page

/-!
# Pages by name

A page can be made of named parts, and looked at by the names of what it knows: `Page.ofParts` and
`Page.inspect`.
-/

namespace Listing

/-- The kinds of pages. -/
inductive PageKind
  | simple
  | counted
  | cursor
  deriving DecidableEq

namespace PageKind

/-- The kind with a name. -/
def named? (s : String) : Option PageKind :=
  match s with
  | "Paginator" => some .simple
  | "LengthAwarePaginator" => some .counted
  | "CursorPaginator" => some .cursor
  | _ => none

/-- The parts that have to be given. -/
def requiredParts : PageKind → List String
  | .simple | .cursor => ["items", "per_page"]
  | .counted => ["items", "total", "per_page"]

/-- The parts that need not be given, with the values that they have then. -/
def standardParts : PageKind → NamedValues
  | .simple =>
    [("current_page", .int 1), ("has_more", .bool false), ("page_name", .text "page"),
      ("path", .text "/")]
  | .counted => [("current_page", .int 1), ("page_name", .text "page"), ("path", .text "/")]
  | .cursor =>
    [("cursor", .null), ("next_cursor", .null), ("previous_cursor", .null),
      ("cursor_name", .text "cursor"), ("path", .text "/")]

/-- May parts be given to a page of the kind? -/
def accepts (k : PageKind) (given : NamedValues) : Bool :=
  (given.all fun p => k.requiredParts.contains p.1 || (k.standardParts.lookup p.1).isSome) &&
    k.requiredParts.all fun name => (given.lookup name).isSome

/-- The part with a name, given or standard. -/
def part (k : PageKind) (given : NamedValues) (name : String) : Value :=
  (given.lookup name).getD ((k.standardParts.lookup name).getD .null)

end PageKind

namespace Page

/-- The page of a kind with named parts. -/
def ofParts (k : PageKind) (given : NamedValues) : Except Error Page := do
  if !k.accepts given then throw .wrongKind
  let part := k.part given
  let perPage := part "per_page"
  let links := fun name => ({ name := part name, path := part "path" } : Links)
  match k with
  | .simple =>
    let items ← (part "items").items
    return .numbered { items := .plain items, perPage := perPage, current := part "current_page"
                       more := part "has_more", links := links "page_name" }
  | .counted =>
    let page ← NumberedPage.counted (.plain []) (part "total") perPage (part "current_page")
      (links "page_name")
    return .numbered { page with items := .plain (← (part "items").items) }
  | .cursor =>
    let items ← (part "items").items
    return .cursor { items := .plain items, perPage := perPage, cursor := part "cursor"
                     next := part "next_cursor", previous := part "previous_cursor"
                     links := links "cursor_name" }

/-- A text that may be there, as a value. -/
def ofText? (s : Option String) : Value := (s.map .text).getD .null

/-- What a numbered page knows under a name. -/
def inspectNumbered (p : NumberedPage) (name : String) (arguments : List Value) :
    Except Error Value :=
  match name, p.count, arguments with
  | "page_name", _, _ => .ok p.links.name
  | "current_page", _, _ => .ok p.current
  | "total", some count, _ => .ok count.total
  | "last_page", some count, _ => .ok (.int count.last)
  | "has_more_pages", _, [] => .ok p.more
  | "on_first_page", _, [] => p.onFirst.map .bool
  | "url", _, [page] => (p.url page).map .text
  | "next_page_url", _, [] => p.nextUrl.map ofText?
  | "previous_page_url", _, [] => p.previousUrl.map ofText?
  | "first_item", _, [] => p.firstItem
  | "last_item", _, [] => p.lastItem
  | name, _, _ =>
    if ["has_more_pages", "on_first_page", "url", "next_page_url", "previous_page_url",
      "first_item", "last_item"].contains name then .error .wrongKind
    else .error .noMember

/-- What a page between cursors knows under a name. -/
def inspectCursor (p : CursorPage) (name : String) (arguments : List Value) : Except Error Value :=
  match name, arguments with
  | "cursor_name", _ => .ok p.links.name
  | "cursor", _ => .ok p.cursor
  | "next_cursor", _ => .ok p.next
  | "previous_cursor", _ => .ok p.previous
  | "has_more_pages", [] => .ok (.bool (match p.next with
    | .null => false
    | _ => true))
  | "url", [c] => (p.url c).map ofText?
  | "next_page_url", [] => (p.url p.next).map ofText?
  | "previous_page_url", [] => (p.url p.previous).map ofText?
  | name, _ =>
    if ["has_more_pages", "url", "next_page_url", "previous_page_url"].contains name then
      .error .wrongKind
    else .error .noMember

/-- The rows on the page as a list. -/
def itemList (p : Page) : Value :=
  match p.items with
  | .plain rows => .list rows
  | .graph _ => .list []

/-- What a page knows under a name, where some names take arguments. -/
def inspect (p : Page) (name : String) (arguments : List Value) : Except Error Value :=
  match name, arguments with
  | "items", _ => .ok p.itemList
  | "item", [position] => p.itemList.item position
  | "len", _ => .ok (.int p.items.length)
  | "name", _ => .ok p.links.name
  | "path", _ => .ok p.links.path
  | "query", _ => .ok (.map p.links.query)
  | "per_page", _ => .ok (match p with
    | .numbered p => p.perPage
    | .cursor p => p.perPage)
  | name, arguments =>
    match p with
    | .numbered p => inspectNumbered p name arguments
    | .cursor p => inspectCursor p name arguments

/-- The page whose links carry further parameters, some of which are given by name. The names of
what the change itself is made of cannot be given so. -/
def appended (p : Page) (params : List Value) (byName : NamedValues) : Except Error Page :=
  let taken := fun e : String × Value => e.1 == "self" || e.1 == "params" && !params.isEmpty
  if 1 < params.length || byName.any taken then .error .wrongKind
  else
    let extra := Value.map (byName.map fun e => (.text e.1, e.2))
    (p.links.appends (params ++ [extra])).map p.withLinks

/-- The page whose links have the path that is given. -/
def pathed (p : Page) (arguments : List Value) : Except Error Page :=
  match arguments with
  | [path] => .ok (p.withLinks (p.links.withPath path))
  | _ => .error .wrongKind

end Page

end Listing
