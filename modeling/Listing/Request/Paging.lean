import Listing.Page
import Listing.Request.Selection

/-!
# Paging

`Pagination.state` reads and checks the page size, the page number and the cursor of a request.
`Pagination.finish` gives a page the links of the request.
-/

namespace Listing

/-- How a request pages; null stands for what it does not say. -/
structure PagingState where
  perPage : Value := .null
  page : Option Int := none
  cursor : Value := .null

/-- How pages are requested. -/
structure Pagination where
  settings : PagingSettings := {}

namespace Pagination

/-- The name of a parameter in links. -/
def namespaced (p : Pagination) (name : Value) : Except Error Value :=
  match p.settings.keyword with
  | .null => .ok name
  | keyword => do return .text ((← keyword.asText) ++ "[" ++ (← name.asText) ++ "]")

/-- The name of the page number in links. -/
def pageName (p : Pagination) : Except Error Value := p.namespaced p.settings.pageKeyword

/-- The name of the cursor in links. -/
def cursorName (p : Pagination) : Except Error Value := p.namespaced p.settings.cursorKeyword

/-- The integer that a parameter holds, null being none. -/
def integer? (keyword raw : Value) : Except Error (Option Int) :=
  match raw with
  | .null => .ok none
  | raw =>
    if raw.isIntegerToken then raw.toInt.map some
    else .error (.query (.integerRequired keyword))

/-- The page size of a request. -/
def perPage (p : Pagination) (params : Entries) : Except Error Value := do
  let keyword := p.settings.perPageKeyword
  match ← integer? keyword (← params.parameter keyword) with
  | none => return p.settings.standard
  | some n =>
    let least := p.settings.least
    let greatest := p.settings.greatest
    let fault := Error.query (.pageSizeOutOfRange keyword least greatest)
    if ← (Value.int n).less? least then .error fault
    else if ← Comparison.greater.holds? (.int n) greatest then .error fault
    else return .int n

/-- The page number of a request. -/
def page (p : Pagination) (params : Entries) : Except Error (Option Int) := do
  let keyword := p.settings.pageKeyword
  match ← integer? keyword (← params.parameter keyword) with
  | none => return none
  | some n => if n < 1 then .error (.query (.pageNotPositive keyword)) else return some n

/-- The state that paging parameters describe. -/
def stateOf (p : Pagination) (params : Entries) : Except Error PagingState := do
  let perPage ← p.perPage params
  let page ← p.page params
  let cursor ← params.parameter p.settings.cursorKeyword
  return ⟨perPage, page, if cursor.isEmpty then .null else cursor⟩

/-- The state that a request describes. -/
def state (p : Pagination) (params : Entries) : Except Error PagingState := do
  match p.settings.keyword with
  | .null => p.stateOf params
  | keyword =>
    let inner ← params.parameter keyword
    if inner.isEmpty then return {}
    else
      match inner with
      | .map es => p.stateOf es
      | _ => .error (.query (.notAList (← keyword.asText) "pagination parameters"))

/-- The parameters of a request with the token of a cursor in their place. -/
def atCursor (p : Pagination) (params : Entries) (token : Value) : Entries :=
  let put := fun es : Entries => es.insert p.settings.cursorKeyword token
  match p.settings.keyword with
  | .null => put params
  | keyword =>
    match params.get? keyword with
    | some (.map es) => params.insert keyword (.map (put es))
    | _ => params.insert keyword (.map (put []))

/-- The page with the parameters and the path of the request in its links. -/
def finish (p : Pagination) (params : Entries) (path : Value) (page : Page) :
    Except Error Page := do
  let links ← if p.settings.appends.truthy then page.links.appends [.map params]
    else pure page.links
  return page.withLinks (links.withPath path)

end Pagination

end Listing
