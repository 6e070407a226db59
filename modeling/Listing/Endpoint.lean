import Listing.Declaration
import Listing.Params
import Listing.Request.Filtering
import Listing.Request.Ordering
import Listing.Request.Paging
import Listing.Request.Selection
import Listing.Source

/-!
# Endpoints

An `Endpoint` answers requests from a source. It holds the settings, and what requests may select,
include, filter and order by; each of these components is made from the settings when it is first
asked for, and a selector and a sorter that have not been made take no part in requests.

`Endpoint.script` is the script of a request, and `Endpoint.prepare` the source that it leaves. Rows
and pages are read from that source.
-/

namespace Listing

/-- What answers requests from a source. -/
structure Endpoint where
  name : String := "DataProvider"
  source : Source
  /-- The settings, laid over the built-in ones. -/
  config : Entries
  selector : Option Selector := none
  filters : Option FilterPipeline := none
  sorter : Option Sorter := none
  pagination : Option Pagination := none

/-- What a kind of endpoint declares. -/
structure Declared where
  filters : Option Value := none
  sort : Option Value := none
  sortDefault : Option Value := none
  fields : Option Value := none
  inclusions : Option Value := none

namespace Endpoint

/-- An endpoint without declarations. -/
def make (source : Source) (config defaults : Value) : Except Error Endpoint := do
  return { source := source, config := ← Settings.resolve config defaults }

/-- A short description. -/
def description (e : Endpoint) : String :=
  "<" ++ e.name ++ " source=" ++ e.source.description ++ ">"

/-! ## Components -/

/-- What components are made from. -/
def configuration (e : Endpoint) : Value := .map e.config

/-- A selector made from a configuration. -/
def makeSelector (config : Value) : Except Error Selector :=
  (SelectorSettings.ofConfig config).map fun s => { settings := s }

/-- A filter pipeline made from a configuration. -/
def makeFilters (config : Value) : Except Error FilterPipeline :=
  (FilterSettings.ofConfig config).map fun s => { settings := s }

/-- A sorter made from a configuration. -/
def makeSorter (config : Value) : Except Error Sorter :=
  (SortSettings.ofConfig config).map fun s => { settings := s }

/-- A pagination made from a configuration. -/
def makePagination (config : Value) : Except Error Pagination :=
  (PagingSettings.ofConfig config).map fun s => ⟨s⟩

/-- A component, made if there is none. -/
def orMake {α : Type} (component : Option α) (make : Except Error α) : Except Error α :=
  match component with
  | some a => .ok a
  | none => make

/-- The selector, made if there is none. -/
def theSelector (e : Endpoint) : Except Error Selector :=
  orMake e.selector (makeSelector e.configuration)

/-- The filter pipeline, made if there is none. -/
def theFilters (e : Endpoint) : Except Error FilterPipeline :=
  orMake e.filters (makeFilters e.configuration)

/-- The sorter, made if there is none. -/
def theSorter (e : Endpoint) : Except Error Sorter := orMake e.sorter (makeSorter e.configuration)

/-- The pagination, made if there is none. -/
def thePagination (e : Endpoint) : Except Error Pagination :=
  orMake e.pagination (makePagination e.configuration)

/-! ## Declarations -/

/-- What a declaration leaves, and what is wrong with it. A component that it made stays. -/
abbrev Outcome := Endpoint × Option Error

/-- Change a component, which is made if there is none. -/
def change {α : Type} (e : Endpoint) (component : Except Error α) (store : α → Endpoint)
    (update : α → Except Error α) : Outcome :=
  match component with
  | .error x => (e, some x)
  | .ok a =>
    match update a with
    | .error x => (store a, some x)
    | .ok b => (store b, none)

/-- Declare the fields. -/
def declareFields (e : Endpoint) (v : Value) : Outcome :=
  e.change e.theSelector (fun s => { e with selector := some s })
    fun s => (Declaration.fields v).map fun fields => { s with fields := fields }

/-- Declare the includes. -/
def declareInclusions (e : Endpoint) (v : Value) : Outcome :=
  e.change e.theSelector (fun s => { e with selector := some s })
    fun s => (Declaration.inclusions v).map fun inclusions => { s with inclusions := inclusions }

/-- Declare the filters. -/
def declareFilters (e : Endpoint) (v : Value) : Outcome :=
  e.change e.theFilters (fun p => { e with filters := some p })
    fun p => (Declaration.filters v).map fun filters => { p with filters := filters }

/-- Declare the sort attributes. -/
def declareSort (e : Endpoint) (v : Value) : Outcome :=
  e.change e.theSorter (fun s => { e with sorter := some s })
    fun s => (Declaration.sortKeys v).map fun keys => { s with attributes := keys }

/-- Declare the default order. -/
def declareSortDefault (e : Endpoint) (v : Value) : Outcome :=
  e.change e.theSorter (fun s => { e with sorter := some s })
    fun s => .ok { s with standard := v }

/-- Declare what is given. -/
def declareOne (declare : Endpoint → Value → Outcome) (given : Option Value) (e : Endpoint) :
    Except Error Endpoint :=
  match given with
  | none => .ok e
  | some v =>
    match declare e v with
    | (e, none) => .ok e
    | (_, some x) => .error x

/-- Declare everything that is given. -/
def declare (e : Endpoint) (d : Declared) : Except Error Endpoint := do
  let e ← e.declareOne declareFilters d.filters
  let e ← e.declareOne declareSort d.sort
  let e ← e.declareOne declareSortDefault d.sortDefault
  let e ← e.declareOne declareFields d.fields
  e.declareOne declareInclusions d.inclusions

/-- The endpoint of a kind with its own settings and declarations; what counts as nothing is not
declared. -/
def dedicated (name : String) (source : Except Error Source) (own config defaults : Value)
    (d : Declared) : Except Error Endpoint := do
  let layer ← Settings.merge [own, config]
  let e ← make (← source) (.map layer) defaults
  let given := fun v : Option Value => v.filter Value.truthy
  { e with name := name }.declare
    ⟨given d.filters, given d.sort, given d.sortDefault, given d.fields, given d.inclusions⟩

/-! ## Requests -/

/-- The parameters of a request. -/
def parameters (request : Value) : Except Error Entries := do (← Params.ofRequest request).entries

/-- The script of a component. -/
def scriptOf {α : Type} (component : Except Error α) (script : α → Script) : Script :=
  match component with
  | .error x => .fail x
  | .ok a => script a

/-- The script of a component that may not have been made. -/
def scriptIfMade {α : Type} (component : Option α) (script : α → Script) : Script :=
  (component.map script).getD .done

/-- The script of a request. -/
def script (e : Endpoint) (params : Entries) : Script :=
  .sequence [
    scriptIfMade e.selector fun s => s.script (.ok (.text e.source.selfName)) params,
    scriptOf e.theFilters fun p => p.script e.source.supportsRelations params,
    scriptIfMade e.sorter fun s => s.script params]

/-- The source after a request with these parameters. -/
def prepareWith (e : Endpoint) (params : Entries) : Except Error Source :=
  e.source.run (e.script params)

/-- The source after a request. -/
def prepare (e : Endpoint) (request : Value) : Except Error Source := do
  e.prepareWith (← parameters request)

/-- The rows of a request. -/
def get (e : Endpoint) (request : Value) : Except Error Rows := do (← e.prepare request).get

/-- How a page is read from a source: by the state of the request, and the selected columns. -/
abbrev PageReader := Pagination → PagingState → Source → (columns : Value) → Except Error Page

/-- The page of a request. -/
def page (e : Endpoint) (read : PageReader) (request : Value) : Except Error Page := do
  let params ← Params.ofRequest request
  let pagination ← e.thePagination
  let params ← match params with
    | .map es => pure es
    | v => .error (.specification (.unsupportedRequest v.typeName))
  let source ← e.prepareWith params
  let path ← Params.pathOf request
  let state ← pagination.state params
  let columns ← source.selectedColumns
  let page ← read pagination state source ((columns.map Value.list).getD .null)
  pagination.finish params ((path.map .text).getD .null) page

/-- The page of a request, with the number of all rows. -/
def paginate (e : Endpoint) (request : Value) : Except Error Page :=
  e.page (fun p state source columns => do
    let number := (state.page.map Value.int).getD .null
    return .numbered (← source.paginate state.perPage columns (← p.pageName) number)) request

/-- The page of a request, without the number of all rows. -/
def simplePaginate (e : Endpoint) (request : Value) : Except Error Page :=
  e.page (fun p state source columns => do
    let number := (state.page.map Value.int).getD .null
    return .numbered (← source.simplePaginate state.perPage columns (← p.pageName) number)) request

/-- The page of a request at its cursor. -/
def cursorPaginate (e : Endpoint) (request : Value) : Except Error Page :=
  e.page (fun p state source columns => do
    let name ← p.cursorName
    return .cursor (← source.cursorPage state.perPage columns name state.cursor)) request

end Endpoint

end Listing
