import Listing.Value.Kind
import Listing.Value.Equality

/-!
# Settings

Settings are nested maps. `merge` lays one layer over the other: maps are merged key by key, and any
other value, `null` included, takes the place of what was there. `resolve` lays the layers over
`builtin`.

Each component reads its own part into a structure (`SelectorSettings`, `FilterSettings`,
`SortSettings`, `PagingSettings`), from a layer or from finished settings of its own. What a setting
holds is looked at when it is used; a layer has to hold integers for the bounds of page sizes.
-/

namespace Listing

namespace Settings

mutual

/-- What a value of a layer makes of the value that is there. -/
def mergedValue (current : Option Value) : Value → Value
  | .map es =>
    match current with
    | some (.map cs) => .map (mergedEntries cs es)
    | _ => .map (mergedEntries [] es)
  | v => v

/-- Lay the entries of a layer over those that are there. -/
def mergedEntries (target : Entries) : List (Value × Value) → Entries
  | [] => target
  | (k, v) :: es => mergedEntries (target.insert k (mergedValue (target.get? k) v)) es

end

/-- Lay one layer over the entries that are there. A layer that counts as nothing changes
nothing. -/
def mergeLayer (target : Entries) (layer : Value) : Except Error Entries :=
  match layer with
  | .map es => .ok (mergedEntries target es)
  | v => if v.truthy then .error .noMember else .ok target

/-- Lay layers over each other, the last one on top. -/
def merge (layers : List Value) : Except Error Entries := layers.foldlM mergeLayer []

/-- A map with texts as keys. -/
def named (es : List (String × Value)) : Value := .map (es.map fun e => (.text e.1, e.2))

/-- The settings that hold where nothing else is said. -/
def builtin : Value :=
  named [
    ("fields", named [("keyword", .text "fields"), ("source_self_name", .bool false)]),
    ("include", named [("keyword", .text "include")]),
    ("filter", named [("keyword", .text "filter")]),
    ("sort", named [("keyword", .text "sort"), ("enable_multisort", .bool false),
      ("separator", .text ",")]),
    ("pagination", named [("keyword", .null), ("appends", .bool true),
      ("page", named [("keyword", .text "page")]),
      ("per_page", named [("keyword", .text "per-page"), ("min", .int 1), ("max", .int 100),
        ("default", .int 15)]),
      ("cursor", named [("keyword", .text "cursor")])])]

/-- The settings with the defaults of an application and those of one listing laid over the built-in
ones. -/
def resolve (config defaults : Value) : Except Error Entries := merge [builtin, defaults, config]

/-- The setting with a name. -/
def setting (v : Value) (name : String) : Except Error Value :=
  match v with
  | .map es => ((Entries.get? es (.text name)).map .ok).getD (.error .noKey)
  | _ => .error .wrongKind

end Settings

/-- What settings are read from: the parts of finished settings, or a resolved layer. -/
inductive Layer
  | parts (parts : List Value)
  | resolved (settings : Value)

/-- A configuration for a component with settings of a form. -/
def Layer.of (form : Form) (config : Value) : Except Error Layer :=
  match config with
  | .finished f ps => if f = form then .ok (.parts ps) else .error .noMember
  | config => (Settings.resolve config .null).map fun es => .resolved (.map es)

/-- How fields and includes are requested. -/
structure SelectorSettings where
  fieldsKeyword : Value := .text "fields"
  includeKeyword : Value := .text "include"
  /-- The name under which fields of the listing itself are requested: the source's own name where
  it is true, no name where it is neither true nor a text. -/
  ownName : Value := .bool false

namespace SelectorSettings

/-- The settings as a value. -/
def toValue (s : SelectorSettings) : Value :=
  .finished .selectorSettings [s.fieldsKeyword, s.includeKeyword, s.ownName]

/-- The settings that a configuration gives. -/
def ofConfig (config : Value) : Except Error SelectorSettings := do
  match ← Layer.of .selectorSettings config with
  | .parts [fieldsKeyword, includeKeyword, ownName] =>
    return ⟨fieldsKeyword, includeKeyword, ownName⟩
  | .parts _ => .error .wrongKind
  | .resolved cfg =>
    let fields ← Settings.setting cfg "fields"
    let fieldsKeyword ← Settings.setting fields "keyword"
    let includeKeyword ← Settings.setting (← Settings.setting cfg "include") "keyword"
    let ownName ← Settings.setting fields "source_self_name"
    return ⟨fieldsKeyword, includeKeyword, ownName⟩

end SelectorSettings

/-- How filters are requested; without a keyword they are parameters of their own. -/
structure FilterSettings where
  keyword : Value := .text "filter"

namespace FilterSettings

/-- The settings as a value. -/
def toValue (s : FilterSettings) : Value := .finished .filterSettings [s.keyword]

/-- The settings that a configuration gives. -/
def ofConfig (config : Value) : Except Error FilterSettings := do
  match ← Layer.of .filterSettings config with
  | .parts [keyword] => return ⟨keyword⟩
  | .parts _ => .error .wrongKind
  | .resolved cfg => return ⟨← Settings.setting (← Settings.setting cfg "filter") "keyword"⟩

end FilterSettings

/-- How an order is requested. -/
structure SortSettings where
  keyword : Value := .text "sort"
  /-- May a request order by several attributes? -/
  multisort : Value := .bool false
  separator : Value := .text ","

namespace SortSettings

/-- The settings as a value. -/
def toValue (s : SortSettings) : Value :=
  .finished .sortSettings [s.keyword, s.multisort, s.separator]

/-- The settings that a configuration gives. -/
def ofConfig (config : Value) : Except Error SortSettings := do
  match ← Layer.of .sortSettings config with
  | .parts [keyword, multisort, separator] => return ⟨keyword, multisort, separator⟩
  | .parts _ => .error .wrongKind
  | .resolved cfg =>
    let sort ← Settings.setting cfg "sort"
    let keyword ← Settings.setting sort "keyword"
    let multisort ← Settings.setting sort "enable_multisort"
    let separator ← Settings.setting sort "separator"
    return ⟨keyword, .bool multisort.truthy, separator⟩

end SortSettings

/-- How pages are requested; with a keyword all parameters stand in a map under it. -/
structure PagingSettings where
  keyword : Value := .null
  /-- Do links carry the parameters of the request? -/
  appends : Value := .bool true
  pageKeyword : Value := .text "page"
  cursorKeyword : Value := .text "cursor"
  perPageKeyword : Value := .text "per-page"
  least : Value := .int 1
  greatest : Value := .int 100
  standard : Value := .int 15

namespace PagingSettings

/-- The settings as a value. -/
def toValue (s : PagingSettings) : Value :=
  .finished .pagingSettings [s.keyword, s.appends, s.pageKeyword, s.cursorKeyword,
    s.perPageKeyword, s.least, s.greatest, s.standard]

/-- The settings that a configuration gives. -/
def ofConfig (config : Value) : Except Error PagingSettings := do
  match ← Layer.of .pagingSettings config with
  | .parts [keyword, appends, pageKeyword, cursorKeyword, perPageKeyword, least, greatest,
      standard] =>
    return ⟨keyword, appends, pageKeyword, cursorKeyword, perPageKeyword, least, greatest, standard⟩
  | .parts _ => .error .wrongKind
  | .resolved cfg =>
    let paging ← Settings.setting cfg "pagination"
    let keyword ← Settings.setting paging "keyword"
    let appends ← Settings.setting paging "appends"
    let pageKeyword ← Settings.setting (← Settings.setting paging "page") "keyword"
    let cursorKeyword ← Settings.setting (← Settings.setting paging "cursor") "keyword"
    let perPage ← Settings.setting paging "per_page"
    let perPageKeyword ← Settings.setting perPage "keyword"
    let least ← (← Settings.setting perPage "min").toInt
    let greatest ← (← Settings.setting perPage "max").toInt
    let standard ← (← Settings.setting perPage "default").toInt
    return ⟨keyword, .bool appends.truthy, pageKeyword, cursorKeyword, perPageKeyword, .int least,
      .int greatest, .int standard⟩

end PagingSettings

namespace Settings

/-- The settings of a form that configurations give, of which there may be one. -/
def ofLayers (form : Form) (layers : List Value) : Except Error Value :=
  match layers with
  | _ :: _ :: _ => .error .wrongKind
  | layers =>
    let config := layers.head?.getD .null
    match form with
    | .selectorSettings => (SelectorSettings.ofConfig config).map SelectorSettings.toValue
    | .filterSettings => (FilterSettings.ofConfig config).map FilterSettings.toValue
    | .sortSettings => (SortSettings.ofConfig config).map SortSettings.toValue
    | .pagingSettings => (PagingSettings.ofConfig config).map PagingSettings.toValue
    | _ => .error .noMember

/-- The settings that an application's defaults and a configuration resolve to. There may be none of
both, and no more. -/
def resolveLayers : List Value → Except Error Entries
  | [] => resolve .null .null
  | [config] => resolve config .null
  | [config, defaults] => resolve config defaults
  | _ => .error .wrongKind

end Settings

end Listing
