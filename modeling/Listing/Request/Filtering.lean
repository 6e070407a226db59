import Listing.Declaration
import Listing.Request.Selection

/-!
# Filtering

With a keyword a request holds its filters in a map under it, and every name in the map has to be
declared; without one every declared name among the parameters is a filter. Filters with an empty
value are left out. `FilterPipeline.steps` resolves a request, `FilterPipeline.script` is the script
of the steps.
-/

namespace Listing

/-- What a request may filter by. -/
structure FilterPipeline where
  settings : FilterSettings := {}
  filters : Registry Filter := []

/-- A filter with the name and the value that it is requested with. -/
structure FilterStep where
  name : Value
  filter : Filter
  value : Value

namespace FilterPipeline

/-- The filter that a key names. -/
def named? (p : FilterPipeline) (key : Value) : Option Filter := key.text?.bind p.filters.get?

/-- The steps for entries of parameters. -/
def stepsOf (p : FilterPipeline) (es : Entries) : List FilterStep :=
  es.filterMap fun e =>
    match p.named? e.1 with
    | some f => if e.2.isEmpty then none else some ⟨e.1, f, e.2⟩
    | none => none

/-- The steps of a request. -/
def steps (p : FilterPipeline) (params : Entries) : Except Error (List FilterStep) := do
  match p.settings.keyword with
  | .null => return p.stepsOf params
  | keyword =>
    match ← params.parameter keyword with
    | .null => return []
    | .map es =>
      match es.find? fun e => (p.named? e.1).isNone with
      | some e => .error (.query (.unsupportedFilter e.1))
      | none => return p.stepsOf es
    | _ => .error (.query (.notAList (← keyword.asText) "filters"))

/-- The script of a step. -/
def stepScript (relations : Bool) (s : FilterStep) : Script :=
  s.filter.script relations s.name s.value

/-- The script of a request. -/
def script (p : FilterPipeline) (relations : Bool) (params : Entries) : Script :=
  .ofExcept do return .sequence ((← p.steps params).map (stepScript relations))

end FilterPipeline

end Listing
