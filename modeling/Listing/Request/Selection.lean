import Listing.Declaration
import Listing.Operation
import Listing.Settings
import Listing.Value.Attribute
import Listing.Value.Pairs

/-!
# Selection

A request selects fields by name, fields of a relation under the name of their group, and includes
by their dotted names. `Selector.fieldPlan` and `Selector.inclusionPlan` resolve a whole request
against what is declared, and `Selector.script` is the script of both plans; a request that names
anything else has no plan, so that nothing of it is applied.

With an own name the fields of the listing itself are requested under that name, as if they were the
group of a relation.
-/

namespace Listing

/-- The parameter under a keyword; null where it is missing. -/
def Entries.parameter (params : Entries) (keyword : Value) : Except Error Value :=
  if keyword.hashable then .ok ((Entries.get? params keyword).getD .null) else .error .wrongKind

/-- The texts of a path. -/
def pathTexts (path : List Value) : Except Error (List String) :=
  path.mapM fun v => match v with
    | .text s => .ok s
    | _ => .error .wrongKind

/-- A place in the request, for messages. -/
def location (path : List Value) : Except Error String := do
  return joined "->" (← pathTexts path)

/-- A step of a plan: an entry that is declared under a name, or the plan for the fields of
a relation. -/
inductive FieldStep
  | field (name : String) (entry : Value)
  | relation (name : Value) (steps : List FieldStep)

namespace FieldStep

mutual

/-- The script of a step. -/
def script : FieldStep → Script
  | .field name entry => Operation.applied false entry [.text name]
  | .relation name steps => .one (.load name (.script (scriptOf steps)))

/-- The script of steps. -/
def scriptOf : List FieldStep → Script
  | [] => .done
  | s :: ss => (script s).andThen (scriptOf ss)

end

end FieldStep

/-- What a request may select. -/
structure Selector where
  settings : SelectorSettings := {}
  fields : Registry Field := []
  inclusions : Registry Inclusion := []

namespace Selector

/-! ## The plan for fields -/

/-- What is declared under a name, null if nothing is. Only a map declares anything. -/
def declared (fields name : Value) : Except Error Value :=
  match fields with
  | .map es => .ok ((Entries.get? es name).getD .null)
  | v => .error (v.operationFault "get")

/-- The step for a value at a position, which has to name something declared that is no group. -/
def fieldStep (fields : Value) (path : List Value) (v : Value) : Except Error FieldStep := do
  let refused := do .error (.query (.unsupportedField v.stripped (← location path)))
  match v.stripped with
  | .text name =>
    match ← declared fields (.text name) with
    | .null | .finished .fieldGroup _ => refused
    | entry => return .field name entry
  | _ => refused

/-- The name and the fields of the group under a key. -/
def group (fields : Value) (path : List Value) (key : Value) : Except Error (Value × Value) := do
  match Field.ofValue? (← declared fields key) with
  | some (.group name inner) => return (name, inner)
  | _ => .error (.query (.unsupportedInclude key (← location path)))

mutual

/-- The steps that a value under a group asks for. -/
def planValue (fields : Value) (path : List Value) : Value → Except Error (List FieldStep)
  | .text s => do
    let _ ← location path
    (commaList s).mapM fun name => fieldStep fields path (.text name)
  | .map es => do
    let _ ← location path
    planEntries fields path es
  | .list vs => do
    let _ ← location path
    planItems fields path 0 vs
  | .tuple vs => do
    let _ ← location path
    planItems fields path 0 vs
  | .set vs => do
    let _ ← location path
    planItems fields path 0 vs
  | _ => do .error (.query (.notAList (← location path) "fields"))
termination_by structural v => v

/-- The steps that keys and values ask for. -/
def planEntries (fields : Value) (path : List Value) :
    List (Value × Value) → Except Error (List FieldStep)
  | [] => .ok []
  | (key, v) :: es => do
    let step ← if key.isPosition then fieldStep fields path v
      else do
        let (name, inner) ← group fields path key
        let steps ← planValue inner (path ++ [key]) v
        pure (FieldStep.relation name steps)
    return step :: (← planEntries fields path es)
termination_by structural es => es

/-- The steps that the items of a list ask for. -/
def planItems (fields : Value) (path : List Value) (i : Nat) :
    List Value → Except Error (List FieldStep)
  | [] => .ok []
  | .map es :: vs => do
    let first ← planEntries fields path es
    return first ++ (← planItems fields path i vs)
  | v :: vs => do
    let step ← fieldStep fields path v
    return step :: (← planItems fields path (i + 1) vs)
termination_by structural vs => vs

end

/-- The name under which fields of the listing itself are requested, null if there is none. -/
def ownName (s : Selector) (sourceName : Except Error Value) : Except Error Value :=
  match s.settings.ownName with
  | .bool true => sourceName
  | .text name => .ok (if name.toList.isEmpty then .null else .text name)
  | _ => .ok .null

/-- The keys and values of a request for fields. -/
def requestedFields (s : Selector) (raw : Value) : Except Error (List (Value × Value)) :=
  match raw with
  | .text names => .ok (Value.positioned 0 ((commaList names).map .text))
  | raw =>
    match raw.pairs? with
    | some ps => .ok ps
    | none => do .error (.query (.notAList (← s.settings.fieldsKeyword.asText) "fields"))

/-- The steps of the requests under the own name, and the other requests. -/
def splitOwn (own : Registry Field) (keyword name : Value) :
    List (Value × Value) → Except Error (List FieldStep × List (Value × Value))
  | [] => .ok ([], [])
  | (key, v) :: ps => do
    if ← key.equal? name then
      if own.isEmpty then throw (.query (.unsupportedInclude name (← keyword.asText)))
      let steps ← planValue (own.toMap Field.toValue) [keyword, name] v
      let (more, rest) ← splitOwn own keyword name ps
      return (steps ++ more, rest)
    else
      let (steps, rest) ← splitOwn own keyword name ps
      return (steps, (key, v) :: rest)

/-- The plan for the fields of a request. -/
def fieldPlan (s : Selector) (sourceName : Except Error Value) (params : Entries) :
    Except Error (List FieldStep) := do
  let keyword := s.settings.fieldsKeyword
  match ← params.parameter keyword with
  | .null => return []
  | raw =>
    let requested ← s.requestedFields raw
    match ← s.ownName sourceName with
    | .null =>
      let _ ← location [keyword]
      planEntries (s.fields.toMap Field.toValue) [keyword] requested
    | name =>
      let own := s.fields.filter fun e => !e.2.isGroup
      let groups : Registry Field := s.fields.filter fun e => e.2.isGroup
      let (first, rest) ← splitOwn own keyword name requested
      let _ ← location [keyword]
      return first ++ (← planEntries (groups.toMap Field.toValue) [keyword] rest)

/-! ## The plan for includes -/

/-- The names that a request for includes lists. -/
def requestedInclusions (s : Selector) (raw : Value) : Except Error (List Value) :=
  match raw with
  | .text names => .ok ((commaList names).map .text)
  | .map es => .ok (Entries.values es)
  | raw =>
    match raw.collection? with
    | some vs => .ok vs
    | none => do .error (.query (.notAList (← s.settings.includeKeyword.asText) "includes"))

/-- The include that a value names. -/
def inclusionStep (s : Selector) (v : Value) : Except Error (String × Inclusion) := do
  let refused := do
    .error (.query (.unsupportedInclude v.stripped (← s.settings.includeKeyword.asText)))
  match v.stripped with
  | .text name =>
    match s.inclusions.get? name with
    | some i => return (name, i)
    | none => refused
  | _ => refused

/-- The plan for the includes of a request. -/
def inclusionPlan (s : Selector) (params : Entries) : Except Error (List (String × Inclusion)) := do
  match ← params.parameter s.settings.includeKeyword with
  | .null => return []
  | raw => (← s.requestedInclusions raw).mapM s.inclusionStep

/-! ## The script -/

/-- The script of a plan for includes. -/
def inclusionScript : List (String × Inclusion) → Script
  | [] => .done
  | (name, i) :: rest => (i.script (.text name)).andThen (inclusionScript rest)

/-- The script of a request. -/
def script (s : Selector) (sourceName : Except Error Value) (params : Entries) : Script :=
  match s.fieldPlan sourceName params with
  | .error e => .fail e
  | .ok steps =>
    match s.inclusionPlan params with
    | .error e => .fail e
    | .ok includes => (FieldStep.scriptOf steps).andThen (inclusionScript includes)

end Selector

end Listing
