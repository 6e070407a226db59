import Listing.Declaration
import Listing.Request.Selection

/-!
# Ordering

A request orders by declared attributes, each with a hyphen in front for the descending direction.
`Sorter.orders` resolves a request into columns with directions; a request that lists nothing gets
the default order. Where several attributes use one column, the column keeps its first place and
takes its last direction.
-/

namespace Listing

/-- What a request may order by. -/
structure Sorter where
  settings : SortSettings := {}
  attributes : Registry SortKey := []
  standard : Value := .null

namespace Sorter

/-- The fault of a request that does not list sort attributes. -/
def notAList {α : Type} (s : Sorter) : Except Error α := do
  .error (.query (.notAList (← s.settings.keyword.asText) "sort attributes"))

/-- The tokens of a collection, which has to hold texts only. -/
def tokensOf (s : Sorter) (vs : List Value) : Except Error (List String) :=
  match vs.mapM Value.text? with
  | some names => .ok ((names.map Text.strip).filter fun name => !name.toList.isEmpty)
  | none => s.notAList

/-- The tokens that a value lists. -/
def tokens (s : Sorter) (raw : Value) : Except Error (List String) :=
  match raw with
  | .text names => splitList s.settings.separator names
  | .map es => s.tokensOf (Entries.values es)
  | raw =>
    match raw.collection? with
    | some vs => s.tokensOf vs
    | none => s.notAList

/-- Does a token ask for the descending direction, and which attribute does it name? -/
def readToken (token : String) : Bool × String :=
  match token.toList with
  | '-' :: name => (true, String.ofList name)
  | _ => (false, token)

/-- What a token stands for, if it is declared. -/
def tokenOrders? (s : Sorter) (token : String) : Option Value :=
  let (descends, name) := readToken token
  (s.attributes.get? name).map fun k => k.orders descends

/-- The orders of tokens, laid over those that are there, and the tokens that are not declared. -/
def expandOver (s : Sorter) : Orders → List String → Except Error (Orders × List String)
  | os, [] => .ok (os, [])
  | os, t :: ts =>
    match s.tokenOrders? t with
    | some listed => do expandOver s (← os.extend listed) ts
    | none => do
      let (os, unsupported) ← expandOver s os ts
      return (os, t :: unsupported)

/-- The orders of tokens, and the tokens that are not declared. -/
def expand (s : Sorter) (ts : List String) : Except Error (Orders × List String) :=
  s.expandOver [] ts

/-- The default order. -/
def standardOrders (s : Sorter) : Except Error Orders := do
  if s.standard.isEmpty then return []
  else
    match ← s.expand (← s.tokens s.standard) with
    | (os, []) => return os
    | (_, unsupported) => .error (.specification (.undeclaredDefault (joined ", " unsupported)))

/-- Tokens as they stand in a request. -/
def rejoined (s : Sorter) (ts : List String) : Except Error String :=
  match s.settings.separator with
  | .text separator => .ok (joined separator ts)
  | v => .error (v.operationFault "join")

/-- The orders of a request with the value `raw`. -/
def orders (s : Sorter) (raw : Value) : Except Error Orders := do
  let ts ← if raw.isEmpty then pure [] else s.tokens raw
  if ts.isEmpty then s.standardOrders
  else if !s.settings.multisort.truthy && 1 < ts.length then .error (.query .multipleSort)
  else
    match ← s.expand ts with
    | (os, []) => return os
    | (_, unsupported) => .error (.query (.unsupportedSort (← s.rejoined unsupported)))

/-- The script of orders. -/
def scriptOf (os : Orders) : Script := .mk (os.map fun o => .order o.1 o.2) none

/-- The script of a request. -/
def script (s : Sorter) (params : Entries) : Script :=
  .ofExcept do return scriptOf (← s.orders (← params.parameter s.settings.keyword))

end Sorter

end Listing
