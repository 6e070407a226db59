import Listing.Callback
import Listing.Text.Case
import Listing.Value.Attribute

/-!
# Running calls

`Capabilities` says what the calls of a script do to a source of one kind. Code among the arguments
of a call is handed to them as a function on sources, which they may run on related rows, on a blank
source, or not at all. `Script.run` runs a script: its calls one after the other, each on what the
last one left.
-/

namespace Listing

/-- An argument of a call as a source gets it. -/
inductive Given (σ : Type)
  | value (v : Value)
  | code (run : σ → Except Error σ)
  | several (items : List (Given σ))

/-- What calls do to sources. -/
structure Capabilities (σ : Type) where
  /-- Ask a source for a capability with as many arguments as it takes. -/
  ask : σ → Capability → List (Given σ) → Except Error σ
  /-- Ask a source a question: is the answer nothing? -/
  peek : σ → Question → Except Error Bool

variable {σ : Type}

namespace Given

/-- Run code on a source. -/
def run (g : Given σ) (s : σ) : Except Error σ :=
  match g with
  | .code run => run s
  | _ => .error .wrongKind

/-- Refine a source, which stays as it is where null is given. -/
def refine (g : Given σ) (s : σ) : Except Error σ :=
  match g with
  | .value .null => .ok s
  | g => g.run s

/-- The arguments in a collection. -/
def items : Given σ → Except Error (List (Given σ))
  | .several gs => .ok gs
  | _ => .error .wrongKind

end Given

mutual

/-- Run a call. -/
def Call.run (k : Capabilities σ) (s : σ) : Call → Except Error σ
  | .ask c arguments =>
    if c.accepts arguments.length then k.ask s c (argumentsGiven k arguments)
    else .error .wrongKind
  | .peek question heeded => do
    if !(← k.peek s question) && heeded then .error .noMember
    else return s
  | .aside cs => do
    let _ ← callsRun k s cs
    return s

/-- Run calls. -/
def callsRun (k : Capabilities σ) (s : σ) : List Call → Except Error σ
  | [] => .ok s
  | c :: cs => do callsRun k (← c.run k s) cs

/-- Run a script. -/
def Script.run (k : Capabilities σ) (s : σ) : Script → Except Error σ
  | .mk cs failure => do
    let s ← callsRun k s cs
    match failure with
    | some e => .error e
    | none => return s

/-- An argument as a source gets it. -/
def Argument.given (k : Capabilities σ) : Argument → Given σ
  | .value v => .value v
  | .script script => .code fun s => script.run k s
  | .several items => .several (argumentsGiven k items)

/-- Arguments as a source gets them. -/
def argumentsGiven (k : Capabilities σ) : List Argument → List (Given σ)
  | [] => []
  | a :: as => a.given k :: argumentsGiven k as

end

/-! ## Directions -/

/-- The direction of an order. -/
inductive Direction
  | ascending
  | descending
  deriving DecidableEq

namespace Direction

/-- The text of a direction. -/
def text : Direction → String
  | .ascending => "asc"
  | .descending => "desc"

/-- The direction that a value names. A member of an enumeration, or anything else that has
a `value`, names what that names. -/
def ofValue (v : Value) : Except Error Direction :=
  match v with
  | .null => .ok .ascending
  | v =>
    let inner := (v.attribute? "value").getD v
    if !inner.hasText then .error .badValue
    else if Text.lower (Text.strip inner.toText) = "desc" then .ok .descending
    else .ok .ascending

end Direction

end Listing
