import Listing.Call

/-!
# Callbacks

A callback is a function of an application that adjusts a source: it makes calls by name, with
arguments that are fixed values, the name or the value that it is called with, and lists of these.
It may return the source that its calls lead to, or nothing, in which case the source that it was
given stays.

`Value.called` is the script of a callback that is called. `Value.argument` is a value as an
argument, in which functions are the scripts that they run.
-/

namespace Listing

/-- What a callback is called with; what is missing is null. -/
structure Occasion where
  name : Value := .null
  value : Value := .null

/-- The columns that an argument lists, none where it counts as nothing. -/
def readColumns (columns : Value) : Except Error (List Value) :=
  if columns.truthy then columns.items else .ok []

namespace Script

/-- The script that takes columns into the selection one by one. -/
def selectAll (columns : Value) : Script :=
  match readColumns columns with
  | .ok vs => .mk (vs.map Call.select) none
  | .error e => fail e

/-- The arguments of a capability, of which the first list holds the values and the second one the
same arguments with functions as scripts. Only what refines a source is read as code. -/
def argumentsOf (c : Capability) (values : List Value) (arguments : List Argument) :
    List Argument :=
  match c, values, arguments with
  | .any, _, arguments => arguments
  | .has, v :: _, _ :: rest | .load, v :: _, _ :: rest => .value v :: rest
  | _, values, _ => values.map .value

/-- The script of a method that is called by name. -/
def ofMethod (method : String) (values : List Value) (arguments : List Argument) : Script :=
  match Capability.named? method with
  | some c => one (.ask c (argumentsOf c values arguments))
  | none =>
    match method, values with
    | "with_columns", [columns] => selectAll columns
    | "copy", [] => done
    | "with_columns", _ | "copy", _ | "supports_relations", _ | "name", _ => fail .wrongKind
    | _, _ => fail .noMember

end Script

/-- Is the last one of some calls by name a question? -/
def endsInQuestion (calls : List (String × List Slot)) : Bool :=
  match calls.getLast? with
  | some c => (Question.named? c.1).isSome
  | none => false

/-- A value as an argument that holds no code. -/
def Value.plainArgument (v : Value) : Argument :=
  match v.items with
  | .ok vs => .several (vs.map .value)
  | .error _ => .value v

mutual

/-- A value as an argument. A function in it is called with the source alone. -/
def Value.argument : Value → Argument
  | .function calls returnsNothing =>
    let s := scriptOfCalls {} (!returnsNothing) calls
    .script (if returnsNothing || endsInQuestion calls then s.quiet else s)
  | .list vs => .several (valueArguments vs)
  | .tuple vs => .several (valueArguments vs)
  | .set vs => .several (valueArguments vs)
  | .map es => .several (keyArguments es)
  | v => v.plainArgument

/-- Values as arguments. -/
def valueArguments : List Value → List Argument
  | [] => []
  | v :: vs => v.argument :: valueArguments vs

/-- The keys of entries as arguments. -/
def keyArguments : List (Value × Value) → List Argument
  | [] => []
  | (k, _) :: es => k.argument :: keyArguments es

/-- The value that a slot is filled with. -/
def Slot.value (o : Occasion) : Slot → Value
  | .fixed v => v
  | .theName => o.name
  | .theValue => o.value
  | .list items => .list (slotValues o items)

/-- The values that slots are filled with. -/
def slotValues (o : Occasion) : List Slot → List Value
  | [] => []
  | s :: ss => s.value o :: slotValues o ss

/-- What a slot is filled with as an argument. -/
def Slot.argument (o : Occasion) : Slot → Argument
  | .fixed v => v.argument
  | .theName => o.name.plainArgument
  | .theValue => o.value.plainArgument
  | .list items => .several (slotArguments o items)

/-- What slots are filled with as arguments. -/
def slotArguments (o : Occasion) : List Slot → List Argument
  | [] => []
  | s :: ss => s.argument o :: slotArguments o ss

/-- The script of calls by name. A question that is not the last one leaves no source to go on
with; the answer to the last one may be heeded. -/
def scriptOfCalls (o : Occasion) (heeded : Bool) : List (String × List Slot) → Script
  | [] => .done
  | (method, slots) :: rest =>
    match Question.named? method with
    | some q =>
      if !slots.isEmpty then .fail .wrongKind
      else if rest.isEmpty then .mk [.peek q heeded] none
      else .mk [.peek q false] (some .noMember)
    | none =>
      (Script.ofMethod method (slotValues o slots) (slotArguments o slots)).andThen
        (scriptOfCalls o heeded rest)

end

/-- The script of a value that is called, which has to be a function. -/
def Value.called (o : Occasion) : Value → Script
  | .function calls returnsNothing =>
    let s := scriptOfCalls o (!returnsNothing) calls
    if returnsNothing || endsInQuestion calls then s.quiet else s
  | _ => .fail .wrongKind

end Listing
