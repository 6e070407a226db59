import Listing.Error
import Listing.Number.Exact

/-!
# Equality of values

`Value.equal?` compares by meaning: the four kinds of numbers, truth values among them, are equal
where they are the same number, moments with a known distance from universal time where they are the
same instant, maps where they hold equal values under equal keys, in whatever order, and finished
values where they have one form and equal parts. What is told apart by identity (`record`, `choice`,
`request`, `function`, `object`) is equal to nothing. A decimal that signals cannot be compared with
a number, which is an error where the comparison comes to it.

A list holds a value that is equal to none where it holds that very value: `Value.same`.

`Entries` are looked up and changed by that equality, so `1` and `true` are one key.
-/

namespace Listing

/-- A number of any kind. -/
inductive Number
  | exact (x : Exact)
  | infinite (negative : Bool)
  | nan

namespace Number

/-- The number of a binary number. -/
def ofBinary : Binary64 → Number
  | .finite negative m e => .exact (.ofBinary negative m e)
  | .infinite negative => .infinite negative
  | .nan => .nan

/-- The number of a decimal. -/
def ofDecimal : Decimal → Number
  | .finite negative c e => .exact ⟨negative, c, e⟩
  | .infinite negative => .infinite negative
  | .nan _ _ _ => .nan

/-- The order of two numbers, unless one of them is none. -/
def compare? : Number → Number → Option Ordering
  | .nan, _ => none
  | _, .nan => none
  | .infinite a, .infinite b => some (if a = b then .eq else if a then .lt else .gt)
  | .infinite a, .exact _ => some (if a then .lt else .gt)
  | .exact _, .infinite b => some (if b then .gt else .lt)
  | .exact x, .exact y => some (x.compare y)

/-- Are two numbers the same? -/
def equal (x y : Number) : Bool := compare? x y == some .eq

end Number

/-- Are two moments the same? A moment without a distance from universal time is never the same as
one with it. -/
def Moment.equal (a b : Moment) : Bool :=
  a.offset.isSome == b.offset.isSome && a.instant == b.instant

namespace Value

/-- The number that a value is. -/
def number? : Value → Option Number
  | .bool b => some (.exact (.ofInt (if b then 1 else 0)))
  | .int n => some (.exact (.ofInt n))
  | .binary x => some (.ofBinary x)
  | .decimal d => some (.ofDecimal d)
  | _ => none

/-- Is the value a decimal that signals? -/
def signals : Value → Bool
  | .decimal (.nan _ signaling _) => signaling
  | _ => false

/-- Are two values the same number? -/
def equalNumbers? (a b : Value) : Except Error Bool :=
  match a.number?, b.number? with
  | some x, some y => if a.signals || b.signals then .error .undefinedOrder else .ok (x.equal y)
  | _, _ => .ok false

/-- Is the answer yes? -/
def isYes : Except Error Bool → Bool
  | .ok b => b
  | .error _ => false

mutual

/-- Do two values mean the same? -/
def equal? : Value → Value → Except Error Bool
  | .null, .null => .ok true
  | .text s, .text t => .ok (s == t)
  | .bytes a, .bytes b => .ok (a == b)
  | .moment a, .moment b => .ok (a.equal b)
  | .date a, .date b => .ok (a == b)
  | .list a, .list b => if a.length == b.length then equalItems? a b else .ok false
  | .tuple a, .tuple b => equalItems? a b
  | .set a, .set b => .ok (a.length == b.length && subset a b)
  | .map a, .map b => if a.length == b.length then submap? a b else .ok false
  | .cursor a f, .cursor b g =>
    if a.length == b.length then (submap? a b).map fun same => same && f == g else .ok false
  | .finished f a, .finished g b => if f = g then equalItems? a b else .ok false
  | a, b => equalNumbers? a b

/-- Are two lists of values equal item by item? -/
def equalItems? : List Value → List Value → Except Error Bool
  | a :: as, b :: bs => do
    if ← equal? a b then equalItems? as bs else return false
  | [], [] => .ok true
  | _, _ => .ok false

/-- Does every value of the first list occur in the second? -/
def subset : List Value → List Value → Bool
  | [], _ => true
  | a :: as, bs => (bs.any fun b => isYes (equal? a b)) && subset as bs

/-- Does the second map have an equal value under every key of the first? -/
def submap? : List (Value × Value) → List (Value × Value) → Except Error Bool
  | [], _ => .ok true
  | (k, v) :: es, fs =>
    match fs.find? fun f => isYes (equal? k f.1) with
    | none => .ok false
    | some f => do
      if ← equal? v f.2 then submap? es fs else return false

end

/-- Do two values mean the same? What cannot be compared does not. -/
def equal (a b : Value) : Bool := isYes (equal? a b)

/-- Does a list hold a value? -/
def occursIn (v : Value) (vs : List Value) : Bool := vs.any v.equal

mutual

/-- Are two values one and the same, told apart by nothing? -/
def same : Value → Value → Bool
  | .null, .null => true
  | .bool a, .bool b => a == b
  | .int a, .int b => a == b
  | .binary a, .binary b => a == b
  | .decimal a, .decimal b => a == b
  | .text a, .text b => a == b
  | .bytes a, .bytes b => a == b
  | .moment a, .moment b => a == b
  | .date a, .date b => a == b
  | .list a, .list b => sameItems a b
  | .tuple a, .tuple b => sameItems a b
  | .set a, .set b => sameItems a b
  | .map a, .map b => sameEntries a b
  | .record a, .record b => sameAttributes a b
  | .choice a, .choice b => same a b
  | .request a q, .request b r => a == b && q == r
  | .cursor a f, .cursor b g => sameEntries a b && f == g
  | .finished f a, .finished g b => f == g && sameItems a b
  | .function a r, .function b s => sameCalls a b && r == s
  | .object a, .object b => a == b
  | _, _ => false

/-- Are two lists the same value by value? -/
def sameItems : List Value → List Value → Bool
  | [], [] => true
  | a :: as, b :: bs => same a b && sameItems as bs
  | _, _ => false

/-- Are two lists of entries the same? -/
def sameEntries : List (Value × Value) → List (Value × Value) → Bool
  | [], [] => true
  | (k, v) :: as, (l, w) :: bs => same k l && same v w && sameEntries as bs
  | _, _ => false

/-- Are two lists of attributes the same? -/
def sameAttributes : List (String × Value) → List (String × Value) → Bool
  | [], [] => true
  | (k, v) :: as, (l, w) :: bs => k == l && same v w && sameAttributes as bs
  | _, _ => false

/-- Are two lists of calls the same? -/
def sameCalls : List (String × List Slot) → List (String × List Slot) → Bool
  | [], [] => true
  | (k, v) :: as, (l, w) :: bs => k == l && sameSlots v w && sameCalls as bs
  | _, _ => false

/-- Are two arguments the same? -/
def sameSlot : Slot → Slot → Bool
  | .fixed a, .fixed b => same a b
  | .theName, .theName => true
  | .theValue, .theValue => true
  | .list a, .list b => sameSlots a b
  | _, _ => false

/-- Are two lists of arguments the same? -/
def sameSlots : List Slot → List Slot → Bool
  | [], [] => true
  | a :: as, b :: bs => sameSlot a b && sameSlots as bs
  | _, _ => false

end

/-- Does a list hold a value? The values are compared one after the other up to the first that is
the value itself or equal to it. -/
def occursIn? (v : Value) : List Value → Except Error Bool
  | [] => .ok false
  | w :: ws => do
    if w.same v then return true
    if ← w.equal? v then return true else occursIn? v ws

end Value

namespace Entries

/-- The value under a key. -/
def get? (es : Entries) (k : Value) : Option Value :=
  (es.find? fun e => e.1.equal k).map Prod.snd

/-- Put a value under a key. A key that is there keeps its spelling and its place. -/
def insert (es : Entries) (k v : Value) : Entries :=
  match es with
  | [] => [(k, v)]
  | (k', v') :: rest => if k'.equal k then (k', v) :: rest else (k', v') :: insert rest k v

/-- Take a key out. -/
def erase (es : Entries) (k : Value) : Entries := es.filter fun e => !e.1.equal k

/-- The entries that come from putting values under keys one after the other. -/
def ofPairs (ps : List (Value × Value)) : Entries := ps.foldl (fun es p => insert es p.1 p.2) []

/-- The values, in order. -/
def values (es : Entries) : List Value := es.map Prod.snd

/-- The keys, in order. -/
def keys (es : Entries) : List Value := es.map Prod.fst

end Entries

end Listing
