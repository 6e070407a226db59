import Listing.Error

/-!
# Sorting by runs

`sortByRuns` sorts a list by a comparison that may fail, or that may leave items without an order.
It cuts the list into runs, which are in order, turns runs around that descend, fills short runs up
by insertion, and merges neighbours. What the comparison does not tell apart keeps its order.

A run and its neighbour are merged as soon as the boundary between them lies deeper than the one
after them in the binary division of the whole list: `boundaryDepth`. A merge moves the items of one
run past those of the other one by one, and as soon as one side wins often, by strides that double:
`Merge.round`.

Whatever the comparison says, the result has the items of the list.
-/

namespace Listing

variable {α : Type}

/-! ## Runs -/

/-- Put an item into a sorted list of at most `n` items by bisection, after the items that are not
greater. -/
def place (less : α → α → Except Error Bool) (x : α) : Nat → List α → Except Error (List α)
  | 0, xs => .ok (xs ++ [x])
  | n + 1, xs =>
    match xs.drop (xs.length / 2) with
    | [] => .ok (xs ++ [x])
    | m :: after => do
      if ← less x m then return (← place less x n (xs.take (xs.length / 2))) ++ m :: after
      else return xs.take (xs.length / 2) ++ m :: (← place less x n after)

/-- Split a list after the items of a run that has begun with `last`: as long as `goesOn` between an
item and the one before it. -/
def splitRun (goesOn : α → α → Except Error Bool) (last : α) :
    List α → Except Error (List α × List α)
  | [] => .ok ([], [])
  | x :: xs => do
    if ← goesOn x last then
      let (run, rest) ← splitRun goesOn x xs
      return (x :: run, rest)
    else return ([], x :: xs)

/-- The first run of a list, in ascending order, and the rest. -/
def firstRun (less : α → α → Except Error Bool) : List α → Except Error (List α × List α)
  | [] => .ok ([], [])
  | [x] => .ok ([x], [])
  | x :: y :: rest => do
    if ← less y x then
      let (run, rest) ← splitRun less y rest
      return ((x :: y :: run).reverse, rest)
    else
      let (run, rest) ← splitRun (fun b a => (less b a).map (!·)) y rest
      return (x :: y :: run, rest)

/-- The first run of a list and the rest, where a run shorter than `least` is filled up by
insertion. -/
def filledRun (less : α → α → Except Error Bool) (least : Nat) (xs : List α) :
    Except Error (List α × List α) := do
  let (run, rest) ← firstRun less xs
  let missing := least - run.length
  let run ← (rest.take missing).foldlM (fun sorted x => place less x sorted.length sorted) run
  return (run, rest.drop missing)

/-- The least length of a run of a list of `n` items: its six leading binary digits, rounded up. -/
def leastRun (n : Nat) : Nat :=
  if n < 64 then n
  else leastRunFrom n false n
where
  /-- Halve `n` until it is below 64; `odd` says whether a digit one has been dropped. -/
  leastRunFrom (n : Nat) (odd : Bool) : Nat → Nat
    | 0 => n
    | fuel + 1 =>
      if n < 64 then n + odd.toNat else leastRunFrom (n / 2) (odd || n % 2 == 1) fuel

/-! ## Counting by strides -/

/-- Double strides from a position as long as `goesOn`: the last stride that did and the first that
did not, or that leaves the list, which is `limit` away. -/
def strides (goesOn : Nat → Except Error Bool) (limit : Nat) :
    Nat → Nat → Nat → Except Error (Nat × Nat)
  | 0, last, next => .ok (last, min next limit)
  | fuel + 1, last, next => do
    if next < limit then
      if ← goesOn next then strides goesOn limit fuel next (2 * next + 1)
      else return (last, next)
    else return (last, limit)

/-- The first position from `low` up to `high` that is not `before`, by bisection. -/
def bisect (before : Nat → Except Error Bool) : Nat → Nat → Nat → Except Error Nat
  | 0, _, high => .ok high
  | fuel + 1, low, high => do
    if low < high then
      let middle := low + (high - low) / 2
      if ← before middle then bisect before fuel (middle + 1) high
      else bisect before fuel low middle
    else return high

/-- The number of the first `n` positions that are `before`, searched for from the first one on. -/
def countFront (before : Nat → Except Error Bool) (n : Nat) : Except Error Nat := do
  if ← before 0 then
    let (last, next) ← strides before n n 0 1
    bisect before n (last + 1) next
  else return 0

/-- The number of the first `n` positions that are `before`, searched for from the last one on. -/
def countBack (before : Nat → Except Error Bool) (n : Nat) : Except Error Nat := do
  if ← before (n - 1) then return n
  else
    let (last, next) ← strides (fun i => (before (n - 1 - i)).map (!·)) n n 0 1
    bisect before n (n - next) (n - 1 - last)

/-! ## Merges -/

/-- A merge of two runs: what has been moved, in reverse, and what is left of both. The run `kept`
holds an item that comes last of all. -/
structure Merge (α : Type) where
  moved : List α
  kept : List α
  other : List α

/-- How the items of two runs compare, and from which end they are taken. A merge that begins at the
ends of its runs sees them turned around. -/
structure MergeSide (α : Type) where
  less : α → α → Except Error Bool
  fromEnd : Bool

namespace MergeSide

/-- Does an item of the other run go before one of the kept run? -/
def goesFirst (s : MergeSide α) (other kept : α) : Except Error Bool :=
  if s.fromEnd then s.less kept other else s.less other kept

/-- How many items at the front of a list are taken. -/
def count (s : MergeSide α) (taken : α → Except Error Bool) (xs : List α) : Except Error Nat :=
  let items := xs.toArray
  let at? := fun i => match items[i]? with
    | some x => taken x
    | none => .ok false
  let n := xs.length
  if s.fromEnd then do
    return n - (← countBack (fun i => (at? (n - 1 - i)).map (!·)) n)
  else countFront at? n

end MergeSide

namespace Merge

/-- A merge is over as soon as the other run is empty or the kept one has a single item. -/
def isOver (m : Merge α) : Bool := m.other.isEmpty || m.kept.length ≤ 1

/-- What is left, in order. -/
def rest (m : Merge α) : List α :=
  match m.kept with
  | [x] => m.other ++ [x]
  | kept => kept ++ m.other

/-- All items, in the order of the merge. -/
def all (m : Merge α) : List α := m.moved.reverse ++ m.rest

/-- Move items of the kept run. -/
def moveKept (m : Merge α) (n : Nat) : Merge α :=
  { m with moved := (m.kept.take n).reverse ++ m.moved, kept := m.kept.drop n }

/-- Move items of the other run. -/
def moveOther (m : Merge α) (n : Nat) : Merge α :=
  { m with moved := (m.other.take n).reverse ++ m.moved, other := m.other.drop n }

/-- Move items one by one until one run has won `streak` times in a row. -/
def oneByOne (s : MergeSide α) (streak : Nat) :
    Nat → Nat → Nat → Merge α → Except Error (Merge α)
  | 0, _, _, m => .ok m
  | fuel + 1, keptWins, otherWins, m =>
    match m.kept, m.other with
    | x :: _, y :: _ => do
      if ← s.goesFirst y x then
        let m := m.moveOther 1
        if m.isOver || streak ≤ otherWins + 1 then return m
        else oneByOne s streak fuel 0 (otherWins + 1) m
      else
        let m := m.moveKept 1
        if m.isOver || streak ≤ keptWins + 1 then return m
        else oneByOne s streak fuel (keptWins + 1) 0 m
    | _, _ => .ok m

/-- Move all items of the kept run that go before the next one of the other run, and that one. The
number says how many they were. -/
def strideKept (s : MergeSide α) (m : Merge α) : Except Error (Merge α × Nat) :=
  match m.other with
  | [] => .ok (m, 0)
  | y :: _ => do
    let n ← s.count (fun x => (s.goesFirst y x).map (!·)) m.kept
    let m := m.moveKept n
    return (if m.isOver then m else m.moveOther 1, n)

/-- Move all items of the other run that go before the next one of the kept run, and that one. The
number says how many they were. -/
def strideOther (s : MergeSide α) (m : Merge α) : Except Error (Merge α × Nat) :=
  match m.kept with
  | [] => .ok (m, 0)
  | x :: _ => do
    let n ← s.count (fun y => s.goesFirst y x) m.other
    let m := m.moveOther n
    return (if m.isOver then m else m.moveKept 1, n)

/-- Move items of both runs by strides, once. -/
def round (s : MergeSide α) (m : Merge α) : Except Error (Merge α × Nat) := do
  let first := if s.fromEnd then strideOther s else strideKept s
  let second := if s.fromEnd then strideKept s else strideOther s
  let (m, n) ← first m
  if m.isOver then return (m, n)
  let (m, k) ← second m
  return (m, max n k)

/-- How often a run has to win in a row before items move by strides, at the beginning; and how many
items a stride has to move to be worth another one. -/
def usualStreak : Nat := 7

/-- Move items by strides as long as they pay. The streak gets shorter with every further round. -/
def rounds (s : MergeSide α) : Nat → Nat → Merge α → Except Error (Merge α × Nat)
  | 0, streak, m => .ok (m, streak)
  | fuel + 1, streak, m => do
    let (m, n) ← round s m
    if m.isOver then return (m, streak)
    else if usualStreak ≤ n then rounds s fuel (max (streak - 1) 1) m
    else return (m, streak + 1)

/-- Move items until the merge is over. The second part of the result is the streak that the next
merge begins with. -/
def run (s : MergeSide α) : Nat → Nat → Merge α → Except Error (Merge α × Nat)
  | 0, streak, m => .ok (m, streak)
  | fuel + 1, streak, m => do
    let m ← oneByOne s streak (m.kept.length + m.other.length) 0 0 m
    if m.isOver then return (m, streak)
    let (m, streak) ← rounds s m.other.length.succ streak m
    if m.isOver then return (m, streak)
    run s fuel streak m

/-- Merge two runs the first items of which are in the wrong order, and the last ones too. -/
def whole (s : MergeSide α) (streak : Nat) (kept other : List α) :
    Except Error (List α × Nat) := do
  let m := moveOther ⟨[], kept, other⟩ 1
  if m.isOver then return (m.all, streak)
  let (m, streak) ← run s (kept.length + other.length) streak m
  return (m.all, streak)

end Merge

/-- Merge two neighbouring runs. Items at the beginning and at the end that are in their places
already are left there, and the shorter run is the one that is kept. -/
def mergeRuns (less : α → α → Except Error Bool) (streak : Nat) (a b : List α) :
    Except Error (List α × Nat) :=
  match b with
  | [] => .ok (a, streak)
  | y :: _ => do
    let front : MergeSide α := ⟨less, false⟩
    let inPlace ← front.count (fun x => (less y x).map (!·)) a
    match (a.drop inPlace).getLast? with
    | none => return (a ++ b, streak)
    | some last =>
      let back : MergeSide α := ⟨less, true⟩
      let after ← back.count (fun z => (less z last).map (!·)) b.reverse
      let kept := a.drop inPlace
      let other := b.take (b.length - after)
      if other.isEmpty then return (a ++ b, streak)
      let (merged, streak) ←
        if kept.length ≤ other.length then Merge.whole front streak kept other
        else do
          let (merged, streak) ← Merge.whole back streak other.reverse kept.reverse
          pure (merged.reverse, streak)
      return (a.take inPlace ++ merged ++ b.drop (b.length - after), streak)

/-! ## The stack of runs -/

/-- A run that waits for its neighbours, and the depth of the boundary after it. -/
structure Waiting (α : Type) where
  run : List α
  depth : Nat := 0

/-- The depth of a boundary in the binary division of `n` items: how many digits it takes to tell
the two halved numbers apart, which are twice the middles of the runs beside the boundary. -/
def boundaryDepth (n : Nat) : Nat → Nat → Nat → Nat
  | 0, _, _ => 0
  | fuel + 1, a, b =>
    if n ≤ a then boundaryDepth n fuel (2 * (a - n)) (2 * (b - n)) + 1
    else if n ≤ b then 1
    else boundaryDepth n fuel (2 * a) (2 * b) + 1

/-- Merge the two topmost runs as long as the boundary before them is deeper than `depth`. The
topmost run comes first. -/
def collapse (less : α → α → Except Error Bool) (depth : Nat) (top : List α) (streak : Nat) :
    List (Waiting α) → Except Error (List α × List (Waiting α) × Nat)
  | [] => .ok (top, [], streak)
  | w :: below => do
    if depth < w.depth then
      let (merged, streak) ← mergeRuns less streak w.run top
      collapse less depth merged streak below
    else return (top, w :: below, streak)

/-- Merge all runs. Of three runs the shorter neighbour of the middle one is merged with it. -/
def collapseAll (less : α → α → Except Error Bool) :
    Nat → List α → Nat → List (Waiting α) → Except Error (List α)
  | 0, top, _, below => .ok ((below.reverse.map Waiting.run).flatten ++ top)
  | _ + 1, top, _, [] => .ok top
  | fuel + 1, top, streak, w :: v :: below => do
    if v.run.length < top.length then
      let (merged, streak) ← mergeRuns less streak v.run w.run
      collapseAll less fuel top streak (⟨merged, 0⟩ :: below)
    else
      let (merged, streak) ← mergeRuns less streak w.run top
      collapseAll less fuel merged streak (v :: below)
  | fuel + 1, top, streak, [w] => do
    let (merged, streak) ← mergeRuns less streak w.run top
    collapseAll less fuel merged streak []

/-- Sort the rest of a list of `total` items. The run `top` lies before it, after the runs `below`,
which take up `start` items. -/
def sortRest (less : α → α → Except Error Bool) (total : Nat) :
    Nat → List α → Nat → List (Waiting α) → List α → Except Error (List α)
  | 0, top, _, below, xs => .ok ((below.reverse.map Waiting.run).flatten ++ top ++ xs)
  | fuel + 1, top, streak, below, xs => do
    if xs.isEmpty then collapseAll less below.length.succ top streak below
    else
      let (run, rest) ← filledRun less (leastRun total) xs
      let start := (below.map fun w => w.run.length).sum
      let a := 2 * start + top.length
      let depth := boundaryDepth total total.succ a (a + top.length + run.length)
      let (merged, below, streak) ← collapse less depth top streak below
      sortRest less total fuel run streak (⟨merged, depth⟩ :: below) rest

/-- Sort a list. -/
def sortByRuns (less : α → α → Except Error Bool) (xs : List α) : Except Error (List α) := do
  let (run, rest) ← filledRun less (leastRun xs.length) xs
  sortRest less xs.length xs.length.succ run Merge.usualStreak [] rest

end Listing
