import Mathlib.Data.List.Perm.Basic
import Listing.Proofs.Outcome
import Listing.Source.Collection

/-!
# Sorting keeps the items

Whatever a comparison says, a list that is sorted by runs has the items of the list
(`sortByRuns_perm`). A merge only moves items from one place of its state to another, so its items are
the same all along: `Merge.items`. With it sorting by keys, and listing a collection in the given orders,
rearrange what they are given (`sortByKey?_perm`, `Collection.ordered_perm`).
-/

namespace Listing

open scoped List

variable {α : Type} {less : α → α → Except Error Bool}

/-! ## Runs -/

theorem place_perm {x : α} {n : Nat} {xs ys : List α} (h : place less x n xs = .ok ys) :
    ys.Perm (x :: xs) := by
  induction n generalizing xs ys with
  | zero =>
    obtain rfl := Except.ok.inj h
    exact List.perm_append_singleton x xs
  | succ n ih =>
    unfold place at h
    split at h
    · obtain rfl := Except.ok.inj h
      exact List.perm_append_singleton x xs
    · next m after hdrop =>
      have hxs : xs.take (xs.length / 2) ++ m :: after = xs := by
        rw [← hdrop, List.take_append_drop]
      obtain ⟨first, -, h⟩ := bind_eq_ok_iff.1 h
      split at h
      all_goals
        obtain ⟨zs, hzs, h⟩ := bind_eq_ok_iff.1 h
        obtain rfl := Except.ok.inj h
      · calc zs ++ m :: after
            _ ~ x :: xs.take (xs.length / 2) ++ m :: after := (ih hzs).append_right _
            _ = x :: xs := by rw [List.cons_append, hxs]
      · calc xs.take (xs.length / 2) ++ m :: zs
            _ ~ xs.take (xs.length / 2) ++ m :: x :: after := ((ih hzs).cons m).append_left _
            _ ~ xs.take (xs.length / 2) ++ x :: m :: after := (List.Perm.swap ..).append_left _
            _ ~ x :: (xs.take (xs.length / 2) ++ m :: after) := List.perm_middle
            _ = x :: xs := by rw [hxs]

/-- Items are put one after the other into a sorted list. -/
theorem placeAll_perm {xs run sorted : List α}
    (h : xs.foldlM (fun sorted x => place less x sorted.length sorted) run = .ok sorted) :
    sorted.Perm (run ++ xs) := by
  induction xs generalizing run with
  | nil =>
    obtain rfl := Except.ok.inj h
    rw [List.append_nil]
  | cons x xs ih =>
    obtain ⟨ys, hys, h⟩ := bind_eq_ok_iff.1 ((List.foldlM_cons ..).symm.trans h)
    exact (ih h).trans (((place_perm hys).append_right xs).trans List.perm_middle.symm)

theorem splitRun_append {goesOn : α → α → Except Error Bool} {last : α} {xs run rest : List α}
    (h : splitRun goesOn last xs = .ok (run, rest)) : run ++ rest = xs := by
  induction xs generalizing last run rest with
  | nil =>
    cases h
    rfl
  | cons x xs ih =>
    obtain ⟨on, -, h⟩ := bind_eq_ok_iff.1 h
    split at h
    · obtain ⟨⟨run', rest'⟩, hrun, h⟩ := bind_eq_ok_iff.1 h
      cases h
      rw [List.cons_append, ih hrun]
    · cases h
      rfl

theorem firstRun_perm {xs run rest : List α} (h : firstRun less xs = .ok (run, rest)) :
    (run ++ rest).Perm xs := by
  unfold firstRun at h
  split at h
  · cases h
    exact .refl _
  · cases h
    exact .refl _
  · next x y zs =>
    obtain ⟨descends, -, h⟩ := bind_eq_ok_iff.1 h
    split at h
    all_goals
      obtain ⟨⟨run', rest'⟩, hrun, h⟩ := bind_eq_ok_iff.1 h
      cases h
      rw [← splitRun_append hrun]
    · exact (List.reverse_perm (x :: y :: run')).append_right rest
    · exact .refl _

theorem filledRun_perm {least : Nat} {xs run rest : List α}
    (h : filledRun less least xs = .ok (run, rest)) : (run ++ rest).Perm xs := by
  obtain ⟨⟨run₁, rest₁⟩, hfirst, h⟩ := bind_eq_ok_iff.1 h
  obtain ⟨run₂, hfilled, h⟩ := bind_eq_ok_iff.1 h
  cases h
  calc run ++ rest₁.drop (least - run₁.length)
    _ ~ run₁ ++ rest₁.take (least - run₁.length) ++ rest₁.drop (least - run₁.length) :=
      (placeAll_perm hfilled).append_right _
    _ = run₁ ++ rest₁ := by rw [List.append_assoc, List.take_append_drop]
    _ ~ xs := firstRun_perm hfirst

/-! ## Merges -/

namespace Merge

variable {s : MergeSide α} {m m' : Merge α}

/-- The items of a merge. -/
def items (m : Merge α) : List α := m.moved ++ (m.kept ++ m.other)

theorem all_perm (m : Merge α) : m.all.Perm m.items := by
  have hrest : m.rest.Perm (m.kept ++ m.other) := by
    unfold rest
    split
    · next x hkept =>
      rw [hkept]
      exact List.perm_append_comm
    · exact .refl _
  exact (List.reverse_perm m.moved).append hrest

theorem moveKept_perm (m : Merge α) (n : Nat) : (m.moveKept n).items.Perm m.items := by
  calc (m.kept.take n).reverse ++ m.moved ++ (m.kept.drop n ++ m.other)
    _ ~ m.moved ++ m.kept.take n ++ (m.kept.drop n ++ m.other) :=
      (((List.reverse_perm _).append_right _).trans List.perm_append_comm).append_right _
    _ = m.items := by rw [items, List.append_assoc, ← List.append_assoc (m.kept.take n),
      List.take_append_drop]

theorem moveOther_perm (m : Merge α) (n : Nat) : (m.moveOther n).items.Perm m.items := by
  calc (m.other.take n).reverse ++ m.moved ++ (m.kept ++ m.other.drop n)
    _ ~ m.moved ++ m.other.take n ++ (m.kept ++ m.other.drop n) :=
      (((List.reverse_perm _).append_right _).trans List.perm_append_comm).append_right _
    _ = m.moved ++ (m.other.take n ++ (m.kept ++ m.other.drop n)) := List.append_assoc ..
    _ ~ m.moved ++ (m.kept ++ (m.other.take n ++ m.other.drop n)) :=
      (List.perm_append_comm_assoc ..).append_left _
    _ = m.items := by rw [items, List.take_append_drop]

theorem oneByOne_perm {streak fuel keptWins otherWins : Nat}
    (h : oneByOne s streak fuel keptWins otherWins m = .ok m') : m'.items.Perm m.items := by
  induction fuel generalizing keptWins otherWins m with
  | zero =>
    obtain rfl := Except.ok.inj h
    exact .refl _
  | succ fuel ih =>
    unfold oneByOne at h
    split at h
    · obtain ⟨first, -, h⟩ := bind_eq_ok_iff.1 h
      split at h
      · refine .trans ?_ (m.moveOther_perm 1)
        dsimp only at h
        split at h
        · obtain rfl := Except.ok.inj h
          exact .refl _
        · exact ih h
      · refine .trans ?_ (m.moveKept_perm 1)
        dsimp only at h
        split at h
        · obtain rfl := Except.ok.inj h
          exact .refl _
        · exact ih h
    · obtain rfl := Except.ok.inj h
      exact .refl _

theorem strideKept_perm {n : Nat} (h : strideKept s m = .ok (m', n)) : m'.items.Perm m.items := by
  unfold strideKept at h
  split at h
  · cases h
    exact .refl _
  · obtain ⟨k, -, h⟩ := bind_eq_ok_iff.1 h
    cases h
    refine .trans ?_ (m.moveKept_perm n)
    split
    · exact .refl _
    · exact moveOther_perm _ 1

theorem strideOther_perm {n : Nat} (h : strideOther s m = .ok (m', n)) : m'.items.Perm m.items := by
  unfold strideOther at h
  split at h
  · cases h
    exact .refl _
  · obtain ⟨k, -, h⟩ := bind_eq_ok_iff.1 h
    cases h
    refine .trans ?_ (m.moveOther_perm n)
    split
    · exact .refl _
    · exact moveKept_perm _ 1

theorem round_perm {n : Nat} (h : round s m = .ok (m', n)) : m'.items.Perm m.items := by
  unfold round at h
  obtain ⟨⟨m₁, n₁⟩, h₁, h⟩ := bind_eq_ok_iff.1 h
  have hfirst : m₁.items.Perm m.items := by
    split at h₁
    · exact strideOther_perm h₁
    · exact strideKept_perm h₁
  dsimp only at h
  split at h
  · cases h
    exact hfirst
  · obtain ⟨⟨m₂, n₂⟩, h₂, h⟩ := bind_eq_ok_iff.1 h
    cases h
    refine .trans ?_ hfirst
    split at h₂
    · exact strideKept_perm h₂
    · exact strideOther_perm h₂

theorem rounds_perm {fuel streak streak' : Nat} (h : rounds s fuel streak m = .ok (m', streak')) :
    m'.items.Perm m.items := by
  induction fuel generalizing streak m with
  | zero =>
    cases h
    exact .refl _
  | succ fuel ih =>
    obtain ⟨⟨m₁, n⟩, h₁, h⟩ := bind_eq_ok_iff.1 h
    refine .trans ?_ (round_perm h₁)
    dsimp only at h
    split at h
    · cases h
      exact .refl _
    · split at h
      · exact ih h
      · cases h
        exact .refl _

/-- **A merge keeps its items.** -/
theorem run_perm {fuel streak streak' : Nat} (h : run s fuel streak m = .ok (m', streak')) :
    m'.items.Perm m.items := by
  induction fuel generalizing streak m with
  | zero =>
    cases h
    exact .refl _
  | succ fuel ih =>
    obtain ⟨m₁, h₁, h⟩ := bind_eq_ok_iff.1 h
    refine .trans ?_ (oneByOne_perm h₁)
    dsimp only at h
    split at h
    · cases h
      exact .refl _
    · obtain ⟨⟨m₂, streak₂⟩, h₂, h⟩ := bind_eq_ok_iff.1 h
      refine .trans ?_ (rounds_perm h₂)
      dsimp only at h
      split at h
      · cases h
        exact .refl _
      · exact ih h

theorem whole_perm {streak streak' : Nat} {kept other merged : List α}
    (h : whole s streak kept other = .ok (merged, streak')) : merged.Perm (kept ++ other) := by
  unfold whole at h
  have hstart : (moveOther ⟨[], kept, other⟩ 1).items.Perm (kept ++ other) := moveOther_perm _ 1
  dsimp only at h
  split at h
  · cases h
    exact (all_perm _).trans hstart
  · obtain ⟨⟨m₁, streak₁⟩, h₁, h⟩ := bind_eq_ok_iff.1 h
    cases h
    exact ((all_perm _).trans (run_perm h₁)).trans hstart

end Merge

theorem mergeRuns_perm {streak streak' : Nat} {a b merged : List α}
    (h : mergeRuns less streak a b = .ok (merged, streak')) : merged.Perm (a ++ b) := by
  unfold mergeRuns at h
  split at h
  · cases h
    rw [List.append_nil]
  · next y b =>
    obtain ⟨inPlace, -, h⟩ := bind_eq_ok_iff.1 h
    split at h
    · cases h
      exact .refl _
    · obtain ⟨after, -, h⟩ := bind_eq_ok_iff.1 h
      dsimp only at h
      split at h
      · cases h
        exact .refl _
      · have hplaced {middle : List α}
            (h : middle ~ a.drop inPlace ++ (y :: b).take ((y :: b).length - after)) :
            a.take inPlace ++ middle ++ (y :: b).drop ((y :: b).length - after) ~ a ++ y :: b := by
          refine ((h.append_left _).append_right _).trans (.of_eq ?_)
          rw [← List.append_assoc, List.take_append_drop, List.append_assoc, List.take_append_drop]
        split at h
        · obtain ⟨⟨middle, streak₁⟩, hmiddle, h⟩ := bind_eq_ok_iff.1 h
          cases h
          exact hplaced (Merge.whole_perm hmiddle)
        · obtain ⟨⟨turned, streak₁⟩, hturned, h⟩ := bind_eq_ok_iff.1 h
          cases h
          have hwhole := Merge.whole_perm hturned
          rw [← List.reverse_append] at hwhole
          exact hplaced (((List.reverse_perm _).trans hwhole).trans (List.reverse_perm _))

/-! ## The stack of runs -/

/-- The items of runs that wait. -/
def waitingItems (below : List (Waiting α)) : List α := (below.map Waiting.run).flatten

theorem flatten_reverse_perm (below : List (Waiting α)) :
    (below.reverse.map Waiting.run).flatten.Perm (waitingItems below) :=
  ((List.reverse_perm below).map Waiting.run).flatten

theorem collapse_perm {depth streak streak' : Nat} {top merged : List α}
    {below below' : List (Waiting α)}
    (h : collapse less depth top streak below = .ok (merged, below', streak')) :
    (waitingItems below' ++ merged).Perm (waitingItems below ++ top) := by
  induction below generalizing top streak with
  | nil =>
    cases h
    exact .refl _
  | cons w below ih =>
    unfold collapse at h
    split at h
    · obtain ⟨⟨merged₁, streak₁⟩, hmerged, h⟩ := bind_eq_ok_iff.1 h
      calc waitingItems below' ++ merged
        _ ~ waitingItems below ++ merged₁ := ih h
        _ ~ waitingItems below ++ (w.run ++ top) := (mergeRuns_perm hmerged).append_left _
        _ ~ w.run ++ (waitingItems below ++ top) := List.perm_append_comm_assoc ..
        _ = waitingItems (w :: below) ++ top := (List.append_assoc ..).symm
    · cases h
      exact .refl _

theorem collapseAll_perm {fuel streak : Nat} {top sorted : List α} {below : List (Waiting α)}
    (h : collapseAll less fuel top streak below = .ok sorted) :
    sorted.Perm (waitingItems below ++ top) := by
  induction fuel generalizing top streak below with
  | zero =>
    obtain rfl := Except.ok.inj h
    exact (flatten_reverse_perm below).append_right top
  | succ fuel ih =>
    rcases below with _ | ⟨w, _ | ⟨v, below⟩⟩ <;> rw [collapseAll] at h
    · cases h
      exact .refl _
    · obtain ⟨⟨merged, streak₁⟩, hmerged, h⟩ := bind_eq_ok_iff.1 h
      calc sorted
        _ ~ waitingItems [] ++ merged := ih h
        _ ~ w.run ++ top := mergeRuns_perm hmerged
        _ = waitingItems [w] ++ top := by simp [waitingItems]
    · split at h
      all_goals obtain ⟨⟨merged, streak₁⟩, hmerged, h⟩ := bind_eq_ok_iff.1 h
      · calc sorted
          _ ~ merged ++ waitingItems below ++ top := ih h
          _ ~ v.run ++ w.run ++ waitingItems below ++ top :=
            ((mergeRuns_perm hmerged).append_right _).append_right _
          _ ~ w.run ++ v.run ++ waitingItems below ++ top :=
            (List.perm_append_comm.append_right _).append_right _
          _ = waitingItems (w :: v :: below) ++ top := by simp [waitingItems]
      · calc sorted
          _ ~ waitingItems (v :: below) ++ merged := ih h
          _ ~ waitingItems (v :: below) ++ (w.run ++ top) := (mergeRuns_perm hmerged).append_left _
          _ ~ w.run ++ (waitingItems (v :: below) ++ top) := List.perm_append_comm_assoc ..
          _ = waitingItems (w :: v :: below) ++ top := (List.append_assoc ..).symm

theorem sortRest_perm {total fuel streak : Nat} {top xs sorted : List α} {below : List (Waiting α)}
    (h : sortRest less total fuel top streak below xs = .ok sorted) :
    sorted.Perm (waitingItems below ++ top ++ xs) := by
  induction fuel generalizing top streak below xs with
  | zero =>
    obtain rfl := Except.ok.inj h
    exact ((flatten_reverse_perm below).append_right top).append_right xs
  | succ fuel ih =>
    replace h : (if xs.isEmpty then _ else _) = Except.ok sorted := h
    split at h
    · next hxs =>
      rw [List.isEmpty_iff.1 hxs, List.append_nil]
      exact collapseAll_perm h
    · obtain ⟨⟨run, rest⟩, hrun, h⟩ := bind_eq_ok_iff.1 h
      obtain ⟨⟨merged, below', streak'⟩, hmerged, h⟩ := bind_eq_ok_iff.1 h
      calc sorted
        _ ~ merged ++ waitingItems below' ++ run ++ rest := ih h
        _ = merged ++ waitingItems below' ++ (run ++ rest) := List.append_assoc ..
        _ ~ waitingItems below ++ top ++ xs :=
          (List.perm_append_comm.trans (collapse_perm hmerged)).append (filledRun_perm hrun)

/-- **Sorting by runs keeps the items**, whatever the comparison says. -/
theorem sortByRuns_perm {xs sorted : List α} (h : sortByRuns less xs = .ok sorted) :
    sorted.Perm xs := by
  obtain ⟨⟨run, rest⟩, hrun, h⟩ := bind_eq_ok_iff.1 h
  exact (sortRest_perm h).trans (filledRun_perm hrun)

/-! ## Sorting by keys -/

theorem sortKeyed?_perm {items sorted : List (Value × α)} (h : sortKeyed? items = .ok sorted) :
    sorted.Perm items := by
  unfold sortKeyed? at h
  split at h
  · obtain rfl := Except.ok.inj h
    exact List.mergeSort_perm ..
  · exact sortByRuns_perm h

/-- Items with their keys are the items. -/
theorem map_snd_of_mapM {key : α → Except Error Value} {xs : List α} {keyed : List (Value × α)}
    (h : (xs.mapM fun x => do return (← key x, x)) = .ok keyed) : keyed.map Prod.snd = xs := by
  induction mapM_eq_ok_iff.1 h with
  | nil => rfl
  | @cons x p xs keyed hp hrest ih =>
    obtain ⟨v, -, hv⟩ := bind_eq_ok_iff.1 hp
    cases hv
    rw [List.map_cons, ih (mapM_eq_ok_iff.2 hrest)]

/-- **Sorting by keys keeps the items.** -/
theorem sortByKey?_perm {key : α → Except Error Value} {descends : Bool} {xs sorted : List α}
    (h : sortByKey? key descends xs = .ok sorted) : sorted.Perm xs := by
  obtain ⟨keyed, hkeyed, h⟩ := bind_eq_ok_iff.1 h
  rw [← map_snd_of_mapM hkeyed]
  split at h
  all_goals
    obtain ⟨items, hitems, h⟩ := bind_eq_ok_iff.1 h
    obtain rfl := Except.ok.inj h
  · exact (List.reverse_perm _).trans
      (((sortKeyed?_perm hitems).trans (List.reverse_perm _)).map _)
  · exact (sortKeyed?_perm hitems).map _

/-- **Ordering rows keeps them.** -/
theorem Collection.ordered_perm {orders : List (Value × Direction)} {rows listed : List Value}
    (h : ordered orders rows = .ok listed) : listed.Perm rows := by
  induction orders generalizing listed with
  | nil =>
    obtain rfl := Except.ok.inj h
    exact .refl _
  | cons order orders ih =>
    obtain ⟨inner, hinner, h⟩ := bind_eq_ok_iff.1 h
    exact (sortByKey?_perm h).trans (ih hinner)

end Listing
