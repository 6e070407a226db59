import Listing.Page
import Listing.Proofs.Outcome
import Listing.Proofs.Source.Window

/-!
# Cutting a page out of rows

A query that wants a page of `n` rows asks for `n + 1` of them, and `CursorPage.cut` makes the page of
the first `n`: `CursorPage.cut_forward`, and `CursorPage.cut_backward` where the rows come in reverse.
The cursors of the page are those at its last row and at its first one. There is a cursor in the
direction of the query if the rows went on, and in the other direction if the query came from there.
-/

namespace Listing

namespace CursorPage

variable {α : Type} {rows : List α} {n : Nat} {columns : List Value}
  {read : α → Value → Except Error Value} {place : α → Bool → Cursor}

/-- The page of the first `n` rows. -/
def forwardCut (place : α → Bool → Cursor) (rows : List α) (n : Nat) (entered : Bool) : Cut α where
  items := rows.take n
  next := if n < rows.length then (rows.take n).getLast?.map (place · true) else none
  previous := if entered then (rows.take n).head?.map (place · false) else none

/-- The page of the first `n` rows where they come in reverse. -/
def backwardCut (place : α → Bool → Cursor) (rows : List α) (n : Nat) : Cut α where
  items := (rows.take n).reverse
  next := (rows.take n).head?.map (place · true)
  previous := if n < rows.length then (rows.take n).getLast?.map (place · false) else none

theorem slice_take (rows : List α) (n : Nat) : slice (rows.take (n + 1)) 0 n = rows.take n := by
  have hslice := slice_natCast (rows.take (n + 1)) 0 n
  rw [Nat.zero_add, List.drop_zero, List.take_take, Nat.min_eq_left (Nat.le_succ n)] at hslice
  exact hslice

theorem more_take (rows : List α) (n : Nat) :
    decide ((n : Int) < (rows.take (n + 1)).length) = decide (n < rows.length) := by
  rw [List.length_take]
  exact decide_eq_decide.2 (by omega)

theorem eq_nil_of_ends {kept : List α}
    (h : ∀ first last, kept.head? = some first → kept.getLast? = some last → False) :
    kept = [] := by
  cases kept with
  | nil => rfl
  | cons first kept => exact absurd (List.getLast?_eq_some_getLast (List.cons_ne_nil _ _)) (h first _ rfl)

section Readable

variable (hplace : ∀ row ∈ rows, ∀ forward,
  position read columns row forward = .ok (place row forward))

include hplace

/-- The cursors at the first and at the last one of some rows. -/
theorem position_ends {kept : List α} (hkept : ∀ row ∈ kept, row ∈ rows) {first last : α}
    (hfirst : kept.head? = some first) (hlast : kept.getLast? = some last) (forward : Bool) :
    position read columns first forward = .ok (place first forward) ∧
      position read columns last forward = .ok (place last forward) :=
  ⟨hplace first (hkept first (List.mem_of_head? hfirst)) forward,
    hplace last (hkept last (List.mem_of_getLast? hlast)) forward⟩

theorem cut_forward {cursor : Option Cursor} (hforward : ∀ c ∈ cursor, c.forward = true) :
    cut (rows.take (n + 1)) n cursor columns read =
      .ok (forwardCut place rows n cursor.isSome) := by
  have hbackward : (cursor.map fun c => !c.forward).getD false = false := by
    cases cursor with
    | none => rfl
    | some c => simp [hforward c rfl]
  unfold cut forwardCut
  simp only [slice_take, more_take, hbackward, Bool.false_eq_true, if_false, Bool.false_or,
    decide_eq_true_eq]
  split
  · next first last hfirst hlast =>
    have hends := position_ends hplace (fun row => List.mem_of_mem_take) hfirst hlast
    rw [(hends false).1, (hends true).2, hfirst, hlast]
    split <;> split <;> rfl
  · next hne => simp [eq_nil_of_ends hne]

theorem cut_backward {cursor : Cursor} (hbackward : cursor.forward = false) :
    cut (rows.take (n + 1)) n (some cursor) columns read =
      .ok (backwardCut place rows n) := by
  unfold cut backwardCut
  simp only [slice_take, more_take, hbackward, Option.map_some, Option.getD_some, Bool.not_false,
    if_true, Bool.true_or, decide_eq_true_eq, List.head?_reverse, List.getLast?_reverse]
  split
  · next first last hfirst hlast =>
    have hends := position_ends hplace (fun row => List.mem_of_mem_take) hlast hfirst
    rw [(hends true).1, (hends false).2, hfirst, hlast]
    split <;> rfl
  · next hne => simp [eq_nil_of_ends fun first last hfirst hlast => hne last first hlast hfirst]

end Readable

/-- Where no cursors can be made, no page is cut that needs one. -/
theorem cut_refused {fault : Error}
    (hrefused : ∀ row ∈ rows, ∀ forward, position read columns row forward = .error fault)
    (hn : 0 < n) (hmore : n < rows.length) :
    cut (rows.take (n + 1)) n none columns read = .error fault := by
  unfold cut
  simp only [slice_take, more_take, Option.map_none, Option.getD_none, Bool.false_eq_true, if_false,
    Bool.false_or, decide_eq_true_eq, if_pos hmore]
  split
  · next first last hfirst hlast =>
    rw [hrefused last (List.mem_of_mem_take (List.mem_of_getLast? hlast)) true]
    rfl
  · next hne =>
    have hlength := congrArg List.length (eq_nil_of_ends hne)
    rw [List.length_take, List.length_nil] at hlength
    omega

/-- A page that holds all rows needs no cursors. -/
theorem cut_whole (hall : rows.length ≤ n) :
    cut (rows.take (n + 1)) n none columns read = .ok ⟨rows, none, none⟩ := by
  have hmore : ¬ n < rows.length := Nat.not_lt.2 hall
  unfold cut
  simp only [slice_take, more_take, Option.map_none, Option.getD_none, Bool.false_eq_true, if_false,
    Bool.false_or, decide_eq_true_eq, if_neg hmore, List.take_of_length_le hall, Option.isSome_none]
  split <;> rfl

/-! ## Pages of the same rows, read otherwise -/

/-- The page of some rows with the cursors that are wanted of those at its ends. -/
def ends (items : List α) (ahead behind : Bool) (columns : List Value)
    (read : α → Value → Except Error Value) : Except Error (Cut α) :=
  match items.head?, items.getLast? with
  | some first, some last => do
    let next ← if ahead then (position read columns last true).map some else pure none
    let previous ← if behind then (position read columns first false).map some else pure none
    return ⟨items, next, previous⟩
  | _, _ => return ⟨items, none, none⟩

/-- Which rows are on a page, and which cursors are wanted, does not depend on how places are
read. -/
theorem cut_eq_ends (rows : List α) (perPage : Int) (cursor : Option Cursor) (columns : List Value) :
    ∃ items ahead behind, (∀ row ∈ items, row ∈ rows) ∧
      ∀ read, cut rows perPage cursor columns read = ends items ahead behind columns read := by
  refine ⟨_, _, _, fun row hrow => ?_, fun read => rfl⟩
  have hslice {row : α} (h : row ∈ slice rows 0 perPage) : row ∈ rows :=
    List.mem_of_mem_drop (List.mem_of_mem_take h)
  split at hrow
  · exact hslice (List.mem_reverse.1 hrow)
  · exact hslice hrow

section Ends

variable {items : List α} {ahead behind : Bool} {page : Cut α}
  {read' : α → Value → Except Error Value}

theorem items_ends (h : ends items ahead behind columns read = .ok page) : page.items = items := by
  unfold ends at h
  split at h
  · cases ahead <;> cases behind <;>
      (obtain ⟨next, -, h⟩ := bind_eq_ok_iff.1 h
       obtain ⟨previous, -, h⟩ := bind_eq_ok_iff.1 h
       rw [← Except.ok.inj h])
  · rw [← Except.ok.inj h]

/-- A page without cursors does not depend on how places are read. -/
theorem ends_without_cursors (h : ends items ahead behind columns read = .ok page)
    (hnone : page.next = none ∧ page.previous = none) :
    ends items ahead behind columns read' = .ok page := by
  unfold ends at h ⊢
  generalize items.head? = first at h ⊢
  generalize items.getLast? = last at h ⊢
  cases first with
  | none => exact h
  | some first =>
  cases last with
  | none => exact h
  | some last =>
  cases ahead <;> cases behind
  case false.false => exact h
  all_goals
    obtain ⟨next, hnext, h⟩ := bind_eq_ok_iff.1 h
    obtain ⟨previous, hprevious, h⟩ := bind_eq_ok_iff.1 h
    obtain rfl := Except.ok.inj h
    obtain ⟨rfl, rfl⟩ : next = none ∧ previous = none := hnone
  case false.true =>
    obtain ⟨place, -, hplace⟩ := map_eq_ok_iff.1 hprevious
    cases hplace
  all_goals
    obtain ⟨place, -, hplace⟩ := map_eq_ok_iff.1 hnext
    cases hplace

/-- Where no place can be read, no page has a cursor. -/
theorem ends_unreadable (h : ends items ahead behind columns read = .ok page)
    (hcursors : ¬ (page.next = none ∧ page.previous = none)) {fault : Error}
    (hrefused : ∀ row ∈ items, ∀ forward, position read' columns row forward = .error fault) :
    ends items ahead behind columns read' = .error fault := by
  have hbare {next previous : Option Cursor} (hnone : next = none ∧ previous = none) :
      (Except.ok ⟨items, next, previous⟩ : Except Error (Cut α)) ≠ .ok page := by
    intro heq
    obtain rfl := Except.ok.inj heq
    exact hcursors hnone
  unfold ends at h ⊢
  cases hfirst : items.head? with
  | none =>
    rw [hfirst] at h
    exact absurd h (hbare ⟨rfl, rfl⟩)
  | some first =>
  cases hlast : items.getLast? with
  | none =>
    rw [hfirst, hlast] at h
    exact absurd h (hbare ⟨rfl, rfl⟩)
  | some last =>
  rw [hfirst, hlast] at h
  dsimp only
  rw [hrefused first (List.mem_of_head? hfirst), hrefused last (List.mem_of_getLast? hlast)]
  cases ahead <;> cases behind
  case false.false => exact absurd h (hbare ⟨rfl, rfl⟩)
  all_goals rfl

end Ends

/-- The rows on a page are among the rows. -/
theorem mem_items {perPage : Int} {cursor : Option Cursor} {page : Cut α}
    (h : cut rows perPage cursor columns read = .ok page) {row : α} (hrow : row ∈ page.items) :
    row ∈ rows := by
  obtain ⟨items, ahead, behind, hitems, hends⟩ := cut_eq_ends rows perPage cursor columns
  rw [hends] at h
  exact hitems row (items_ends h ▸ hrow)

/-- A page depends on the rows and on what is read of them only. -/
theorem cut_congr {perPage : Int} {cursor : Option Cursor} {read' : α → Value → Except Error Value}
    (h : ∀ row ∈ rows, ∀ column ∈ columns, read' row column = read row column) :
    cut rows perPage cursor columns read' = cut rows perPage cursor columns read := by
  have hposition : ∀ row ∈ rows, position read' columns row = position read columns row := by
    intro row hrow
    funext forward
    unfold position
    rw [mapM_congr fun column hcolumn => by rw [h row hrow column hcolumn]]
  obtain ⟨items, ahead, behind, hitems, hends⟩ := cut_eq_ends rows perPage cursor columns
  rw [hends, hends]
  unfold ends
  split
  · next first last hfirst hlast =>
    rw [hposition first (hitems first (List.mem_of_head? hfirst)),
      hposition last (hitems last (List.mem_of_getLast? hlast))]
  · rfl

/-- **A page is read otherwise** with the same cursors where it has none or they are read alike, and
not at all where it has cursors and no place can be read. -/
theorem cut_reread {perPage : Int} {cursor : Option Cursor} {page : Cut α}
    (h : cut rows perPage cursor columns read = .ok page) (read' : α → Value → Except Error Value) :
    (page.next = none ∧ page.previous = none →
      cut rows perPage cursor columns read' = .ok page) ∧
    ∀ fault : Error, ¬ (page.next = none ∧ page.previous = none) →
      (∀ row ∈ rows, ∀ forward, position read' columns row forward = .error fault) →
      cut rows perPage cursor columns read' = .error fault := by
  obtain ⟨items, ahead, behind, hitems, hends⟩ := cut_eq_ends rows perPage cursor columns
  rw [hends] at h ⊢
  exact ⟨ends_without_cursors h, fun fault hcursors hrefused =>
    ends_unreadable h hcursors fun row hrow => hrefused row (hitems row hrow)⟩

end CursorPage

end Listing
