import Listing.Proofs.Number.Exact
import Listing.Proofs.Relational.Sorting
import Listing.Relational.Cell

/-!
# The order of rows

Cells are not in one order in general, for a number may be none. Null, all other numbers and texts
are: `Cell.compareLawful` is an order of all cells that agrees with `Cell.compare` on these. So rows
that hold such cells under the columns they are sorted by are in one order
(`TableRow.compareBy_eq`), and sorting them commutes with leaving rows out (`TableRow.filter_sortBy`).
Sorting by several columns is sorting by the first one after sorting by the others
(`TableRow.sortBy_cons`), and reversed rows are sorted in the flipped directions (`TableRow.reverse_sortBy`).
-/

namespace Listing

open Std

namespace Cell

/-- The side of all finite numbers that a cell is on as a number, zero if it is not infinite. -/
def side : Cell → Int
  | .number (.infinite negative) => if negative then -1 else 1
  | _ => 0

/-- The rational number that a cell is, zero if it is none. -/
def rational : Cell → ℚ
  | .number (.exact x) => x.value
  | _ => 0

/-- The text that a cell is, the empty one if it is none. -/
def characters : Cell → String
  | .text s => s
  | _ => ""

/-- An order of all cells. -/
def compareLawful : Cell → Cell → Ordering :=
  compareLex (compareOn rank)
    (compareLex (compareOn side) (compareLex (compareOn rational) (compareOn characters)))

instance : TransCmp compareLawful := by
  unfold compareLawful
  infer_instance

/-- The kinds of cells that are in one order. -/
inductive IsPlain : Cell → Prop
  | null : IsPlain .null
  | exact (x : Exact) : IsPlain (.number (.exact x))
  | infinite (negative : Bool) : IsPlain (.number (.infinite negative))
  | text (s : String) : IsPlain (.text s)

theorem compareLawful_number (x y : Number) : compareLawful (.number x) (.number y) =
    (Ord.compare (side (.number x)) (side (.number y))).then
      (Ord.compare (rational (.number x)) (rational (.number y))) := by
  simp [compareLawful, compareLex, compareOn, rank, characters]

/-- **Plain cells are in one order.** -/
theorem compare_eq {a b : Cell} (ha : a.IsPlain) (hb : b.IsPlain) :
    a.compare b = compareLawful a b := by
  cases ha with
  | null => cases hb <;> rfl
  | exact x =>
    cases hb with
    | exact y =>
      rw [compareLawful_number]
      exact Exact.compare_eq x y
    | infinite negative => cases negative <;> rfl
    | _ => rfl
  | infinite negative =>
    cases hb with
    | exact y => cases negative <;> rfl
    | infinite other =>
      rw [compareLawful_number]
      cases negative <;> cases other <;> rfl
    | _ => rfl
  | text s =>
    cases hb with
    | text t =>
      simp [Cell.compare, compareLawful, compareLex, compareOn, rank, side, rational, characters]
    | _ => rfl

end Cell

namespace TableRow

/-- Does a row hold plain cells under the columns? -/
def IsPlain (sorting : List (Column × Bool)) (row : TableRow) : Prop :=
  ∀ o ∈ sorting, (row.cell o.1).IsPlain

/-- An order of all rows. -/
def compareLawful : List (Column × Bool) → TableRow → TableRow → Ordering
  | [] => fun _ _ => .eq
  | (column, false) :: sorting =>
    compareLex (fun a b => (a.cell column).compareLawful (b.cell column)) (compareLawful sorting)
  | (column, true) :: sorting =>
    compareLex (fun a b => (b.cell column).compareLawful (a.cell column)) (compareLawful sorting)

instance (sorting : List (Column × Bool)) : TransCmp (compareLawful sorting) := by
  induction sorting with
  | nil => exact { eq_swap := rfl, isLE_trans := fun _ _ => rfl }
  | cons o sorting ih =>
    obtain ⟨column, descends⟩ := o
    have hcell : TransCmp fun a b : TableRow => (a.cell column).compareLawful (b.cell column) :=
      { eq_swap := OrientedCmp.eq_swap, isLE_trans := TransCmp.isLE_trans }
    cases descends with
    | false => exact inferInstanceAs (TransCmp (compareLex _ _))
    | true =>
      have hflip : TransCmp fun a b : TableRow => (b.cell column).compareLawful (a.cell column) :=
        hcell.opposite
      exact inferInstanceAs (TransCmp (compareLex _ _))

theorem compareLawful_swap (sorting : List (Column × Bool)) (a b : TableRow) :
    compareLawful sorting a b = (compareLawful sorting b a).swap := OrientedCmp.eq_swap

theorem compareLawful_self (sorting : List (Column × Bool)) (a : TableRow) :
    compareLawful sorting a a = .eq := ReflCmp.compare_self

/-- **Rows with plain cells are in one order.** -/
theorem compareBy_eq {sorting : List (Column × Bool)} {a b : TableRow} (ha : a.IsPlain sorting)
    (hb : b.IsPlain sorting) : compareBy sorting a b = compareLawful sorting a b := by
  induction sorting with
  | nil => rfl
  | cons o sorting ih =>
    obtain ⟨column, descends⟩ := o
    have hca := ha _ (List.mem_cons_self ..)
    have hcb := hb _ (List.mem_cons_self ..)
    have ih := ih (fun o ho => ha o (List.mem_cons_of_mem _ ho))
      (fun o ho => hb o (List.mem_cons_of_mem _ ho))
    have hswap : (b.cell column).compareLawful (a.cell column) =
        ((a.cell column).compareLawful (b.cell column)).swap := OrientedCmp.eq_swap
    rw [compareBy, Cell.compare_eq hca hcb, ih]
    cases descends with
    | false =>
      rw [compareLawful, compareLex]
      cases (a.cell column).compareLawful (b.cell column) <;> rfl
    | true =>
      rw [compareLawful, compareLex, hswap]
      cases (a.cell column).compareLawful (b.cell column) <;> rfl

/-- The order of columns, turned round. -/
def flipped (sorting : List (Column × Bool)) : List (Column × Bool) :=
  sorting.map fun o => (o.1, !o.2)

theorem isPlain_flipped {sorting : List (Column × Bool)} {row : TableRow} :
    row.IsPlain (flipped sorting) ↔ row.IsPlain sorting := by
  unfold IsPlain flipped
  rw [List.forall_mem_map]

theorem compareLawful_flipped (sorting : List (Column × Bool)) (a b : TableRow) :
    compareLawful (flipped sorting) a b = compareLawful sorting b a := by
  induction sorting with
  | nil => rfl
  | cons o sorting ih =>
    obtain ⟨column, descends⟩ := o
    have hcons : flipped ((column, descends) :: sorting) = (column, !descends) :: flipped sorting :=
      rfl
    rw [hcons]
    cases descends <;> simp [compareLawful, compareLex, ih]

/-! ## Sorted rows -/

variable {sorting : List (Column × Bool)} {rows : List TableRow}

theorem sortBy_eq (h : ∀ row ∈ rows, row.IsPlain sorting) :
    sortBy sorting rows = rows.mergeSort (atMost (compareLawful sorting)) := by
  have hmap : (sortBy sorting rows).map id = (rows.map id).mergeSort (atMost (compareLawful sorting)) :=
    List.map_mergeSort fun a ha b hb => by
      rw [compareBy_eq (h a ha) (h b hb)]
      rfl
  rwa [List.map_id, List.map_id] at hmap

/-- **Sorting commutes with leaving rows out.** -/
theorem filter_sortBy (h : ∀ row ∈ rows, row.IsPlain sorting) (p : TableRow → Bool) :
    (sortBy sorting rows).filter p = sortBy sorting (rows.filter p) := by
  rw [sortBy_eq h, sortBy_eq fun row hrow => h row (List.mem_filter.1 hrow).1, filter_mergeSort]

theorem sortBy_perm (sorting : List (Column × Bool)) (rows : List TableRow) :
    (sortBy sorting rows).Perm rows := List.mergeSort_perm ..

theorem pairwise_sortBy (h : ∀ row ∈ rows, row.IsPlain sorting) :
    (sortBy sorting rows).Pairwise fun a b => (compareLawful sorting a b).isLE = true := by
  rw [sortBy_eq h]
  exact (List.pairwise_mergeSort atMost_trans atMost_total rows).imp fun h => atMost_iff.1 h

/-- **Sorting the other way round reverses** rows without ties. -/
theorem sortBy_flipped (h : ∀ row ∈ rows, row.IsPlain sorting)
    (hties : rows.Pairwise fun a b => compareLawful sorting a b ≠ .eq) :
    sortBy (flipped sorting) rows = (sortBy sorting rows).reverse := by
  rw [sortBy_eq h, sortBy_eq fun row hrow => isPlain_flipped.2 (h row hrow), ← mergeSort_flip hties]
  congr 1
  funext a b
  rw [atMost, atMost, compareLawful_flipped]

/-- **The reversed rows can be sorted the other way round**; rows that tie keep their order. -/
theorem reverse_sortBy (h : ∀ row ∈ rows, row.IsPlain sorting) :
    (sortBy sorting rows.reverse).reverse = sortBy (flipped sorting) rows := by
  rw [sortBy_eq fun row hrow => h row (List.mem_reverse.1 hrow), reverse_mergeSort,
    sortBy_eq fun row hrow => isPlain_flipped.2 (h row hrow)]
  congr 1
  funext a b
  rw [atMost, atMost, compareLawful_flipped]

theorem sortBy_nil (rows : List TableRow) : sortBy [] rows = rows :=
  List.mergeSort_of_pairwise (List.pairwise_of_forall_mem_list fun _ _ _ _ => rfl)

theorem compareLawful_split (o : Column × Bool) (sorting : List (Column × Bool)) :
    compareLawful (o :: sorting) = compareLex (compareLawful [o]) (compareLawful sorting) := by
  obtain ⟨column, descends⟩ := o
  funext a b
  cases descends <;> simp [compareLawful, compareLex]

/-- **Rows are sorted by columns** one after the other, from the last one to the first one. -/
theorem sortBy_cons {o : Column × Bool} (h : ∀ row ∈ rows, row.IsPlain (o :: sorting)) :
    sortBy (o :: sorting) rows = sortBy [o] (sortBy sorting rows) := by
  have hfirst : ∀ row ∈ sortBy sorting rows, row.IsPlain [o] := by
    intro row hrow p hp
    rw [List.mem_singleton.1 hp]
    exact h row ((sortBy_perm sorting rows).mem_iff.1 hrow) _ (List.mem_cons_self ..)
  have hrest : ∀ row ∈ rows, row.IsPlain sorting := fun row hrow p hp =>
    h row hrow p (List.mem_cons_of_mem _ hp)
  rw [sortBy_eq h, sortBy_eq hfirst, sortBy_eq hrest, compareLawful_split, mergeSort_compareLex]

end TableRow

end Listing
