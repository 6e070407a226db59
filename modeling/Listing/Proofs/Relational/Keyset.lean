import Listing.Proofs.Relational.Order
import Listing.Relational.Criterion
import Mathlib.Tactic.Tauto

/-!
# Rows beyond a row

A row is beyond another one if it ties with it under the first columns and is strictly past it under
the next one: `TableRow.isBeyond`. A null ties with nothing and is past nothing. So a row beyond
another one comes after it (`TableRow.lt_of_isBeyond`), but not the other way round: rows that tie,
and rows with nulls, come after rows that they are not beyond. Among rows without nulls that do not
tie the rows beyond one are those after it (`TableRow.isBeyond_iff`).
-/

namespace Listing

open Std

/-- Does a column hold the value? It is null, or of the column's type. -/
def Column.Holds (column : Column) : Value → Prop
  | .null => True
  | .int n => column.type = .integer ∧ -Parameter.maxInteger - 1 ≤ n ∧ n ≤ Parameter.maxInteger
  | .text _ => column.type = .text
  | .bool _ => column.type = .boolean
  | .decimal (.nan _ _ _) | .binary .nan => False
  | .decimal _ => column.type = .decimal
  | .binary _ => column.type = .binary
  | .date _ => column.type = .date
  | .moment _ => ∃ withOffset, column.type = .moment withOffset
  | _ => False

/-- Can rows be compared with the value by order? -/
def Value.isPlace : Value → Bool
  | .int _ | .text _ | .decimal _ | .binary _ | .date _ | .moment _ => true
  | _ => false

namespace Cell

theorem isPlain_ofBinary {x : Binary64} (h : x ≠ .nan) : IsPlain (.number (.ofBinary x)) := by
  cases x with
  | finite negative m e => exact .exact _
  | infinite negative => exact .infinite negative
  | nan => exact absurd rfl h

theorem realOfDecimal_ne_nan {column : Column} {d : Decimal} (h : column.Holds (.decimal d)) :
    realOfDecimal d ≠ .nan := by
  cases d with
  | finite negative c e => exact Binary64.ofScaled_ne_nan negative c e
  | infinite negative => simp [realOfDecimal]
  | nan _ _ _ => exact absurd h id

end Cell

theorem Column.Holds.isPlain {column : Column} {v : Value} (h : column.Holds v) :
    (Cell.ofValue v).IsPlain := by
  cases v with
  | null => exact .null
  | bool b => exact .exact _
  | int n => exact .exact _
  | binary x =>
    refine Cell.isPlain_ofBinary ?_
    rintro rfl
    exact h
  | decimal d => exact Cell.isPlain_ofBinary (Cell.realOfDecimal_ne_nan h)
  | text s => exact .text s
  | date d => exact .text _
  | moment m => exact .text _
  | _ => exact absurd h id

namespace TableRow

theorem get_cons (name : String) (v : Value) (row : TableRow) (column : String) :
    get ((name, v) :: row) column = if column = name then v else row.get column := by
  unfold get
  rw [List.lookup_cons]
  by_cases h : column = name
  · rw [if_pos h, h, beq_self_eq_true]
    rfl
  · rw [if_neg h, beq_eq_false_iff_ne.2 h]

/-- Does a row hold values of the columns' types? -/
def Holds (sorting : List (Column × Bool)) (row : TableRow) : Prop :=
  ∀ o ∈ sorting, o.1.Holds (row.get o.1.name)

/-- Does a row hold values under the columns that rows can be compared with by order? -/
def isPlace (sorting : List (Column × Bool)) (row : TableRow) : Bool :=
  sorting.all fun o => (row.get o.1.name).isPlace

/-- Is a row strictly past another one under the first column in which they do not tie? -/
def isBeyond : List (Column × Bool) → TableRow → TableRow → Bool
  | [], _, _ => false
  | (column, descends) :: sorting, row, other =>
    (other.cell column).compares (if descends then .less else .greater) (row.cell column) ||
      (other.cell column).compares .equal (row.cell column) && isBeyond sorting row other

theorem Holds.isPlain {sorting : List (Column × Bool)} {row : TableRow} (h : row.Holds sorting) :
    row.IsPlain sorting := fun o ho => (h o ho).isPlain

theorem IsPlain.tail {o : Column × Bool} {sorting : List (Column × Bool)} {row : TableRow}
    (h : row.IsPlain (o :: sorting)) : row.IsPlain sorting :=
  fun o ho => h o (List.mem_cons_of_mem _ ho)

end TableRow

namespace Cell

/-- The order of cells under a column, ascending or descending. -/
def directed (descends : Bool) (a b : Cell) : Ordering :=
  if descends then b.compareLawful a else a.compareLawful b

instance (descends : Bool) : TransCmp (directed descends) := by
  cases descends with
  | false => exact inferInstanceAs (TransCmp compareLawful)
  | true =>
    have hcompare : TransCmp compareLawful := inferInstance
    exact hcompare.opposite

/-- **How a plain cell compares with one that is not null.** A null compares with nothing. -/
theorem compares_eq {a b : Cell} (ha : a.IsPlain) (hb : b.IsPlain) (hne : b ≠ .null) :
    a.compares .greater b = (a.rank != 0 && b.compareLawful a == .lt) ∧
    a.compares .less b = (a.rank != 0 && a.compareLawful b == .lt) ∧
    a.compares .equal b = (a.rank != 0 && b.compareLawful a == .eq) := by
  have hswap : b.compareLawful a = (a.compareLawful b).swap := OrientedCmp.eq_swap
  rw [hswap, ← compare_eq ha hb]
  cases ha with
  | null => exact ⟨rfl, rfl, rfl⟩
  | _ =>
    cases hb with
    | null => exact absurd rfl hne
    | _ =>
      simp only [compares, rank]
      refine ⟨?_, ?_, ?_⟩ <;> (generalize Cell.compare _ _ = o; cases o <;> rfl)

end Cell

namespace TableRow

theorem isPlace_cons {o : Column × Bool} {sorting : List (Column × Bool)} {row : TableRow} :
    row.isPlace (o :: sorting) = true ↔
      (row.get o.1.name).isPlace = true ∧ row.isPlace sorting = true := by
  rw [isPlace, List.all_cons, Bool.and_eq_true]
  rfl

theorem rank_of_isPlace {row : TableRow} {column : Column}
    (h : (row.get column.name).isPlace = true) : (row.cell column).rank ≠ 0 := by
  unfold cell
  cases hget : row.get column.name with
  | int n | text s | decimal d | binary x | date d | moment m => simp [Cell.ofValue, Cell.rank]
  | _ =>
    rw [hget] at h
    cases h

theorem compareLawful_cons (column : Column) (descends : Bool) (sorting : List (Column × Bool))
    (row other : TableRow) : compareLawful ((column, descends) :: sorting) row other =
      (Cell.directed descends (row.cell column) (other.cell column)).then
        (compareLawful sorting row other) := by
  cases descends <;> rfl

/-- The comparison of two rows by one column decides, or leaves it to the columns after it. -/
theorem isBeyond_cons {column : Column} {descends : Bool} {sorting : List (Column × Bool)}
    {row other : TableRow} (hrow : row.IsPlain ((column, descends) :: sorting))
    (hother : other.IsPlain ((column, descends) :: sorting))
    (hplace : (row.get column.name).isPlace = true) :
    isBeyond ((column, descends) :: sorting) row other = true ↔
      (other.cell column).rank ≠ 0 ∧
        (Cell.directed descends (row.cell column) (other.cell column) = .lt ∨
          Cell.directed descends (row.cell column) (other.cell column) = .eq ∧
            isBeyond sorting row other = true) := by
  have hc := hrow _ (List.mem_cons_self ..)
  have hd := hother _ (List.mem_cons_self ..)
  have hne : row.cell column ≠ .null := by
    intro h
    have hrank := rank_of_isPlace hplace
    rw [h] at hrank
    exact hrank rfl
  obtain ⟨hgreater, hless, hequal⟩ := Cell.compares_eq hd hc hne
  have hswap : (row.cell column).compareLawful (other.cell column) =
      ((other.cell column).compareLawful (row.cell column)).swap := OrientedCmp.eq_swap
  rw [isBeyond, Bool.or_eq_true, Bool.and_eq_true]
  cases descends with
  | false =>
    rw [if_neg Bool.false_ne_true, hgreater, hequal]
    simp only [Cell.directed, Bool.false_eq_true, if_false, Bool.and_eq_true, bne_iff_ne, beq_iff_eq]
    tauto
  | true =>
    rw [if_pos rfl, hless, hequal, hswap]
    simp only [Cell.directed, if_true, Bool.and_eq_true, bne_iff_ne, beq_iff_eq,
      Ordering.swap_eq_eq]
    tauto

/-- **A row that is beyond another one comes after it.** -/
theorem lt_of_isBeyond {sorting : List (Column × Bool)} {row other : TableRow}
    (hrow : row.IsPlain sorting) (hother : other.IsPlain sorting)
    (hplace : row.isPlace sorting = true) (h : isBeyond sorting row other = true) :
    compareLawful sorting row other = .lt := by
  induction sorting with
  | nil => cases h
  | cons o sorting ih =>
    obtain ⟨column, descends⟩ := o
    obtain ⟨hcolumn, hplace⟩ := isPlace_cons.1 hplace
    rw [compareLawful_cons]
    rcases (isBeyond_cons hrow hother hcolumn).1 h with ⟨-, hlt | ⟨heq, h⟩⟩
    · rw [hlt]
      rfl
    · rw [heq]
      exact ih hrow.tail hother.tail hplace h

/-- **What is beyond a row that is beyond another one is beyond that one.** -/
theorem isBeyond_trans {sorting : List (Column × Bool)} {row other third : TableRow}
    (hrow : row.IsPlain sorting) (hother : other.IsPlain sorting) (hthird : third.IsPlain sorting)
    (hplace : row.isPlace sorting = true) (hplace' : other.isPlace sorting = true)
    (h : isBeyond sorting row other = true) (h' : isBeyond sorting other third = true) :
    isBeyond sorting row third = true := by
  induction sorting with
  | nil => cases h
  | cons o sorting ih =>
    obtain ⟨column, descends⟩ := o
    obtain ⟨hcolumn, hplace⟩ := isPlace_cons.1 hplace
    obtain ⟨hcolumn', hplace'⟩ := isPlace_cons.1 hplace'
    obtain ⟨-, h⟩ := (isBeyond_cons hrow hother hcolumn).1 h
    obtain ⟨hrank, h'⟩ := (isBeyond_cons hother hthird hcolumn').1 h'
    rw [isBeyond_cons hrow hthird hcolumn]
    refine ⟨hrank, ?_⟩
    rcases h with hlt | ⟨heq, h⟩
    · rcases h' with hlt' | ⟨heq', -⟩
      · exact .inl (TransCmp.lt_trans hlt hlt')
      · exact .inl (TransCmp.lt_of_lt_of_eq hlt heq')
    · rcases h' with hlt' | ⟨heq', h'⟩
      · exact .inl (TransCmp.lt_of_eq_of_lt heq hlt')
      · exact .inr ⟨TransCmp.eq_trans heq heq',
          ih hrow.tail hother.tail hthird.tail hplace hplace' h h'⟩

/-- **Among rows without nulls the rows beyond one are those after it.** -/
theorem isBeyond_iff {sorting : List (Column × Bool)} {row other : TableRow}
    (hrow : row.IsPlain sorting) (hother : other.IsPlain sorting)
    (hplace : row.isPlace sorting = true) (hplace' : other.isPlace sorting = true) :
    isBeyond sorting row other = true ↔ compareLawful sorting row other = .lt := by
  refine ⟨lt_of_isBeyond hrow hother hplace, fun h => ?_⟩
  induction sorting with
  | nil => cases h
  | cons o sorting ih =>
    obtain ⟨column, descends⟩ := o
    obtain ⟨hcolumn, hplace⟩ := isPlace_cons.1 hplace
    obtain ⟨hcolumn', hplace'⟩ := isPlace_cons.1 hplace'
    rw [compareLawful_cons, Ordering.then_eq_lt] at h
    rw [isBeyond_cons hrow hother hcolumn]
    refine ⟨rank_of_isPlace hcolumn', h.imp id fun h => ⟨h.1, ?_⟩⟩
    exact ih hrow.tail hother.tail hplace hplace' h.2

theorem isPlace_flipped {sorting : List (Column × Bool)} {row : TableRow} :
    row.isPlace (flipped sorting) = row.isPlace sorting := by
  unfold isPlace flipped
  rw [List.all_map]
  rfl

end TableRow

end Listing
