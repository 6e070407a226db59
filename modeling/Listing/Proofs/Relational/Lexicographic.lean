import Listing.Proofs.Calendar.Order
import Listing.Proofs.Cursor
import Listing.Proofs.Relational.CursorCriterion
import Listing.Proofs.Source.Ordering
import Listing.Proofs.Value.Typed
import Listing.Sample.Shop

/-!
# The criterion of a cursor is lexicographic order

The criteria of a cursor ask one after the other for a tie in the first orders and for more, or less,
in the next one. Taken together they say where a row stands to the cursor in lexicographic order:
`Value.compareTuples` compares tuples of values, each place in the direction of its order, and a row
meets the criteria of a cursor that points forward if its tuple comes after that of the cursor, and those
of a cursor that points backward if it comes before (`Query.beyond_iff_compareWith`). Values compare as
the database stores them, which keeps decimals as the nearest binary numbers. By order nothing is compared
with a truth value, so a cursor that holds one under an order column is refused.
-/

namespace Listing

open Std

namespace Value

/-- The value that a database keeps. -/
def stored : Value → Value
  | .decimal d => .binary (Cell.realOfDecimal d)
  | v => v

/-- The order of two tuples of values, each place in a direction: the first place in which they are
not level decides. -/
def compareTuples : List Direction → List Value → List Value → Ordering
  | d :: ds, v :: vs, w :: ws => (d.turn (order v w)).then (compareTuples ds vs ws)
  | _, _, _ => .eq

end Value

theorem Cell.compare_ofBinary (x y : Binary64) :
    (Cell.number (.ofBinary x)).compare (.number (.ofBinary y)) =
      Value.order (.binary x) (.binary y) := by
  have hvalue : (Value.binary x).compare? (.binary y) =
      .ok ((Number.ofBinary x).compare? (.ofBinary y)) := rfl
  have hcell : (Cell.number (.ofBinary x)).compare (.number (.ofBinary y)) =
      ((Number.ofBinary x).compare? (.ofBinary y)).getD .eq := rfl
  simp only [hcell, Value.order, Value.nullFirst, Value.isNull, hvalue]
  cases (Number.ofBinary x).compare? (.ofBinary y) <;> rfl

theorem Moment.order_eq {m n : Moment} (hm : m.offset = none) (hn : n.offset = none) :
    Value.order (.moment m) (.moment n) = Ord.compare m.instant n.instant := by
  simp [Value.order, Value.nullFirst, Value.isNull, Value.compare?, Value.compareMoments, hm, hn]

theorem Decimal.IsNumber.holds {d : Decimal} (h : d.IsNumber) (name : String) :
    (Column.mk name .decimal).Holds (.decimal d) := by
  cases d with
  | nan _ _ _ => exact absurd h id
  | _ => rfl

theorem Binary64.holds {x : Binary64} (h : x ≠ .nan) (name : String) :
    (Column.mk name .binary).Holds (.binary x) := by
  cases x with
  | nan => exact absurd rfl h
  | _ => rfl

theorem Date.order_eq_eq_iff {d e : Date} (hd : d.Exists) (he : e.Exists) :
    Value.order (.date d) (.date e) = .eq ↔ (Value.date d).equal (.date e) = true := by
  have horder : Value.order (.date d) (.date e) = Ord.compare d.dayNumber e.dayNumber := rfl
  have hequal : (Value.date d).equal (.date e) = (d == e) := by
    unfold Value.equal Value.equal?
    rfl
  rw [horder, hequal, compare_dayNumber hd he, beq_iff_eq, Date.mk.injEq]
  simp only [Ordering.then_eq_eq, Nat.compare_eq_eq]

theorem Moment.order_eq_eq_iff {m n : Moment} (hm : m.offset = none) (hn : n.offset = none) :
    Value.order (.moment m) (.moment n) = .eq ↔ (Value.moment m).equal (.moment n) = true := by
  have hequal : (Value.moment m).equal (.moment n) = (m.instant == n.instant) := by
    unfold Value.equal Value.equal?
    simp [Value.isYes, Moment.equal, hm, hn]
  rw [Moment.order_eq hm hn, hequal, beq_iff_eq, Int.compare_eq_eq]

theorem Binary64.order_eq_eq_iff {x y : Binary64} (hx : x ≠ .nan) (hy : y ≠ .nan) :
    Value.order (.binary x) (.binary y) = .eq ↔ (Value.binary x).equal (.binary y) = true := by
  have hequal : (Value.binary x).equal (.binary y) = (Number.ofBinary x).equal (.ofBinary y) := by
    unfold Value.equal Value.equal? Value.equalNumbers?
    rfl
  rw [← Cell.compare_ofBinary, hequal]
  unfold Number.equal Cell.compare
  cases x <;> cases y
  all_goals first
    | exact absurd rfl hx
    | exact absurd rfl hy
    | simp [Number.ofBinary, Number.compare?]

namespace ColumnType.Owns

variable {t : ColumnType} {v w : Value}

/-- **Cells compare as the values do that are stored in them.** -/
theorem compare_cells (hv : t.Owns v) (hw : t.Owns w) :
    (Cell.ofValue v).compare (.ofValue w) = Value.order v.stored w.stored := by
  cases hv with
  | date h =>
    cases hw with
    | date h' =>
      have hdays := Date.compare_toChars h h' [] []
      rw [List.append_nil, List.append_nil, compare_self, Ordering.then_eq] at hdays
      exact hdays
  | moment withOffset h hoffset =>
    cases hw with
    | moment _ h' hoffset' =>
      exact (Moment.compare_momentText h h' hoffset hoffset').trans
        (Moment.order_eq hoffset hoffset').symm
  | integer m => cases hw; rfl
  | text s => cases hw; rfl
  | boolean b => cases hw; rfl
  | decimal h => cases hw; exact Cell.compare_ofBinary _ _
  | binary h => cases hw; exact Cell.compare_ofBinary _ _

/-- **Values are level exactly if they are stored as equal ones.** -/
theorem order_eq_eq_iff (hv : t.Owns v) (hw : t.Owns w) :
    Value.order v.stored w.stored = .eq ↔ v.stored.equal w.stored = true := by
  cases hv with
  | integer m => cases hw with
    | integer n =>
      have horder : Value.order (.int m) (.int n) = Ord.compare m n := by
        simp [Value.order, Value.nullFirst, Value.isNull, Value.compare?_int]
      show Value.order (.int m) (.int n) = .eq ↔ (Value.int m).equal (.int n) = true
      rw [horder, Value.equal_int, Int.compare_eq_eq, decide_eq_true_iff]
  | text s => cases hw with
    | text s' =>
      show Ord.compare s s' = .eq ↔ (Value.text s).equal (.text s') = true
      rw [Value.equal_text, LawfulEqCmp.compare_eq_iff_eq, Value.text.injEq]
  | boolean b => cases hw with
    | boolean b' => cases b <;> cases b' <;> decide +kernel
  | date h => cases hw with
    | date h' => exact Date.order_eq_eq_iff h h'
  | moment withOffset h hoffset => cases hw with
    | moment _ h' hoffset' => exact Moment.order_eq_eq_iff hoffset hoffset'
  | decimal h => cases hw with
    | decimal h' =>
      exact Binary64.order_eq_eq_iff (Cell.realOfDecimal_ne_nan (h.holds ""))
        (Cell.realOfDecimal_ne_nan (h'.holds ""))
  | binary h => cases hw with
    | binary h' => exact Binary64.order_eq_eq_iff h h'

/-- A parameter meets a column as the cell of its value. -/
theorem cell_ofValue (hv : t.Owns v) (ht : t ≠ .boolean) :
    (Parameter.ofValue t v).cell t = .ofValue v := by
  have hheld : ∀ {v}, (Column.mk "" t).Holds v → v.isPlace = true →
      (Parameter.ofValue t v).cell t = .ofValue v := by
    intro v h hplace
    have hcell := (h.parameter_spec hplace).1
    unfold Column.parameter at hcell
    rwa [h.coerced_eq] at hcell
  cases hv with
  | boolean b => exact absurd rfl ht
  | integer n => rfl
  | text s => rfl
  | date h => exact hheld rfl rfl
  | moment withOffset h hoffset => exact hheld ⟨withOffset, rfl⟩ rfl
  | decimal h => exact hheld (h.holds "") rfl
  | binary h => exact hheld (Binary64.holds h "") rfl

/-- A cell that is stored for a value of a type other than truth values compares as the value does. -/
theorem compares_cells (hv : t.Owns v) (hw : t.Owns w) :
    (Cell.ofValue v).compares .greater (.ofValue w) = (Value.order v.stored w.stored == .gt) ∧
    (Cell.ofValue v).compares .less (.ofValue w) = (Value.order v.stored w.stored == .lt) ∧
    (Cell.ofValue v).compares .equal (.ofValue w) = (Value.order v.stored w.stored == .eq) := by
  rw [← hv.compare_cells hw]
  cases hv <;> cases hw <;> exact ⟨rfl, rfl, rfl⟩

end ColumnType.Owns

/-- The side of a cursor that its criteria ask for. -/
def Cursor.side (forward : Bool) : Ordering := if forward then .gt else .lt

namespace Criterion

variable {column : Column} {v : Value}

/-- By order nothing is compared with a truth value. -/
theorem comparing_past_refused (entity : String) (hv : column.type.Owns v)
    (htype : column.type = .boolean) (direction : Direction) (forward : Bool) :
    comparing entity column (direction.past forward) v = .error .badComparison := by
  rw [htype] at hv
  cases hv
  rcases direction.past_cases forward with h | h <;> rw [h] <;> rfl

theorem comparing_owned {c : Comparison} (entity : String) (hv : column.type.Owns v)
    (htype : column.type ≠ .boolean) (hc : c = .greater ∨ c = .less ∨ c = .equal) :
    comparing entity column c v = .ok (.compare column c (.ofValue column.type v)) := by
  obtain ⟨name, t⟩ := column
  have hv : t.Owns v := hv
  cases hv with
  | boolean b => exact absurd rfl htype
  | _ => rcases hc with rfl | rfl | rfl <;> rfl

theorem holds_owned {c : Comparison} (hv : column.type.Owns v) (htype : column.type ≠ .boolean)
    (hc : c = .greater ∨ c = .less ∨ c = .equal) (db : Content) (row : TableRow) :
    holds db row (.compare column c (.ofValue column.type v)) =
      (row.cell column).compares c (.ofValue v) := by
  rw [← hv.cell_ofValue htype]
  rcases hc with rfl | rfl | rfl <;> rw [holds] <;> simp

variable {row : TableRow}

/-- The comparison of an order holds of the values that come past the cursor's one in its direction. -/
theorem holds_past (hv : column.type.Owns v) (hrow : column.type.Owns (row.get column.name))
    (htype : column.type ≠ .boolean) (direction : Direction) (forward : Bool) (db : Content) :
    holds db row (.compare column (direction.past forward) (.ofValue column.type v)) =
      (direction.turn (Value.order (row.get column.name).stored v.stored) == Cursor.side forward) := by
  obtain ⟨hgreater, hless, -⟩ := hrow.compares_cells hv
  have hcell : row.cell column = .ofValue (row.get column.name) := rfl
  rw [holds_owned hv htype (direction.past_cases_or_equal forward), hcell]
  generalize Value.order (row.get column.name).stored v.stored = o at hgreater hless
  cases direction <;> cases forward
  · exact hless.trans (by cases o <;> rfl)
  · exact hgreater.trans (by cases o <;> rfl)
  · exact hgreater.trans (by cases o <;> rfl)
  · exact hless.trans (by cases o <;> rfl)

theorem holds_tie (hv : column.type.Owns v) (hrow : column.type.Owns (row.get column.name))
    (htype : column.type ≠ .boolean) (db : Content) :
    holds db row (.compare column .equal (.ofValue column.type v)) =
      (Value.order (row.get column.name).stored v.stored == .eq) := by
  rw [holds_owned hv htype (.inr (.inr rfl))]
  exact (hrow.compares_cells hv).2.2

end Criterion

namespace Query

variable {q : Query} {cursor : Cursor} {orders : List (Value × Direction)}
  {places : List (Column × Value)}

theorem placeOf_text {name : String} {column : Column} {v : Value}
    (hcolumn : q.entity.column? name = some column)
    (hv : cursor.scalarParameter (.text name) = .ok v) :
    q.placeOf cursor (.text name) = .ok (column, column.type.coerced v) := by
  unfold placeOf
  rw [columnOf_text hcolumn, hv]
  rfl

/-- Does a row hold values of the columns' own types? -/
def OwnsRow (places : List (Column × Value)) (row : TableRow) : Prop :=
  ∀ p ∈ places, p.1.type.Owns (row.get p.1.name)

/-- The order of a row and a cursor that holds the places: that of the tuples of their values, as
the database stores them. -/
def compareWith (orders : List (Value × Direction)) (places : List (Column × Value))
    (row : TableRow) : Ordering :=
  Value.compareTuples (orders.map Prod.snd) (places.map fun p => (row.get p.1.name).stored)
    (places.map fun p => p.2.stored)

theorem compareWith_cons (o : Value × Direction) (p : Column × Value) (row : TableRow) :
    compareWith (o :: orders) (p :: places) row =
      (o.2.turn (Value.order (row.get p.1.name).stored p.2.stored)).then
        (compareWith orders places row) := rfl

/-- The first difference decides on which side a row is. -/
theorem then_beq_side (direction : Direction) (o rest : Ordering) (forward : Bool) :
    ((direction.turn o).then rest == Cursor.side forward) =
      (direction.turn o == Cursor.side forward || (o == .eq && rest == Cursor.side forward)) := by
  cases direction <;> cases o <;> cases forward <;> cases rest <;> rfl

theorem exists_beyond_owned
    (hplaces : List.Forall₂ (fun o p => q.placeOf cursor o.1 = .ok p) orders places)
    (howned : ∀ p ∈ places, p.1.type.Owns p.2) (hplain : ∀ p ∈ places, p.1.type ≠ .boolean)
    (equal : List Criterion) :
    ∃ cs, q.beyond cursor equal orders = .ok cs ∧ ∀ db row, OwnsRow places row →
      Criterion.oneHolds db row cs = (Criterion.allHold db row equal &&
        compareWith orders places row == Cursor.side cursor.forward) := by
  -- by induction on the orders; `equal` holds the ties in those before
  induction hplaces generalizing equal with
  | nil =>
    refine ⟨[], rfl, fun db row _ => ?_⟩
    cases cursor.forward <;> simp [Criterion.oneHolds, compareWith, Value.compareTuples, Cursor.side]
  | @cons o p orders places ho hplaces ih =>
    obtain ⟨name, direction⟩ := o
    obtain ⟨column, v⟩ := p
    have hv : column.type.Owns v := howned _ (List.mem_cons_self ..)
    have htype : column.type ≠ .boolean := hplain _ (List.mem_cons_self ..)
    have hpast := Criterion.comparing_owned q.entity.name hv htype
      (direction.past_cases_or_equal cursor.forward)
    have htie := Criterion.comparing_owned q.entity.name hv htype (.inr (.inr rfl))
    obtain ⟨cs, hcs, hholds⟩ := ih (fun p hp => howned p (List.mem_cons_of_mem _ hp))
      (fun p hp => hplain p (List.mem_cons_of_mem _ hp))
      (equal ++ [.compare column .equal (.ofValue column.type v)])
    refine ⟨.all (equal ++ [.compare column (direction.past cursor.forward)
      (.ofValue column.type v)]) :: cs, ?_, fun db row hrow => ?_⟩
    · rw [beyond_cons ho hpast htie, hcs]
      rfl
    · have hrow' : column.type.Owns (row.get column.name) := hrow _ (List.mem_cons_self ..)
      rw [Criterion.oneHolds, Criterion.holds,
        hholds db row fun p hp => hrow p (List.mem_cons_of_mem _ hp), compareWith_cons,
        then_beq_side]
      simp only [Criterion.allHold_append, Criterion.allHold, Bool.and_true,
        Criterion.holds_past hv hrow' htype, Criterion.holds_tie hv hrow' htype, Bool.and_assoc,
        Bool.and_or_distrib_left]

/-- **A cursor with a truth value under an order column is refused.** -/
theorem beyond_refused_of_boolean
    (hplaces : List.Forall₂ (fun o p => q.placeOf cursor o.1 = .ok p) orders places)
    (howned : ∀ p ∈ places, p.1.type.Owns p.2) (hboolean : ∃ p ∈ places, p.1.type = .boolean)
    (equal : List Criterion) : q.beyond cursor equal orders = .error .badComparison := by
  induction hplaces generalizing equal with
  | nil =>
    obtain ⟨p, hp, -⟩ := hboolean
    cases hp
  | @cons o p orders places ho hplaces ih =>
    obtain ⟨name, direction⟩ := o
    obtain ⟨column, v⟩ := p
    have hv : column.type.Owns v := howned _ (List.mem_cons_self ..)
    by_cases htype : column.type = .boolean
    · exact beyond_cons_refused ho
        (Criterion.comparing_past_refused q.entity.name hv htype direction cursor.forward) equal
    · have hrest : ∃ p ∈ places, p.1.type = .boolean := by
        obtain ⟨p, hp, hboolean⟩ := hboolean
        rcases List.mem_cons.1 hp with rfl | hp
        · exact absurd hboolean htype
        · exact ⟨p, hp, hboolean⟩
      rw [beyond_cons ho (Criterion.comparing_owned q.entity.name hv htype
          (direction.past_cases_or_equal cursor.forward))
        (Criterion.comparing_owned q.entity.name hv htype (.inr (.inr rfl))),
        ih (fun p hp => howned p (List.mem_cons_of_mem _ hp)) hrest]
      rfl

/-- A row is level with a cursor exactly if it ties with it under every order column. -/
theorem compareWith_eq_eq_iff (hlength : orders.length = places.length)
    (howned : ∀ p ∈ places, p.1.type.Owns p.2) {row : TableRow} (hrow : OwnsRow places row) :
    compareWith orders places row = .eq ↔
      ∀ p ∈ places, (row.get p.1.name).stored.equal p.2.stored = true := by
  induction places generalizing orders with
  | nil =>
    obtain rfl := List.length_eq_zero_iff.1 hlength
    simp [compareWith, Value.compareTuples]
  | cons p places ih =>
    obtain ⟨o, orders, rfl⟩ := List.exists_of_length_succ orders hlength
    have hlevel := (hrow p (List.mem_cons_self ..)).order_eq_eq_iff (howned p (List.mem_cons_self ..))
    rw [compareWith_cons, Ordering.then_eq_eq, Direction.turn_eq_eq, hlevel, List.forall_mem_cons,
      ih (Nat.succ.inj hlength) (fun p hp => howned p (List.mem_cons_of_mem _ hp))
        fun p hp => hrow p (List.mem_cons_of_mem _ hp)]

/-- **The criteria of a cursor are lexicographic order.** Where the values of the cursor are of the
types of the order columns and none of them is a truth value, a row comes after the cursor, before it,
or ties with it under all order columns, and the criteria for either direction hold of the rows on that
side. -/
theorem beyond_iff_compareWith (hplaces : orders.mapM (fun o => q.placeOf cursor o.1) = .ok places)
    (howned : ∀ p ∈ places, p.1.type.Owns p.2) :
    ((∃ p ∈ places, p.1.type = .boolean) → ∀ forward,
      q.beyond { cursor with forward := forward } [] orders = .error .badComparison) ∧
    ((∀ p ∈ places, p.1.type ≠ .boolean) → ∃ after before,
      q.beyond { cursor with forward := true } [] orders = .ok after ∧
      q.beyond { cursor with forward := false } [] orders = .ok before ∧
      ∀ db row, OwnsRow places row →
        ((Criterion.any after).holds db row = true ↔ compareWith orders places row = .gt) ∧
        ((Criterion.any before).holds db row = true ↔ compareWith orders places row = .lt) ∧
        ((∀ p ∈ places, (row.get p.1.name).stored.equal p.2.stored = true) ↔
          compareWith orders places row = .eq)) := by
  have hforall := mapM_eq_ok_iff.1 hplaces
  refine ⟨fun hboolean forward => ?_, fun hplain => ?_⟩
  · have hplaces' : List.Forall₂ (fun o p =>
        q.placeOf { cursor with forward := forward } o.1 = .ok p) orders places := hforall
    exact beyond_refused_of_boolean hplaces' howned hboolean []
  · have hafter : List.Forall₂ (fun o p =>
        q.placeOf { cursor with forward := true } o.1 = .ok p) orders places := hforall
    have hbefore : List.Forall₂ (fun o p =>
        q.placeOf { cursor with forward := false } o.1 = .ok p) orders places := hforall
    obtain ⟨after, hok, hholds⟩ := exists_beyond_owned hafter howned hplain []
    obtain ⟨before, hok', hholds'⟩ := exists_beyond_owned hbefore howned hplain []
    refine ⟨after, before, hok, hok', fun db row hrow => ⟨?_, ?_, ?_⟩⟩
    · rw [Criterion.holds, hholds db row hrow, Criterion.allHold, Bool.true_and, beq_iff_eq]
      rfl
    · rw [Criterion.holds, hholds' db row hrow, Criterion.allHold, Bool.true_and, beq_iff_eq]
      rfl
    · exact (compareWith_eq_eq_iff hforall.length_eq howned hrow).symm

end Query

namespace Shop

/-- The cursor at an item, as it is read from a token. -/
def releasedPrice : Cursor where
  parameters := [(.text "released", .text "2024-01-15"), (.text "price", .text "20.00"),
    (.text "active", .bool true)]

/-- Of the items that were released on one day the dearer ones come first. -/
theorem beyond_iff_compareWith_items :
    (∃ after before,
      (all item).beyond { releasedPrice with forward := true } []
        [(.text "released", .ascending), (.text "price", .descending)] = .ok after ∧
      (all item).beyond { releasedPrice with forward := false } []
        [(.text "released", .ascending), (.text "price", .descending)] = .ok before ∧
      ∀ db, (Criterion.any after).holds db
          [("released", day 2024 1 15), ("price", cents (-500))] = true ∧
        (Criterion.any before).holds db
          [("released", day 2024 1 15), ("price", cents 3050)] = true) ∧
    (all item).beyond { releasedPrice with forward := true } [] [(.text "active", .ascending)] =
      .error .badComparison := by
  have hcursor : ∀ {name : String} {v : Value}, (.text name, v) ∈ releasedPrice.parameters →
      v.isScalar = true → releasedPrice.scalarParameter (.text name) = .ok v := by
    intro name v hmem hscalar
    refine Cursor.scalarParameter_of_get? ?_ fun _ => hscalar
    refine Entries.get?_eq_some_of_mem ?_ (show List.Pairwise _ _ by decide +kernel) hmem
    simp [releasedPrice, Value.isName_text]
  have hreleased : (all item).placeOf releasedPrice (.text "released") =
      .ok (⟨"released", .date⟩, day 2024 1 15) :=
    Query.placeOf_text (show item.column? "released" = some ⟨"released", .date⟩ by decide +kernel)
      (hcursor (v := .text "2024-01-15") (by simp [releasedPrice]) rfl)
  have hprice : (all item).placeOf releasedPrice (.text "price") =
      .ok (⟨"price", .decimal⟩, cents 2000) :=
    Query.placeOf_text (show item.column? "price" = some ⟨"price", .decimal⟩ by decide +kernel)
      (hcursor (v := .text "20.00") (by simp [releasedPrice]) rfl)
  have hactive : (all item).placeOf releasedPrice (.text "active") =
      .ok (⟨"active", .boolean⟩, .bool true) :=
    Query.placeOf_text (show item.column? "active" = some ⟨"active", .boolean⟩ by decide +kernel)
      (hcursor (v := .bool true) (by simp [releasedPrice]) rfl)
  have hplaces : [(Value.text "released", Direction.ascending), (.text "price", .descending)].mapM
      (fun o => (all item).placeOf releasedPrice o.1) =
        .ok [(⟨"released", .date⟩, day 2024 1 15), (⟨"price", .decimal⟩, cents 2000)] :=
    mapM_eq_ok_iff.2 (.cons hreleased (.cons hprice .nil))
  constructor
  · obtain ⟨after, before, hafter, hbefore, hholds⟩ :=
      (Query.beyond_iff_compareWith hplaces (List.forall_mem_cons.2
        ⟨.date (by decide), List.forall_mem_singleton.2 (.decimal (by decide))⟩)).2 (by decide)
    have howned : ∀ price : Decimal, price.IsNumber →
        Query.OwnsRow [(⟨"released", .date⟩, day 2024 1 15), (⟨"price", .decimal⟩, cents 2000)]
          [("released", day 2024 1 15), ("price", .decimal price)] := fun price hprice =>
      List.forall_mem_cons.2 ⟨.date (by decide), List.forall_mem_singleton.2 (.decimal hprice)⟩
    exact ⟨after, before, hafter, hbefore, fun db =>
      ⟨(hholds db _ (howned _ (by decide))).1.2 (by decide +kernel),
        (hholds db _ (howned _ (by decide))).2.1.2 (by decide +kernel)⟩⟩
  · exact (Query.beyond_iff_compareWith (mapM_eq_ok_iff.2 (.cons hactive .nil))
      (by simpa using ColumnType.Owns.boolean true)).1 ⟨_, List.mem_singleton.2 rfl, rfl⟩ true

end Shop

end Listing
