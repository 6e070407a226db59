import Listing.Proofs.Calendar.Text
import Listing.Proofs.Relational.Keyset
import Listing.Proofs.Relational.Ordered
import Mathlib.Tactic.Ring

/-!
# The criterion of a cursor

A cursor holds the values of a row under the order columns. `Query.beyond` makes criteria of them
that the rows beyond that row meet, and no others: `Query.exists_beyond`. It makes them of rows only
that hold values to compare with. By order nothing is compared with a null or with a truth value, and
a cursor at a row that holds one under an order column is refused: `Query.beyond_refused`.
-/

namespace Listing

/-! ## Parameters -/

namespace Parameter

theorem trim_hyphen {d : Char} (hd : isSpace d = false) (ds rest : List Char) :
    ∃ rest', Text.trim isSpace (d :: ds ++ '-' :: rest) = d :: ds ++ '-' :: rest' := by
  have hhyphen : isSpace '-' = false := by decide
  unfold Text.trim
  rw [List.cons_append, List.dropWhile_cons_of_neg (by simp [hd]), ← List.cons_append,
    List.reverse_append, List.reverse_cons, List.append_assoc, List.singleton_append,
    List.dropWhile_append]
  split
  · rw [List.dropWhile_cons_of_neg (by simp [hhyphen])]
    exact ⟨[], by simp⟩
  · exact ⟨(rest.reverse.dropWhile isSpace).reverse, by simp⟩

/-- **A text that begins with digits and a hyphen is no number.** -/
theorem number?_hyphen {ds : List Char} (hne : ds ≠ [])
    (hds : ∀ c ∈ ds, Text.isAsciiDigit c = true) (rest : List Char) :
    number? (String.ofList (ds ++ '-' :: rest)) = none := by
  obtain ⟨d, ds, rfl⟩ := List.exists_cons_of_ne_nil hne
  have hd := Text.isAsciiDigit_iff.1 (hds d (List.mem_cons_self ..))
  have hspace : isSpace d = false := by
    rw [← Bool.not_eq_true]
    intro h
    simp only [isSpace, Bool.or_eq_true, beq_iff_eq, Bool.and_eq_true, decide_eq_true_eq] at h
    rcases h with rfl | h
    · exact absurd hd.1 (by decide)
    · omega
  obtain ⟨rest', htrim⟩ := trim_hyphen hspace ds rest
  have hsign : Decimal.splitSign (d :: ds ++ '-' :: rest') = (false, d :: ds ++ '-' :: rest') := by
    rw [List.cons_append]
    unfold Decimal.splitSign
    split
    · next heq =>
      obtain ⟨rfl, -⟩ := List.cons.inj heq
      exact absurd hd.1 (by decide)
    · next heq =>
      obtain ⟨rfl, -⟩ := List.cons.inj heq
      exact absurd hd.1 (by decide)
    · rfl
  have hends : Text.EndsDigits ('-' :: rest') := by
    rintro c ⟨⟩
    rfl
  obtain ⟨htake, hdrop⟩ := Text.takeWhile_digits hds hends
  unfold number? Decimal.scaled?
  rw [String.toList_ofList, htrim, hsign]
  dsimp only
  rw [htake, hdrop]
  rfl

theorem number?_date (d : Date) (rest : List Char) :
    number? (String.ofList (d.toChars ++ rest)) = none := by
  have h := number?_hyphen (Date.padded_ne_nil 4 d.year)
    (fun _ => Date.isAsciiDigit_of_mem_padded)
    (Date.padded 2 d.month ++ '-' :: Date.padded 2 d.day ++ rest)
  unfold Date.toChars
  simpa using h

/-- Dates and moments are texts to a database, and no numbers. -/
theorem cell_date {t : ColumnType} (d : Date) (rest : List Char) :
    (Parameter.text (String.ofList (d.toChars ++ rest))).cell t =
      .text (String.ofList (d.toChars ++ rest)) := by
  unfold cell
  simp only [number?_date]
  split <;> rfl

theorem exists_momentText (m : Moment) :
    ∃ rest, Cell.momentText m = String.ofList (m.date.toChars ++ rest) := by
  unfold Cell.momentText Moment.toChars
  simp only [List.append_assoc]
  exact ⟨_, rfl⟩

theorem ofBinary_of_ne_nan {x : Binary64} (h : x ≠ .nan) : ofBinary x = .real x := by
  cases x with
  | nan => exact absurd rfl h
  | _ => rfl

end Parameter

/-- Is the parameter one that a database takes? -/
structure Parameter.IsTaken (p : Parameter) : Prop where
  fits : p ≠ .unfit
  notRefused : p.refusal? = none

theorem Parameter.isTaken_integer {n : Int} (hlow : -Parameter.maxInteger - 1 ≤ n)
    (hhigh : n ≤ Parameter.maxInteger) : (Parameter.integer n).IsTaken := by
  have hoverflows : (Parameter.integer n).overflows = false := by
    rw [Parameter.overflows, Bool.or_eq_false_iff, decide_eq_false_iff_not, decide_eq_false_iff_not]
    omega
  refine ⟨by simp, ?_⟩
  show (if (Parameter.integer n).overflows then some Error.overflow else none) = none
  rw [hoverflows]
  rfl

namespace Column

/-- The parameter that a column is compared with for one of its values. -/
def parameter (column : Column) (v : Value) : Parameter :=
  .ofValue column.type (column.type.coerced v)

theorem Holds.parameter_spec {column : Column} {v : Value} (h : column.Holds v)
    (hplace : v.isPlace = true) :
    (column.parameter v).cell column.type = .ofValue v ∧ (column.parameter v).IsTaken := by
  obtain ⟨name, t⟩ := column
  cases v with
  | int n =>
    obtain ⟨ht, hlow, hhigh⟩ := h
    obtain rfl : t = .integer := ht
    exact ⟨rfl, Parameter.isTaken_integer hlow hhigh⟩
  | text s =>
    obtain rfl : t = .text := h
    have hp : Column.parameter ⟨name, .text⟩ (.text s) = .text s := rfl
    rw [hp]
    exact ⟨rfl, ⟨by simp, rfl⟩⟩
  | binary x =>
    have hx : x ≠ .nan := by
      rintro rfl
      exact h
    obtain rfl : t = .binary := by
      cases x with
      | nan => exact absurd rfl hx
      | _ => exact h
    have hp : Column.parameter ⟨name, .binary⟩ (.binary x) = .real x :=
      Parameter.ofBinary_of_ne_nan hx
    rw [hp]
    exact ⟨rfl, ⟨by simp, rfl⟩⟩
  | decimal d =>
    have hx := Cell.realOfDecimal_ne_nan h
    obtain rfl : t = .decimal := by
      cases d with
      | nan _ _ _ => exact absurd h id
      | _ => exact h
    have hp : Column.parameter ⟨name, .decimal⟩ (.decimal d) = .real (Cell.realOfDecimal d) := by
      cases d with
      | nan _ _ _ => exact absurd h id
      | _ => exact Parameter.ofBinary_of_ne_nan hx
    rw [hp]
    exact ⟨rfl, ⟨by simp, rfl⟩⟩
  | date d =>
    obtain rfl : t = .date := h
    have hp : Column.parameter ⟨name, .date⟩ (.date d) = .text (String.ofList d.toChars) := rfl
    have hcell := @Parameter.cell_date .date d []
    rw [List.append_nil] at hcell
    rw [hp]
    exact ⟨hcell, ⟨by simp, rfl⟩⟩
  | moment m =>
    obtain ⟨w, ht⟩ := h
    obtain rfl : t = .moment w := ht
    obtain ⟨rest, hrest⟩ := Parameter.exists_momentText m
    have hp : Column.parameter ⟨name, .moment w⟩ (.moment m) = .text (Cell.momentText m) := rfl
    rw [hp]
    refine ⟨?_, ⟨by simp, rfl⟩⟩
    rw [hrest, Parameter.cell_date, ← hrest]
    rfl
  | _ => cases hplace

theorem Holds.coerced_eq {column : Column} {v : Value} (h : column.Holds v) :
    column.type.coerced v = v := by
  cases v with
  | text s =>
    have ht : column.type = .text := h
    rw [ht]
    rfl
  | list vs | tuple vs => exact absurd h id
  | _ => rfl

theorem Holds.isScalar {column : Column} {v : Value} (h : column.Holds v) (hne : v ≠ .null) :
    v.isScalar = true := by
  cases v with
  | null => exact absurd rfl hne
  | text s | int n | bool b | decimal d | binary x | date d | moment m => rfl
  | _ => exact absurd h id

end Column

/-- The comparison with a cursor's value that an order asks for. -/
def Direction.past (direction : Direction) (forward : Bool) : Comparison :=
  if (direction == .ascending) == forward then .greater else .less

theorem Direction.past_cases (direction : Direction) (forward : Bool) :
    direction.past forward = .greater ∨ direction.past forward = .less := by
  unfold past
  split
  · exact .inl rfl
  · exact .inr rfl

theorem Direction.past_cases_or_equal (direction : Direction) (forward : Bool) :
    direction.past forward = .greater ∨ direction.past forward = .less ∨
      direction.past forward = .equal :=
  (direction.past_cases forward).imp id .inl

namespace Criterion

/-- Does the criterion compare a column with a parameter that a database takes? -/
def IsComparison (c : Criterion) : Prop :=
  ∃ column comparison p, c = .compare column comparison p ∧ p.IsTaken

theorem comparing_place {entity : String} {column : Column} {c : Comparison} {v : Value}
    (hc : c = .greater ∨ c = .less ∨ c = .equal) (h : column.Holds v) (hplace : v.isPlace = true) :
    comparing entity column c (column.type.coerced v) =
      .ok (.compare column c (column.parameter v)) := by
  unfold Column.parameter
  rw [h.coerced_eq]
  cases v with
  | int n | text s | decimal d | binary x | date d | moment m => rcases hc with rfl | rfl | rfl <;> rfl
  | _ => cases hplace

theorem comparing_refused {entity : String} {column : Column} {c : Comparison} {v : Value}
    (hc : c = .greater ∨ c = .less) (h : column.Holds v) (hplace : v.isPlace = false) :
    comparing entity column c (column.type.coerced v) = .error .badComparison := by
  rw [h.coerced_eq]
  cases v with
  | null => rcases hc with rfl | rfl <;> rfl
  | bool b => rcases hc with rfl | rfl <;> rfl
  | int n | text s | decimal d | binary x | date d | moment m => cases hplace
  | _ => exact absurd h id

theorem holds_compare {db : Content} {other : TableRow} {column : Column} {c : Comparison}
    {v : Value} (hc : c = .greater ∨ c = .less ∨ c = .equal) (h : column.Holds v)
    (hplace : v.isPlace = true) :
    holds db other (.compare column c (column.parameter v)) =
      (other.cell column).compares c (.ofValue v) := by
  rw [← (h.parameter_spec hplace).1]
  rcases hc with rfl | rfl | rfl <;> rw [holds] <;> simp

theorem allHold_append (db : Content) (row : TableRow) (as bs : List Criterion) :
    allHold db row (as ++ bs) = (allHold db row as && allHold db row bs) := by
  induction as with
  | nil => simp [allHold]
  | cons a as ih => simp [allHold, ih, Bool.and_assoc]

theorem parametersOf_append (as bs : List Criterion) :
    parametersOf (as ++ bs) = parametersOf as ++ parametersOf bs := by
  induction as with
  | nil => simp [parametersOf]
  | cons a as ih => simp [parametersOf, ih]

section Comparisons

variable {cs : List Criterion}

theorem isComparison_append (h : ∀ c ∈ cs, c.IsComparison) (column : Column)
    (comparison : Comparison) {p : Parameter} (hp : p.IsTaken) :
    ∀ c ∈ cs ++ [.compare column comparison p], c.IsComparison := by
  intro c hc
  rcases List.mem_append.1 hc with hc | hc
  · exact h c hc
  · exact ⟨_, _, _, List.mem_singleton.1 hc, hp⟩

theorem allOverrun_comparisons (h : ∀ c ∈ cs, c.IsComparison) (db : Content) (row : TableRow) :
    allOverrun db row cs = false := by
  induction cs with
  | nil => simp [allOverrun]
  | cons c cs ih =>
    obtain ⟨column, comparison, p, rfl, -⟩ := h c (List.mem_cons_self ..)
    simp [allOverrun, overruns, ih fun c hc => h c (List.mem_cons_of_mem _ hc)]

theorem length_parameters_comparisons (h : ∀ c ∈ cs, c.IsComparison) :
    (parametersOf cs).length = cs.length := by
  induction cs with
  | nil => simp [parametersOf]
  | cons c cs ih =>
    obtain ⟨column, comparison, p, rfl, -⟩ := h c (List.mem_cons_self ..)
    simp [parametersOf, parameters, ih fun c hc => h c (List.mem_cons_of_mem _ hc)]

theorem isTaken_comparisons (h : ∀ c ∈ cs, c.IsComparison) :
    ∀ p ∈ parametersOf cs, p.IsTaken := by
  induction cs with
  | nil => simp [parametersOf]
  | cons c cs ih =>
    obtain ⟨column, comparison, p, rfl, hp⟩ := h c (List.mem_cons_self ..)
    simp only [parametersOf, parameters, List.singleton_append, List.mem_cons]
    rintro p' (rfl | hp')
    · exact hp
    · exact ih (fun c hc => h c (List.mem_cons_of_mem _ hc)) p' hp'

end Comparisons

/-- Does one of the criteria hold exactly of the rows `p`, without fail, and have they `n`
parameters? -/
structure Finds (db : Content) (cs : List Criterion) (p : TableRow → Bool) (n : Nat) : Prop where
  holds : ∀ row, oneHolds db row cs = p row
  quiet : ∀ row, anyOverruns db row cs = false
  taken : ∀ p ∈ parametersOf cs, p.IsTaken
  count : (parametersOf cs).length = n

theorem Finds.nil (db : Content) : Finds db [] (fun _ => false) 0 where
  holds := fun row => by rw [oneHolds]
  quiet := fun row => by rw [anyOverruns]
  taken := fun p hp => by simp [parametersOf] at hp
  count := by simp [parametersOf]

theorem Finds.cons {db : Content} {as cs : List Criterion} {p : TableRow → Bool} {n : Nat}
    (ha : ∀ c ∈ as, c.IsComparison) (h : Finds db cs p n) :
    Finds db (.all as :: cs) (fun row => allHold db row as || p row) (as.length + n) where
  holds := fun row => by rw [oneHolds, Criterion.holds, h.holds]
  quiet := fun row => by
    rw [anyOverruns, overruns, allOverrun_comparisons ha, h.quiet, Bool.and_false, Bool.or_false]
  taken := fun p hp => by
    rw [parametersOf, parameters] at hp
    rcases List.mem_append.1 hp with hp | hp
    · exact isTaken_comparisons ha p hp
    · exact h.taken p hp
  count := by
    rw [parametersOf, parameters, List.length_append, length_parameters_comparisons ha, h.count]

end Criterion

namespace TableRow

/-- The order of columns in a direction. -/
def turned (forward : Bool) (sorting : List (Column × Bool)) : List (Column × Bool) :=
  sorting.map fun o => (o.1, o.2 == forward)

theorem turned_true (sorting : List (Column × Bool)) : turned true sorting = sorting := by
  simp [turned]

theorem turned_false (sorting : List (Column × Bool)) : turned false sorting = flipped sorting := by
  simp [turned, flipped]

end TableRow

namespace Query

variable {q : Query} {cursor : Cursor} {row : TableRow}

/-- Does a cursor hold the value of a row under an order? -/
def Places (q : Query) (cursor : Cursor) (row : TableRow) (o : Value × Direction)
    (s : Column × Bool) : Prop :=
  q.Sorts o s ∧ cursor.scalarParameter o.1 = .ok (row.get s.1.name)

theorem Places.placeOf {o : Value × Direction} {s : Column × Bool} (h : q.Places cursor row o s) :
    q.placeOf cursor o.1 = .ok (s.1, s.1.type.coerced (row.get s.1.name)) := by
  obtain ⟨⟨hcolumn, -⟩, hparameter⟩ := h
  unfold Query.placeOf
  rw [hcolumn, hparameter]
  rfl

/-- How rows compare with a cursor under an order. -/
theorem Sorts.past {o : Value × Direction} {s : Column × Bool} (h : q.Sorts o s) (forward : Bool) :
    o.2.past forward = if s.2 == forward then .less else .greater := by
  rw [h.2]
  cases o.2 <;> cases forward <;> rfl

section

variable {name : Value} {direction : Direction} {orders : List (Value × Direction)}
  {column : Column} {v : Value}

/-- The first order asks for the rows past the cursor, and the others for the rows that tie with it. -/
theorem beyond_cons (hplace : q.placeOf cursor name = .ok (column, v)) {past tie : Criterion}
    (hpast : Criterion.comparing q.entity.name column (direction.past cursor.forward) v = .ok past)
    (htie : Criterion.comparing q.entity.name column .equal v = .ok tie) (equal : List Criterion) :
    q.beyond cursor equal ((name, direction) :: orders) =
      (q.beyond cursor (equal ++ [tie]) orders).map (.all (equal ++ [past]) :: ·) := by
  unfold Direction.past at hpast
  rw [beyond, hplace]
  simp only [ok_bind, hpast, htie]
  cases q.beyond cursor (equal ++ [tie]) orders <;> rfl

theorem beyond_cons_refused (hplace : q.placeOf cursor name = .ok (column, v)) {e : Error}
    (hpast : Criterion.comparing q.entity.name column (direction.past cursor.forward) v = .error e)
    (equal : List Criterion) : q.beyond cursor equal ((name, direction) :: orders) = .error e := by
  unfold Direction.past at hpast
  rw [beyond, hplace]
  simp only [ok_bind, hpast, error_bind]

end

/-- **The criteria of a cursor hold of the rows beyond the cursor's row.** -/
theorem exists_beyond {orders : List (Value × Direction)} {sorting : List (Column × Bool)}
    (h : List.Forall₂ (q.Places cursor row) orders sorting) (hholds : row.Holds sorting)
    (hplace : row.isPlace sorting = true) {equal : List Criterion}
    (hequal : ∀ c ∈ equal, c.IsComparison) :
    ∃ cs n, q.beyond cursor equal orders = .ok cs ∧
      2 * n = orders.length * (orders.length + 1) + 2 * orders.length * equal.length ∧
      ∀ db, Criterion.Finds db cs (fun other => Criterion.allHold db other equal &&
        TableRow.isBeyond (TableRow.turned cursor.forward sorting) row other) n := by
  induction h generalizing equal with
  | nil =>
    refine ⟨[], 0, rfl, by simp, fun db => ?_⟩
    simpa [TableRow.turned, TableRow.isBeyond] using Criterion.Finds.nil db
  | @cons o s orders sorting ho h ih =>
    obtain ⟨name, direction⟩ := o
    obtain ⟨column, descends⟩ := s
    obtain ⟨hcolumn, hplace⟩ := TableRow.isPlace_cons.1 hplace
    have hv : column.Holds (row.get column.name) := hholds _ (List.mem_cons_self ..)
    have htaken := (hv.parameter_spec hcolumn).2
    have hc := direction.past_cases_or_equal cursor.forward
    have hpast := Criterion.isComparison_append hequal column (direction.past cursor.forward) htaken
    have htie := Criterion.isComparison_append hequal column .equal htaken
    obtain ⟨cs, n, hcs, hn, hfinds⟩ :=
      ih (fun o ho => hholds o (List.mem_cons_of_mem _ ho)) hplace htie
    refine ⟨.all (equal ++ [.compare column (direction.past cursor.forward)
      (column.parameter (row.get column.name))]) :: cs, equal.length + 1 + n, ?_, ?_, fun db => ?_⟩
    · rw [beyond_cons ho.placeOf (Criterion.comparing_place hc hv hcolumn)
        (Criterion.comparing_place (.inr (.inr rfl)) hv hcolumn), hcs]
      rfl
    · rw [List.length_append, List.length_singleton] at hn
      rw [List.length_cons]
      ring_nf at hn ⊢
      omega
    · have hcons := (hfinds db).cons hpast
      rw [List.length_append, List.length_singleton] at hcons
      refine (congrArg (Criterion.Finds db _ · _) (funext fun other => ?_)).mp hcons
      have hholds' := fun {c} hc => @Criterion.holds_compare db other column c _ hc hv hcolumn
      simp only [Criterion.allHold_append, Criterion.allHold, hholds' hc, hholds' (.inr (.inr rfl)),
        Bool.and_true, Bool.and_assoc, ← Bool.and_or_distrib_left]
      rw [ho.1.past cursor.forward]
      rfl

/-- **A cursor at a row with nothing to compare with is refused.** -/
theorem beyond_refused {orders : List (Value × Direction)} {sorting : List (Column × Bool)}
    (h : List.Forall₂ (q.Places cursor row) orders sorting) (hholds : row.Holds sorting)
    (hplace : row.isPlace sorting = false) (equal : List Criterion) :
    q.beyond cursor equal orders = .error .badComparison := by
  induction h generalizing equal with
  | nil => cases hplace
  | @cons o s orders sorting ho h ih =>
    obtain ⟨name, direction⟩ := o
    obtain ⟨column, descends⟩ := s
    have hv : column.Holds (row.get column.name) := hholds _ (List.mem_cons_self ..)
    cases hcolumn : (row.get column.name).isPlace with
    | false =>
      exact beyond_cons_refused ho.placeOf (Criterion.comparing_refused
        (direction.past_cases cursor.forward) hv hcolumn) equal
    | true =>
      have hrest : row.isPlace sorting = false := by
        rw [← Bool.not_eq_true] at hplace ⊢
        exact fun hrest => hplace (TableRow.isPlace_cons.2 ⟨hcolumn, hrest⟩)
      rw [beyond_cons ho.placeOf
        (Criterion.comparing_place (direction.past_cases_or_equal cursor.forward) hv hcolumn)
        (Criterion.comparing_place (.inr (.inr rfl)) hv hcolumn),
        ih (fun o ho => hholds o (List.mem_cons_of_mem _ ho)) hrest]
      rfl

end Query

end Listing
