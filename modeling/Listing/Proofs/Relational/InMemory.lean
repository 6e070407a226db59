import Listing.Proofs.Declaration.Codeless
import Listing.Proofs.Relational.Narrowing
import Listing.Proofs.Source.Window
import Listing.Proofs.Value.Comparable

/-!
# Tables in memory

The rows of a table are maps of its columns where they are held in memory (`Entity.asMap`). Of a table
of integers and texts (`Entity.IsTable`) they say what the table says. A text from a request that a
column can read (`Column.Reads`) compares alike, so that a condition on the maps holds where a criterion
holds of the rows (`Predicate.Mirrors`), and the rows are sorted alike (`Collection.ordered_asMap`).
-/

namespace Listing

/-! ## Integers and texts -/

namespace Column

variable {c : Column} {v w : Value}

/-- Is it a column of integers, or of texts? -/
def IsSimple (c : Column) : Prop := c.type = .integer ∨ c.type = .text

/-- Is it an integer under a column of integers, or a text under a column of texts? -/
inductive Fills (c : Column) : Value → Prop
  | int (n : Int) : c.type = .integer → Fills c (.int n)
  | text (s : String) : c.type = .text → Fills c (.text s)

theorem Holds.fills (hc : c.IsSimple) (h : c.Holds v) : v = .null ∨ c.Fills v := by
  have hother : ∀ {t : ColumnType}, c.type = t → t = .integer ∨ t = .text := fun ht => ht ▸ hc
  cases v with
  | null => exact .inl rfl
  | int n => exact .inr (.int n h.1)
  | text s => exact .inr (.text s h)
  | bool b | date d => exact absurd (hother h) (by simp)
  | decimal d =>
    cases d with
    | nan _ _ _ => exact absurd h id
    | _ => exact absurd (hother h) (by simp)
  | binary x =>
    cases x with
    | nan => exact absurd h id
    | _ => exact absurd (hother h) (by simp)
  | moment m =>
    obtain ⟨withOffset, h⟩ := h
    exact absurd (hother h) (by simp)
  | _ => exact absurd h id

/-- Two values that fill a column are two integers or two texts. -/
theorem Fills.both (hv : c.Fills v) (hw : c.Fills w) :
    (∃ m n, v = .int m ∧ w = .int n) ∨ ∃ s t, v = .text s ∧ w = .text t := by
  cases hv with
  | int m ht =>
    cases hw with
    | int n _ => exact .inl ⟨m, n, rfl, rfl⟩
    | text t ht' => cases ht.symm.trans ht'
  | text s ht =>
    cases hw with
    | int n ht' => cases ht.symm.trans ht'
    | text t _ => exact .inr ⟨s, t, rfl, rfl⟩

/-- **How two values that fill a column compare**, in memory and as cells. -/
theorem Fills.exists_order (hv : c.Fills v) (hw : c.Fills w) :
    ∃ o, v.compare? w = .ok (some o) ∧ v.equal? w = .ok (o == .eq) ∧
      (Cell.ofValue v).compare (.ofValue w) = o := by
  rcases hv.both hw with ⟨m, n, rfl, rfl⟩ | ⟨s, t, rfl, rfl⟩
  · exact ⟨_, Value.compare?_int .., Value.equal?_int .., Exact.compare_ofInt ..⟩
  · exact ⟨Ord.compare s t, rfl, Value.equal?_of_texts s t, rfl⟩

/-- **Keys of sorting are in the order of the cells.** -/
theorem keyAtMost_eq (hv : v = .null ∨ c.Fills v) (hw : w = .null ∨ c.Fills w) :
    keyAtMost v w = ((Cell.ofValue v).compare (.ofValue w) != .gt) := by
  rcases hv with rfl | hv
  · rcases hw with rfl | hw
    · rfl
    · cases hw <;> rfl
  rcases hw with rfl | hw
  · cases hv <;> rfl
  obtain ⟨o, hcompare, hequal, hcell⟩ := hv.exists_order hw
  have horder : keyOrder? v w = .ok (some o) := by
    have hkeys : keyOrder? v w =
        (do if ← v.equal? w then return some .eq else v.compare? w) := by
      rcases hv.both hw with ⟨m, n, rfl, rfl⟩ | ⟨s, t, rfl, rfl⟩ <;> rfl
    rw [hkeys, hequal, ok_bind, hcompare]
    cases o <;> rfl
  rw [keyAtMost, horder, hcell]
  cases o <;> rfl

end Column

/-! ## Comparisons -/

/-- Is it a comparison of an operator that is always there? -/
def Comparison.IsBuiltin (c : Comparison) : Prop := c ≠ .multipleOf ∧ c ≠ .startsWith

theorem Comparison.isBuiltin_of_find? {operator : Value} {c : Comparison}
    (h : Operators.builtin.find? operator = .ok (some c)) : c.IsBuiltin := by
  have hall : ∀ o ∈ Operators.builtin, o.2.IsBuiltin := by
    unfold Comparison.IsBuiltin
    decide
  cases operator with
  | text name =>
    obtain ⟨n, hn⟩ := Registry.mem_of_get? (Except.ok.inj h)
    exact hall _ hn
  | _ =>
    unfold Operators.find? at h
    dsimp only at h
    split at h <;> cases h

/-- Does a comparison hold of two values in this order? -/
def Comparison.ofOrder : Comparison → Ordering → Bool
  | .equal, o => o == .eq
  | .unequal, o => o != .eq
  | .less, o => o == .lt
  | .atMost, o => o != .gt
  | .greater, o => o == .gt
  | .atLeast, o => o != .lt
  | .multipleOf, _ | .startsWith, _ => false

/-- A comparison of an operator that is always there holds as the order of two values says. -/
theorem Comparison.holds?_of_order {c : Comparison} (hc : c.IsBuiltin) {v w : Value} {o : Ordering}
    (hcompare : v.compare? w = .ok (some o)) (hequal : v.equal? w = .ok (o == .eq)) :
    c.holds? v w = .ok (c.ofOrder o) := by
  cases c with
  | multipleOf => exact absurd rfl hc.1
  | startsWith => exact absurd rfl hc.2
  | equal => exact hequal
  | unequal =>
    rw [Comparison.holds?, hequal]
    rfl
  | _ =>
    rw [Comparison.holds?, hcompare]
    cases o <;> rfl

/-- **A comparison holds in memory where it holds of cells.** -/
theorem Column.Fills.holds?_eq {column : Column} {c : Comparison} (hc : c.IsBuiltin) {v w : Value}
    (hv : column.Fills v) (hw : column.Fills w) :
    c.holds? v w = .ok ((Cell.ofValue v).compares c (.ofValue w)) := by
  obtain ⟨o, hcompare, hequal, hcell⟩ := hv.exists_order hw
  have hcells : (Cell.ofValue v).compares c (.ofValue w) = c.ofOrder o := by
    rw [← hcell]
    cases c with
    | multipleOf => exact absurd rfl hc.1
    | startsWith => exact absurd rfl hc.2
    | _ => rcases hv.both hw with ⟨m, n, rfl, rfl⟩ | ⟨s, t, rfl, rfl⟩ <;> rfl
  rw [Comparison.holds?_of_order hc hcompare hequal, hcells]

/-! ## Values of requests -/

namespace Column

variable {c : Column} {v w : Value} {s : String}

/-- Can the column read a text from a request? One of integers has to find an integer in it that
a database takes. -/
def Reads (c : Column) (s : String) : Prop :=
  c.type = .integer → ∃ n, Number.readInteger? s = some n ∧
    -Parameter.maxInteger - 1 ≤ n ∧ n ≤ Parameter.maxInteger

/-- The value that a column reads a text as. -/
def read (c : Column) (s : String) : Value := c.type.coerced (.text s)

/-- **What a column reads** is a value of the column, and values in memory compare with it. -/
theorem Reads.spec (hc : c.IsSimple) (h : c.Reads s) : c.Holds (c.read s) ∧ c.Fills (c.read s) ∧
    ∀ w, c.Fills w → comparable w (.text s) = .ok (w, c.read s) := by
  rcases hc with ht | ht
  · obtain ⟨n, hread, hlow, hhigh⟩ := h ht
    have hvalue : c.read s = .int n := by
      rw [read, ht, ColumnType.coerced, ColumnType.ofText, hread]
      rfl
    rw [hvalue]
    refine ⟨⟨ht, hlow, hhigh⟩, .int n ht, fun w hw => ?_⟩
    rcases hw.both (.int n ht) with ⟨m, k, rfl, -⟩ | ⟨t, k, -, heq⟩
    · rw [comparable, Value.coercedLike, Coercion.textLike, hread]
      rfl
    · cases heq
  · have hvalue : c.read s = .text s := by
      rw [read, ht]
      rfl
    rw [hvalue]
    refine ⟨ht, .text s ht, fun w hw => ?_⟩
    rcases hw.both (.text s ht) with ⟨m, k, -, heq⟩ | ⟨t, k, rfl, -⟩
    · cases heq
    · rfl

theorem Fills.isPlace (h : c.Fills v) : v.isPlace = true := by
  cases h <;> rfl

theorem Fills.parameter_eq (h : c.Fills v) : c.parameter v = ParameterKind.plain.pass v := by
  obtain ⟨name, type⟩ := c
  cases h with
  | int n ht | text s ht =>
    obtain rfl : type = _ := ht
    rfl

/-- A column is compared with a value that fills it. -/
theorem Fills.comparing_eq (h : c.Fills v) {comparison : Comparison} (hbuiltin : comparison.IsBuiltin)
    (entity : String) : Criterion.comparing entity c comparison v =
      .ok (.compare c comparison (c.parameter v)) := by
  obtain ⟨name, type⟩ := c
  cases h with
  | int n ht | text s ht =>
    obtain rfl : type = _ := ht
    cases comparison with
    | multipleOf => exact absurd rfl hbuiltin.1
    | startsWith => exact absurd rfl hbuiltin.2
    | _ => rfl

/-- A list of values that a column reads is passed value by value. -/
theorem ofMembers_eq {vs : List Value} (h : ∀ v ∈ vs, c.Fills v) :
    Parameter.ofMembers c.type vs = vs.map c.parameter := by
  have hnull : vs.any Value.isNull = false := by
    rw [List.any_eq_false]
    intro v hv
    cases h v hv <;> exact Bool.false_ne_true
  unfold Parameter.ofMembers
  rw [hnull, if_neg Bool.false_ne_true]
  cases vs with
  | nil => rfl
  | cons v vs =>
    have hkind : ParameterKind.ofValue? v = some .plain := by
      cases h v (List.mem_cons_self ..) <;> rfl
    dsimp only
    rw [hkind]
    exact List.map_congr_left fun w hw => (h w hw).parameter_eq.symm

end Column

/-! ## Conditions -/

namespace Entity

/-- A row of a table as a map of all columns. -/
def asMap (e : Entity) (row : TableRow) : Value :=
  .map (Entries.ofPairs (e.columns.map fun c => (.text c.name, row.get c.name)))

/-- Is it a table of integers and texts whose rows hold such values? -/
structure IsTable (e : Entity) (rows : List TableRow) : Prop where
  bare : e.mapped = false
  unmarked : e.softDelete = none
  distinct : (e.columns.map (·.name)).Nodup
  simple : ∀ c ∈ e.columns, c.IsSimple
  holds : ∀ row ∈ rows, ∀ c ∈ e.columns, c.Holds (row.get c.name)

variable {e : Entity} {rows : List TableRow} {row : TableRow} {c : Column}

theorem readAttribute_asMap (hc : c ∈ e.columns) (row : TableRow) :
    readAttribute (e.asMap row) (.text c.name) = .ok (row.get c.name) := by
  rw [Value.readAttribute_text, asMap, Query.under_map hc]

theorem IsTable.column? (h : e.IsTable rows) (hc : c ∈ e.columns) :
    e.column? c.name = some c := by
  have hdistinct := h.distinct
  unfold Entity.column?
  generalize e.columns = columns at hc hdistinct
  induction columns with
  | nil => cases hc
  | cons d columns ih =>
    rw [List.map_cons, List.nodup_cons] at hdistinct
    rcases List.mem_cons.1 hc with rfl | hc
    · exact List.find?_cons_of_pos (beq_self_eq_true c.name)
    · have hne : d.name ≠ c.name := fun heq => hdistinct.1 (heq ▸ List.mem_map_of_mem hc)
      rw [List.find?_cons_of_neg (by simpa using hne), ih hc hdistinct.2]

theorem IsTable.fills (h : e.IsTable rows) (hc : c ∈ e.columns) (hrow : row ∈ rows) :
    row.get c.name = .null ∨ c.Fills (row.get c.name) :=
  (h.holds row hrow c hc).fills (h.simple c hc)

end Entity

/-- Does a condition on the rows of a table in memory hold where a criterion holds of the rows, which
can be looked up without fail? -/
structure Predicate.Mirrors (db : Content) (e : Entity) (rows : List TableRow) (p : Predicate)
    (k : Criterion) : Prop where
  holds : ∀ row ∈ rows, p.holds (e.asMap row) = .ok (k.holds db row)
  quiet : ∀ row, k.overruns db row = false
  taken : ∀ p ∈ k.parameters, p.IsTaken

namespace Predicate

variable {db : Content} {e : Entity} {rows : List TableRow} {column : Column}

theorem compare_mirrors (h : e.IsTable rows) (hcolumn : column ∈ e.columns) {c : Comparison}
    (hc : c.IsBuiltin) {s : String} (hs : column.Reads s) :
    Mirrors db e rows (.compare (.text column.name) c (.text s))
      (.compare column c (column.parameter (column.read s))) := by
  obtain ⟨hholds, hfills, hcomparable⟩ := hs.spec (h.simple column hcolumn)
  obtain ⟨hcell, htaken⟩ := hholds.parameter_spec hfills.isPlace
  refine ⟨fun row hrow => ?_, fun row => by rw [Criterion.overruns], fun p hp => ?_⟩
  · have hcriterion : Criterion.holds db row
        (.compare column c (column.parameter (column.read s))) =
          (Cell.ofValue (row.get column.name)).compares c (.ofValue (column.read s)) := by
      rw [Criterion.holds, hcell]
      · rfl
      · exact fun heq => hc.1 heq
    rw [Predicate.holds, Entity.readAttribute_asMap hcolumn, ok_bind, hcriterion]
    have hvalue := h.fills hcolumn hrow
    generalize row.get column.name = v at hvalue
    rcases hvalue with rfl | hvalue
    · rfl
    · have hcompares : compares c v (.text s) =
          comparable v (.text s) >>= fun p => c.holds? p.1 p.2 := by
        cases hvalue <;> rfl
      rw [hcompares, hcomparable v hvalue, ok_bind, hvalue.holds?_eq hc hfills]
  · rw [Criterion.parameters, List.mem_singleton] at hp
    rw [hp]
    exact htaken

/-- A value equals one of some texts in memory where it equals one of them as cells. -/
theorem equalsOne_eq (hcolumn : column.IsSimple) {texts : List String}
    (htexts : ∀ s ∈ texts, column.Reads s) {v : Value} (hv : column.Fills v) :
    equalsOne v (texts.map .text) =
      .ok (texts.any fun s => (Cell.ofValue v).compares .equal (.ofValue (column.read s))) := by
  induction texts with
  | nil => rfl
  | cons s texts ih =>
    obtain ⟨-, hfills, hcomparable⟩ := (htexts s (List.mem_cons_self ..)).spec hcolumn
    have hequal : v.equal? (column.read s) =
        .ok ((Cell.ofValue v).compares .equal (.ofValue (column.read s))) :=
      hv.holds?_eq (show Comparison.IsBuiltin .equal from ⟨nofun, nofun⟩) hfills
    rw [List.map_cons, equalsOne, hcomparable v hv, ok_bind, List.any_cons]
    dsimp only
    rw [hequal, ok_bind, ih fun t ht => htexts t (List.mem_cons_of_mem _ ht)]
    cases (Cell.ofValue v).compares .equal (.ofValue (column.read s)) <;> rfl

theorem member_mirrors (h : e.IsTable rows) (hcolumn : column ∈ e.columns) {texts : List String}
    (htexts : ∀ s ∈ texts, column.Reads s) :
    Mirrors db e rows (.member (.text column.name) (texts.map .text))
      (.member column (texts.map fun s => column.parameter (column.read s))) := by
  have hspec := fun s hs => (htexts s hs).spec (h.simple column hcolumn)
  refine ⟨fun row hrow => ?_, fun row => by rw [Criterion.overruns], fun p hp => ?_⟩
  · have hcriterion : Criterion.holds db row
        (.member column (texts.map fun s => column.parameter (column.read s))) =
          texts.any fun s =>
            (Cell.ofValue (row.get column.name)).compares .equal (.ofValue (column.read s)) := by
      rw [Criterion.holds, List.any_map, Bool.eq_iff_iff, List.any_eq_true, List.any_eq_true]
      refine exists_congr fun s => and_congr_right fun hs => ?_
      rw [Function.comp_apply, ((hspec s hs).1.parameter_spec (hspec s hs).2.1.isPlace).1]
      rfl
    rw [Predicate.holds, Entity.readAttribute_asMap hcolumn, ok_bind, hcriterion]
    have hvalue := h.fills hcolumn hrow
    generalize row.get column.name = v at hvalue
    rcases hvalue with rfl | hvalue
    · refine congrArg Except.ok (Eq.symm ?_)
      exact List.any_eq_false.2 fun s _ => Bool.false_ne_true
    · rw [← equalsOne_eq (h.simple column hcolumn) htexts hvalue]
      cases hvalue <;> rfl
  · rw [Criterion.parameters] at hp
    obtain ⟨s, hs, rfl⟩ := List.mem_map.1 hp
    exact ((hspec s hs).1.parameter_spec (hspec s hs).2.1.isPlace).2

variable {ps : List Predicate} {ks : List Criterion}

/-- **Conditions hold of a row in memory where the criteria hold of the row.** -/
theorem allHold_mirrors (h : List.Forall₂ (Mirrors db e rows) ps ks) {row : TableRow}
    (hrow : row ∈ rows) : allHold (e.asMap row) ps = .ok (Criterion.allHold db row ks) := by
  induction h with
  | nil => rw [allHold, Criterion.allHold]
  | cons hp _ ih =>
    rw [allHold, Criterion.allHold, hp.holds row hrow, ok_bind, ih]
    cases Criterion.holds db row _ <;> rfl

theorem allOverrun_mirrors (h : List.Forall₂ (Mirrors db e rows) ps ks) (row : TableRow) :
    Criterion.allOverrun db row ks = false := by
  induction h with
  | nil => rw [Criterion.allOverrun]
  | cons hp _ ih => rw [Criterion.allOverrun, hp.quiet, ih, Bool.and_false, Bool.or_false]

theorem taken_mirrors (h : List.Forall₂ (Mirrors db e rows) ps ks) :
    ∀ p ∈ Criterion.parametersOf ks, p.IsTaken := by
  induction h with
  | nil => simp [Criterion.parametersOf]
  | cons hp _ ih =>
    rw [Criterion.parametersOf, List.forall_mem_append]
    exact ⟨hp.taken, ih⟩

end Predicate

/-! ## Orders -/

namespace Collection

variable {e : Entity} {rows some : List TableRow} {column : Column}

/-- The rows of a table can be sorted in memory by the values under a column. -/
theorem sortKeyed?_asMap (h : e.IsTable rows) (hcolumn : column ∈ e.columns)
    (hsome : ∀ row ∈ some, row ∈ rows) :
    sortKeyed? (some.map fun row => (row.get column.name, e.asMap row)) =
      .ok ((TableRow.sortBy [(column, false)] some).map fun row =>
        (row.get column.name, e.asMap row)) := by
  have hfills := fun row hrow => h.fills hcolumn (hsome row hrow)
  have horder : haveOrder ((some.map fun row => (row.get column.name, e.asMap row)).map Prod.fst) =
      true := by
    have hkind : ∀ {k : KeyKind}, (∀ v, column.Fills v → keyKind? v = Option.some k) →
        allOfKind k ((some.map fun row => (row.get column.name, e.asMap row)).map Prod.fst) =
          true := by
      intro k hk
      rw [allOfKind, List.map_map, List.all_map, List.all_eq_true]
      intro row hrow
      have hvalue := hfills row hrow
      rw [Function.comp_apply, Function.comp_apply]
      dsimp only
      generalize row.get column.name = v at hvalue
      rcases hvalue with rfl | hvalue
      · rfl
      · have hkey := hk v hvalue
        cases hvalue <;> exact beq_iff_eq.2 hkey
    unfold haveOrder
    rcases h.simple column hcolumn with ht | ht
    · rw [hkind (k := .number) fun v hv => ?_]
      · rfl
      · cases hv with
        | int n _ => rfl
        | text s ht' => cases ht.symm.trans ht'
    · rw [hkind (k := .text) fun v hv => ?_, Bool.or_true]
      · rfl
      · cases hv with
        | int n ht' => cases ht.symm.trans ht'
        | text s _ => rfl
  unfold sortKeyed?
  rw [if_pos horder]
  refine congrArg Except.ok (List.map_mergeSort fun a ha b hb => ?_).symm
  rw [Column.keyAtMost_eq (hfills a ha) (hfills b hb)]
  show (TableRow.compareBy [(column, false)] a b != .gt) =
    ((a.cell column).compare (b.cell column) != .gt)
  rw [TableRow.compareBy]
  cases (a.cell column).compare (b.cell column) <;> rfl

/-- **The rows of a table are sorted in memory** as they are in the table. -/
theorem sortByKey?_asMap (h : e.IsTable rows) (hcolumn : column ∈ e.columns) (descends : Bool)
    (hsome : ∀ row ∈ some, row ∈ rows) :
    sortByKey? (fun row => readAttribute row (.text column.name)) descends (some.map e.asMap) =
      .ok ((TableRow.sortBy [(column, descends)] some).map e.asMap) := by
  have hplain : ∀ row ∈ some, row.IsPlain [(column, false)] := fun row hrow o ho => by
    rw [List.mem_singleton.1 ho]
    exact (h.holds row (hsome row hrow) column hcolumn).isPlain
  have hkeyed : (some.map e.asMap).mapM (fun row => do
      return (← readAttribute row (.text column.name), row)) =
        Except.ok (ε := Error) (some.map fun row => (row.get column.name, e.asMap row)) := by
    rw [mapM_eq_ok_iff, List.forall₂_map_left_iff, List.forall₂_map_right_iff, List.forall₂_same]
    intro row _
    rw [Entity.readAttribute_asMap hcolumn]
    rfl
  have hsorted := sortKeyed?_asMap h hcolumn hsome
  have hreversed := sortKeyed?_asMap h hcolumn fun row hrow => hsome row (List.mem_reverse.1 hrow)
  unfold sortByKey?
  rw [hkeyed, ok_bind]
  cases descends with
  | false =>
    rw [if_neg Bool.false_ne_true, hsorted, ok_bind, List.map_map]
    rfl
  | true =>
    rw [if_pos rfl, ← List.map_reverse, hreversed, ok_bind, List.map_map, ← List.map_reverse,
      TableRow.reverse_sortBy hplain]
    rfl

/-- **The rows of a table are in the same order in memory** as in the table; where they tie, they stay
as they are. -/
theorem ordered_asMap (h : e.IsTable rows) {orders : List (Value × Direction)}
    {sorting : List (Column × Bool)}
    (hsorting : List.Forall₂ (fun o s => s.1 ∈ e.columns ∧ o.1 = .text s.1.name ∧
      s.2 = (o.2 == Direction.descending)) orders sorting) (hsome : ∀ row ∈ some, row ∈ rows) :
    ordered orders (some.map e.asMap) =
      .ok ((TableRow.sortBy sorting some).map e.asMap) := by
  induction hsorting with
  | nil => rw [ordered, TableRow.sortBy_nil]
  | @cons o s orders sorting hs hrest ih =>
    obtain ⟨name, direction⟩ := o
    obtain ⟨column, descends⟩ := s
    obtain ⟨hcolumn, hname, hdescends⟩ := hs
    dsimp only at hname hdescends
    subst hname hdescends
    have hplain : ∀ row ∈ some, row.IsPlain ((column, direction == .descending) :: sorting) := by
      intro row hrow o ho
      have hknown : o.1 ∈ e.columns := by
        rcases List.mem_cons.1 ho with rfl | ho
        · exact hcolumn
        · obtain ⟨i, hi, rfl⟩ := List.getElem_of_mem ho
          exact (hrest.get (hrest.length_eq ▸ hi) hi).1
      exact (h.holds row (hsome row hrow) o.1 hknown).isPlain
    rw [ordered, ih, ok_bind, TableRow.sortBy_cons hplain]
    exact sortByKey?_asMap h hcolumn _ fun row hrow =>
      hsome row ((TableRow.sortBy_perm sorting some).mem_iff.1 hrow)

end Collection

end Listing
