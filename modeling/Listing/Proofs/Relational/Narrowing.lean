import Listing.Proofs.Page.Cut
import Listing.Proofs.Relational.CursorPages
import Listing.Proofs.Relational.Stores
import Listing.Proofs.Source.Narrowing

/-!
# Pages of selected columns

A query with columns selected looks up the rows that it looks up without, in the same order, and its
objects lack other columns only (`Query.fetch_selecting`). The cursors of its pages are those of the
pages without a selection, as far as the rows still have the columns that cursors are made of
(`Query.exists_narrowed`): objects do, and rows of a table if these columns are selected too. Where they
are not, a page that has a cursor is not answered (`Query.cursorPage_refused`).
-/

namespace Listing

/-! ## Narrowed rows -/

namespace Value

/-- The value of a row under a name, null if there is none. -/
def under (row : Value) (name : String) : Value :=
  match row with
  | .map es => (Entries.get? es (.text name)).getD .null
  | row => (row.attribute? name).getD .null

theorem readAttribute_text (row : Value) (name : String) :
    readAttribute row (.text name) = .ok (row.under name) := by
  cases row <;> rfl

/-- A row as a map of some names. -/
def narrowed (names : List String) (row : Value) : Value :=
  .map (Entries.ofPairs (names.map fun name => (.text name, row.under name)))

theorem narrowed_eq {names : List String} (h : names.Nodup) (row : Value) :
    row.narrowed names = .map (names.map fun name => (.text name, row.under name)) := by
  refine congrArg Value.map (Entries.ofPairs_eq_self (List.pairwise_map.2 (h.imp fun hne => ?_)))
  rw [Bool.eq_false_iff, Ne, equal_text, Value.text.injEq]
  exact hne

end Value

/-- Are rows others narrowed to columns of these names? Maps and other values are mapped to the names,
and objects lack what is hidden. Where no column is selected rows stay whole. -/
inductive Rows.NarrowedTo (names : List String) (hidden : String → String × Attribute → Prop) :
    Rows → Rows → Prop
  | whole (rows : Rows) : names = [] → NarrowedTo names hidden rows rows
  | plain (rows : List Value) : names ≠ [] →
    NarrowedTo names hidden (.plain rows) (.plain (rows.map (Value.narrowed names)))
  | graph {g g' : Graph} : names ≠ [] → g.Lacks hidden g' →
    NarrowedTo names hidden (.graph g) (.graph g')

theorem Rows.NarrowedTo.plain_map {names : List String}
    {hidden : String → String × Attribute → Prop} (h : names ≠ []) {α : Type} (rows : List α)
    (f : α → Value) :
    (Rows.plain (rows.map f)).NarrowedTo names hidden
      (.plain (rows.map fun row => Value.narrowed names (f row))) := by
  have hplain : NarrowedTo names hidden _ _ := .plain (rows.map f) h
  rwa [List.map_map] at hplain

namespace Query

variable {q : Query} {names : List String}

/-! ## Looking rows up -/

/-- Do keys tell the objects of a query and those related to them apart, and names its relations from
its columns? -/
structure Distinct (q : Query) : Prop where
  keys : q.db.KeysApart (q.entity :: q.db.schema)
  relations : ∀ r ∈ q.entity.relations, ∀ c ∈ q.entity.columns, c.name ≠ r.name

theorem selecting_nil (h : q.columns = []) : q.selecting [] = q := by
  show { q with columns := [] } = q
  rw [← h]

theorem selectedColumnList_selecting : (q.selecting names).selectedColumnList = q.ownColumns names := by
  show ((q.ownColumns names).map _).filterMap _ = _
  rw [List.filterMap_map]
  exact List.filterMap_some

theorem misled_selecting : (q.selecting names).misled = false := by
  rw [misled, List.any_eq_false]
  intro c hc
  obtain ⟨column, -, rfl⟩ := List.mem_map.1 hc
  exact Bool.false_ne_true

theorem selectedColumnList_of_none (h : q.columns = []) : q.selectedColumnList = [] := by
  rw [selectedColumnList, h]
  rfl

/-- **Objects lack unselected columns only.** -/
theorem objects_selecting (hcolumns : q.columns = []) (hdistinct : q.Distinct)
    (hnames : ∀ name ∈ names, q.Owns name) {rows : List TableRow}
    (hrows : ∀ row ∈ rows, row ∈ q.db.content.rowsOf q.entity.table) :
    Alike (Store.Lacks (q.entity.hides q.db names)) (q.objects rows)
      ((q.selecting names).objects rows) := by
  have hown : q.entity ∈ q.entity :: q.db.schema := List.mem_cons_self ..
  have hfilled : Store.Lacks (q.entity.hides q.db names)
      (q.entity.fillAll q.selectedColumnList rows [])
      (q.entity.fillAll (q.selecting names).selectedColumnList rows []) := by
    have hselected := Entity.fillAll_selected hdistinct.keys hown (q.ownColumns names) hrows
      (.refl _ [])
    rw [map_ownColumns hnames] at hselected
    rwa [selectedColumnList_of_none hcolumns, selectedColumnList_selecting]
  have haggregated : ∀ {s s' : Store}, Store.Lacks (q.entity.hides q.db names) s s' →
      Alike (ε := Error) (Store.Lacks (q.entity.hides q.db names))
        (rows.foldlM (fun s row => q.aggregates.foldlM (fun s a => do
          let v ← a.value q.db.content q.entity row
          return s.set (q.entity.keyOf row) a.label (.value v)) s) s)
        (rows.foldlM (fun s row => q.aggregates.foldlM (fun s a => do
          let v ← a.value q.db.content q.entity row
          return s.set (q.entity.keyOf row) a.label (.value v)) s) s') := by
    intro s s' h
    refine Alike.foldlM (fun s s' row _ h => Alike.foldlM (fun s s' a _ h => ?_) h) h
    exact Alike.bind (Alike.refl fun v _ => rfl) fun v v' _ hv => .ok (hv ▸ h.set _ _ _)
  unfold objects
  dsimp only
  split
  · exact haggregated hfilled
  · refine Alike.bind (Database.loadTo_alike hdistinct.keys hdistinct.relations _ _ hown ?_ hfilled)
      fun s s' _ h => haggregated h
    rw [List.forall_mem_map]
    exact hrows

/-- The rows that are looked up are rows of the table. -/
theorem mem_rowsOf {w : Window} {found : List TableRow} (h : q.matching = .ok found) :
    ∀ row ∈ w.cut (TableRow.sortBy q.sorting found),
      row ∈ q.db.content.rowsOf q.entity.table := by
  intro row hrow
  exact Database.mem_of_select h row ((TableRow.sortBy_perm ..).mem_iff.1 (mem_cut hrow))

/-- **The same rows are looked up**, as objects that lack unselected columns only. -/
theorem fetch_selecting (hcolumns : q.columns = []) (hdistinct : q.entity.mapped = true → q.Distinct)
    (hnames : ∀ name ∈ names, q.Owns name) (w : Window) :
    Alike (fun f f' => f'.rows = f.rows ∧ (∀ row ∈ f.rows, row ∈ q.db.content.rowsOf q.entity.table) ∧
        Store.Lacks (q.entity.hides q.db names) f.store f'.store)
      (q.fetch w) ((q.selecting names).fetch w) := by
  have hstraight : q.misled = false := by
    rw [misled, hcolumns]
    rfl
  unfold fetch
  rw [misled_selecting, hstraight]
  refine Alike.bind (Alike.refl fun _ _ => rfl) fun _ _ _ _ => ?_
  simp only [Bool.false_eq_true, if_false, selecting_criterion, selecting_aggregates,
    selecting_matching, selecting_sorting]
  split
  · exact .error _
  · refine Alike.bind (Alike.refl fun _ _ => rfl) fun found found' hfound heq => ?_
    obtain rfl : found = found' := heq
    have hrows := mem_rowsOf (w := w) hfound
    cases hmapped : q.entity.mapped with
    | true =>
      have hmapped' : (q.selecting names).entity.mapped = true := hmapped
      simp only [hmapped', if_true]
      exact Alike.bind (objects_selecting hcolumns (hdistinct hmapped) hnames hrows)
        fun store store' _ hstore => .ok ⟨rfl, hrows, hstore⟩
    | false =>
      have hmapped' : (q.selecting names).entity.mapped = false := hmapped
      simp only [hmapped', Bool.false_eq_true, if_false]
      exact .ok ⟨rfl, hrows, .refl _ _⟩

/-! ## Cursors -/

/-- The names of the columns that cursors are made of: those of the orders, or of the primary key if
there is no order. -/
def placeNames (q : Query) : List Value :=
  if q.orders.isEmpty then q.entity.key.map .text else q.orders.map Prod.fst

/-- Do rows still have the columns that cursors are made of where only columns of these names are
selected? -/
def KeepsPlaces (q : Query) (names : List String) : Prop :=
  q.entity.mapped = true ∨ names = [] ∨ ∀ name ∈ q.placeNames, ∃ n ∈ names, name = .text n

/-- Do two queries look at the same rows, of which they take the same columns? -/
structure Frames (q k : Query) : Prop where
  db : k.db = q.db
  entity : k.entity = q.entity
  projection : k.projection = q.projection
  columns : k.columns = q.columns

namespace Frames

variable {k : Query}

theorem refl (q : Query) : q.Frames q := ⟨rfl, rfl, rfl, rfl⟩

theorem trans {p : Query} (h : q.Frames k) (h' : k.Frames p) : q.Frames p :=
  ⟨h'.db.trans h.db, h'.entity.trans h.entity, h'.projection.trans h.projection,
    h'.columns.trans h.columns⟩

theorem owns (h : q.Frames k) (hnames : ∀ name ∈ names, q.Owns name) :
    ∀ name ∈ names, k.Owns name := by
  unfold Owns at hnames ⊢
  rw [h.entity, h.projection]
  exact hnames

theorem distinct (h : q.Frames k) (hdistinct : q.entity.mapped = true → q.Distinct) :
    k.entity.mapped = true → k.Distinct := by
  intro hmapped
  rw [h.entity] at hmapped
  obtain ⟨hkeys, hrelations⟩ := hdistinct hmapped
  exact ⟨by rwa [h.entity, h.db], by rwa [h.entity]⟩

theorem selecting (h : q.Frames k) (names : List String) :
    k.selecting names = k.withColumns ((q.ownColumns names).map fun c => (.text c.name, .column c)) := by
  unfold Query.selecting ownColumns
  rw [h.entity]

end Frames

/-- A script that selects nothing leaves a query that looks at the same rows. -/
theorem frames_run {k : Query} {t : Script} (ht : t.Asks (· ≠ .select))
    (h : t.run capabilities q = .ok k) : q.Frames k := by
  have hcolumns : k.columns = q.columns := by
    have hrun := Script.run_map (k := capabilities) (f := withColumns q.columns)
      (fun _ _ given hc => ask_withColumns hc given) ht q
    rw [show q.withColumns q.columns = q from rfl, h] at hrun
    rw [Except.ok.inj hrun]
    rfl
  have hask : ∀ (k : Query) (c : Capability) (given : List (Given Query)) (k' : Query),
      k.ask c given = .ok k' → (k.db = q.db ∧ k.entity = q.entity ∧ k.projection = q.projection) →
      (k'.db = q.db ∧ k'.entity = q.entity ∧ k'.projection = q.projection) := by
    rintro k c given k' hk ⟨hdb, hentity, hprojection⟩
    rcases ask_cases hk with hkeeps | ⟨name, direction, horder⟩
    · exact ⟨hkeeps.db.trans hdb, hkeeps.entity.trans hentity,
        hkeeps.projection.trans hprojection⟩
    · obtain ⟨column, -, rfl⟩ := order_eq_ok horder
      exact ⟨hdb, hentity, hprojection⟩
  obtain ⟨hdb, hentity, hprojection⟩ := Script.run_preserves hask h ⟨rfl, rfl, rfl⟩
  exact ⟨hdb, hentity, hprojection, hcolumns⟩

theorem frames_of_foldlM {keys : List String} {q k : Query}
    (h : keys.foldlM (fun q name => q.order (.text name) .ascending) q = .ok k) :
    q.Frames k ∧ k.orders = q.orders ++ keys.map fun name => (.text name, .ascending) := by
  induction keys generalizing q with
  | nil =>
    obtain rfl := Except.ok.inj h
    exact ⟨⟨rfl, rfl, rfl, rfl⟩, (List.append_nil _).symm⟩
  | cons name keys ih =>
    rw [List.foldlM_cons] at h
    obtain ⟨q', hq', h⟩ := bind_eq_ok_iff.1 h
    obtain ⟨column, -, rfl⟩ := order_eq_ok hq'
    obtain ⟨hframes, horders⟩ := ih h
    refine ⟨⟨hframes.db, hframes.entity, hframes.projection, hframes.columns⟩, ?_⟩
    rw [horders, List.map_cons, List.append_assoc]
    rfl

/-- The query that cursors are made of has its columns. -/
theorem frames_keyed {k : Query} (h : q.keyed = .ok k) :
    q.Frames k ∧ k.orders.map Prod.fst = q.placeNames := by
  unfold keyed at h
  unfold placeNames
  split at h
  · next hempty =>
    obtain ⟨hframes, horders⟩ := frames_of_foldlM h
    rw [if_pos hempty, horders, List.isEmpty_iff.1 hempty, List.nil_append, List.map_map]
    exact ⟨hframes, rfl⟩
  · next hne =>
    obtain rfl := Except.ok.inj h
    rw [if_neg hne]
    exact ⟨⟨rfl, rfl, rfl, rfl⟩, rfl⟩

theorem keyed_withColumns (cs : List (Value × Property)) :
    (q.withColumns cs).keyed = q.keyed.map (withColumns cs) := by
  unfold keyed
  show (if q.orders.isEmpty then _ else _) = _
  split
  · exact foldlM_map (fun q name => order_withColumns (.text name) .ascending) q.entity.key q
  · rfl

theorem beyond_withColumns (cs : List (Value × Property)) (cursor : Cursor) (equal : List Criterion)
    (orders : List (Value × Direction)) :
    (q.withColumns cs).beyond cursor equal orders = q.beyond cursor equal orders := by
  induction orders generalizing equal with
  | nil => rfl
  | cons o orders ih =>
    obtain ⟨name, direction⟩ := o
    unfold beyond
    simp only [ih]
    rfl

theorem fromCursor_withColumns (cs : List (Value × Property)) (cursor : Cursor) :
    (q.withColumns cs).fromCursor cursor = (q.fromCursor cursor).map (withColumns cs) := by
  unfold fromCursor
  simp only [beyond_withColumns, bind_map]
  refine bind_congr fun criteria => ?_
  split
  · rfl
  · simp only [bind_map]
    rfl

theorem frames_fromCursor {place : Query} {cursor : Cursor} (h : q.fromCursor cursor = .ok place) :
    q.Frames place := by
  unfold fromCursor at h
  obtain ⟨criteria, -, h⟩ := bind_eq_ok_iff.1 h
  dsimp only at h
  split at h
  · obtain rfl := Except.ok.inj h
    exact ⟨rfl, rfl, rfl, rfl⟩
  · obtain ⟨sorting, -, h⟩ := bind_eq_ok_iff.1 h
    obtain rfl := Except.ok.inj h
    exact ⟨rfl, rfl, rfl, rfl⟩

theorem ownColumns_ne_nil (hnames : ∀ name ∈ names, q.Owns name) (h : names ≠ []) :
    q.ownColumns names ≠ [] := by
  intro hnil
  have hmap := map_ownColumns hnames
  rw [hnil, List.map_nil] at hmap
  exact h hmap.symm

theorem taken_selecting (hnames : ∀ name ∈ names, q.Owns name) (h : names ≠ []) :
    (q.selecting names).taken = q.ownColumns names := by
  have hne : (q.selecting names).columns.isEmpty = false := by
    rw [List.isEmpty_eq_false_iff]
    exact fun hnil => ownColumns_ne_nil hnames h (List.map_eq_nil_iff.1 hnil)
  unfold taken
  rw [hne, if_neg Bool.false_ne_true, selectedColumnList_selecting]

theorem taken_of_none (h : q.columns = []) : q.taken = q.projection := by
  rw [taken, h]
  rfl

/-- Cursors can be made of narrowed rows if their columns are kept. -/
theorem readable_selecting {k : Query} (hkeyed : q.keyed = .ok k) (hnames : ∀ name ∈ names, q.Owns name)
    (hnil : names ≠ []) : (k.selecting names).Readable ↔ q.KeepsPlaces names := by
  obtain ⟨hframes, hplaces⟩ := frames_keyed hkeyed
  have hnames := hframes.owns hnames
  have hkept : ∀ o : Value × Direction, ((k.selecting names).taken.any fun c =>
      o.1.equal (.text c.name)) = true ↔ ∃ n ∈ names, o.1 = .text n := by
    intro o
    rw [taken_selecting hnames hnil, List.any_eq_true]
    conv_rhs => rw [← map_ownColumns hnames]
    simp only [List.mem_map, Value.equal_text, exists_exists_and_eq_and]
  unfold Readable KeepsPlaces
  rw [← hplaces, List.forall_mem_map]
  simp only [hnil, false_or, selecting_entity, selecting_orders, hkept, hframes.entity]

theorem mem_projection (hnames : ∀ name ∈ names, q.Owns name) {c : Column}
    (hc : c ∈ q.ownColumns names) : c ∈ q.projection := by
  obtain ⟨name, hname, hc⟩ := List.mem_filterMap.1 hc
  obtain ⟨c', hmem, hc', -⟩ := hnames name hname
  rwa [Option.some.inj (hc.symm.trans hc')]

/-- A row of a table as a map of its columns has the values of the row. -/
theorem under_map {columns : List Column} {row : TableRow} {c : Column} (hc : c ∈ columns) :
    (Value.map (Entries.ofPairs (columns.map fun c => (.text c.name, row.get c.name)))).under c.name =
      row.get c.name := by
  have hget : Entries.get? (Entries.ofPairs
      (columns.map fun c => (Value.text c.name, row.get c.name))) (.text c.name) =
        some (row.get c.name) := by
    refine Entries.get?_ofPairs ?_ (Value.isName_text _) ?_ ?_
    · rw [List.forall_mem_map]
      exact fun d _ => Value.isName_text _
    · rw [List.forall_mem_map]
      intro d _ heq
      rw [Value.text.inj heq]
    · exact ⟨_, List.mem_map_of_mem hc, rfl⟩
  show (Entries.get? _ _).getD .null = _
  rw [hget]
  rfl

/-- A row of a table as a map of its columns is narrowed to the map of some of them. -/
theorem narrowed_row (hnames : ∀ name ∈ names, q.Owns name) (row : TableRow) :
    Value.narrowed names
      (.map (Entries.ofPairs (q.projection.map fun c => (.text c.name, row.get c.name)))) =
        .map (Entries.ofPairs ((q.ownColumns names).map fun c => (.text c.name, row.get c.name))) := by
  unfold Value.narrowed
  conv_lhs => rw [← map_ownColumns hnames]
  rw [List.map_map]
  congr 2
  refine List.map_congr_left fun c hc => ?_
  show (Value.text c.name, Value.under _ c.name) = _
  rw [under_map (mem_projection hnames hc)]

/-- **Answers are narrowed to the selected columns.** -/
theorem answer_selecting (hcolumns : q.columns = []) (hnames : ∀ name ∈ names, q.Owns name)
    (hne : names ≠ []) {f f' : Fetched}
    (hstore : q.entity.mapped = true →
      Store.Lacks (q.entity.hides q.db names) f.store f'.store) (rows : List TableRow) :
    (q.answer f rows).NarrowedTo names (q.entity.hides q.db names)
      ((q.selecting names).answer f' rows) := by
  unfold answer
  rw [selecting_entity]
  split
  · have hrow : ∀ row ∈ rows,
        Value.map (Entries.ofPairs ((q.selecting names).taken.map fun c =>
          (.text c.name, row.get c.name))) =
        Value.narrowed names (.map (Entries.ofPairs (q.taken.map fun c =>
          (.text c.name, row.get c.name)))) := by
      intro row _
      rw [taken_selecting hnames hne, taken_of_none hcolumns, narrowed_row hnames]
    rw [List.map_congr_left hrow]
    exact .plain_map hne rows _
  · next hmapped =>
    rw [Bool.not_eq_true, Bool.not_eq_false'] at hmapped
    split
    · exact .plain [] hne
    · exact .graph hne ((hstore hmapped).graph (fun _ _ => Entity.keys_of_hides) _)

/-! ## Pages -/

theorem ofCursor?_eq_null_iff {cursor : Option Cursor} :
    CursorPage.ofCursor? cursor = .null ↔ cursor = none := by
  cases cursor with
  | none => exact ⟨fun _ => rfl, fun _ => rfl⟩
  | some c => exact ⟨nofun, nofun⟩

/-- The rows that cursors are made of are on the page. -/
theorem mem_visited {α : Type} {items : List α} {ahead behind : Bool} {row : α}
    (h : row ∈ (if ahead then items.getLast?.toList else []) ++
      if behind then items.head?.toList else []) : row ∈ items := by
  rcases List.mem_append.1 h with h | h
  · split at h
    · exact List.mem_of_getLast? (Option.mem_toList.1 h)
    · cases h
  · split at h
    · exact List.mem_of_head? (Option.mem_toList.1 h)
    · cases h

theorem columnOf_of_orders {k : Query} {columns : List Column}
    (h : (k.orders.map Prod.fst).mapM k.columnOf = .ok columns) :
    ∀ o ∈ k.orders, ∃ c, k.columnOf o.1 = .ok c := by
  intro o ho
  obtain ⟨c, -, hc⟩ := exists_of_mapM h (List.mem_map_of_mem ho)
  exact ⟨c, hc⟩

/-- Cursors can be made of the rows of a query that has a page with a cursor. -/
theorem readable_of_pageFrom {n : Int} {name : Value} {cursor : Option Cursor} {f : Fetched}
    {page : CursorPage} (h : q.pageFrom n name cursor f = .ok page)
    (hcursors : ¬ (page.next = .null ∧ page.previous = .null)) : q.Readable := by
  unfold pageFrom at h
  obtain ⟨cut, hcut, h⟩ := bind_eq_ok_iff.1 h
  obtain ⟨columns, horders, h⟩ := bind_eq_ok_iff.1 h
  obtain rfl := Except.ok.inj h
  simp only [ofCursor?_eq_null_iff] at hcursors
  by_contra hread
  have hfault := (CursorPage.cut_reread hcut q.read).2 .noKey hcursors
    fun row _ => position_refused (columnOf_of_orders horders) hread row
  cases hcut.symm.trans hfault

/-- **The page that narrowed rows make** is the page of the rows, narrowed, if cursors can be made of
the narrowed rows or none is needed, and no page otherwise. -/
theorem pageFrom_selecting (hcolumns : q.columns = []) (hdistinct : q.entity.mapped = true → q.Distinct)
    (hnames : ∀ name ∈ names, q.Owns name) (hne : names ≠ []) {n : Int} {name : Value}
    {cursor : Option Cursor} {f f' : Fetched} (hrows : f'.rows = f.rows)
    (htable : ∀ row ∈ f.rows, row ∈ q.db.content.rowsOf q.entity.table)
    (hstore : Store.Lacks (q.entity.hides q.db names) f.store f'.store) {page : CursorPage}
    (h : q.pageFrom n name cursor f = .ok page) :
    ((q.selecting names).Readable ∨ page.next = .null ∧ page.previous = .null →
      ∃ page', (q.selecting names).pageFrom n name cursor f' = .ok page' ∧
        page.items.NarrowedTo names (q.entity.hides q.db names) page'.items ∧
        page'.next = page.next ∧ page'.previous = page.previous) ∧
    (¬ ((q.selecting names).Readable ∨ page.next = .null ∧ page.previous = .null) →
      (q.selecting names).pageFrom n name cursor f' = .error .noKey) := by
  have hreadable := readable_of_pageFrom h
  unfold pageFrom at h ⊢
  obtain ⟨cut, hcut, h⟩ := bind_eq_ok_iff.1 h
  obtain ⟨columns, horders, h⟩ := bind_eq_ok_iff.1 h
  obtain rfl := Except.ok.inj h
  simp only [ofCursor?_eq_null_iff] at hreadable
  simp only [ofCursor?_eq_null_iff, selecting_orders, selecting_columnOf, horders, hrows]
  obtain ⟨hbare, hrefused⟩ := CursorPage.cut_reread hcut (q.selecting names).read
  constructor
  · intro hkept
    have hcut' : CursorPage.cut f.rows n cursor (q.orders.map Prod.fst) (q.selecting names).read =
        .ok cut := by
      by_cases hnone : cut.next = none ∧ cut.previous = none
      · exact hbare hnone
      · have hread' := hkept.resolve_right hnone
        have hread := hreadable hnone
        rw [← hcut]
        refine CursorPage.cut_congr fun row _ name hname => ?_
        obtain ⟨o, ho, rfl⟩ := List.mem_map.1 hname
        rw [read_eq hread ho, read_eq hread' ho, selecting_columnOf]
    rw [hcut', ok_bind, ok_bind]
    refine ⟨_, rfl, answer_selecting hcolumns hnames hne (fun hmapped => ?_) _, rfl, rfl⟩
    refine Entity.fillAll_lacks (hdistinct hmapped).keys (List.mem_cons_self ..)
      (List.mem_cons_self ..) _ (fun row hrow => htable row (CursorPage.mem_items hcut
        (mem_visited hrow))) hstore
  · intro hlost
    rw [not_or] at hlost
    rw [hrefused .noKey hlost.2 fun row _ =>
      position_refused (q := q.selecting names) (columnOf_of_orders horders) hlost.1 row]
    rfl

theorem keyed_selecting {k : Query} (h : q.keyed = .ok k) :
    (q.selecting names).keyed = .ok (k.selecting names) := by
  rw [(frames_keyed h).1.selecting]
  unfold selecting
  rw [keyed_withColumns, h]
  rfl

theorem fromPlace_selecting {place : Query} {cursor : Option Cursor}
    (h : q.fromPlace cursor = .ok place) :
    q.Frames place ∧ (q.selecting names).fromPlace cursor = .ok (place.selecting names) := by
  cases cursor with
  | none =>
    obtain rfl := Except.ok.inj h
    exact ⟨.refl q, rfl⟩
  | some cursor =>
    have hframes := frames_fromCursor h
    refine ⟨hframes, ?_⟩
    rw [hframes.selecting]
    show (q.withColumns _).fromCursor cursor = _
    rw [fromCursor_withColumns]
    rw [show q.fromCursor cursor = .ok place from h]
    rfl

/-- **Selecting columns does not change navigation**, except that rows of a table from which the
columns of cursors are left out make no page that has a cursor. -/
theorem cursorPage_selecting (hcolumns : q.columns = [])
    (hdistinct : q.entity.mapped = true → q.Distinct) (hnames : ∀ name ∈ names, q.Owns name)
    {n : Int} {name value : Value} {page : CursorPage} (h : q.cursorPage n name value = .ok page) :
    (q.KeepsPlaces names ∨ page.next = .null ∧ page.previous = .null →
      ∃ page', (q.selecting names).cursorPage n name value = .ok page' ∧
        page.items.NarrowedTo names (q.entity.hides q.db names) page'.items ∧
        page'.next = page.next ∧ page'.previous = page.previous) ∧
    (¬ (q.KeepsPlaces names ∨ page.next = .null ∧ page.previous = .null) →
      (q.selecting names).cursorPage n name value = .error .noKey) := by
  by_cases hne : names = []
  · subst hne
    rw [selecting_nil hcolumns]
    exact ⟨fun _ => ⟨page, h, .whole _ rfl, rfl, rfl⟩,
      fun hlost => absurd (.inl (.inr (.inl rfl))) hlost⟩
  obtain ⟨k, cursor, hk, hread⟩ := exists_reads h
  rw [cursorPage_eq hk hread] at h
  obtain ⟨place, hplace, h⟩ := bind_eq_ok_iff.1 h
  obtain ⟨f, hf, h⟩ := bind_eq_ok_iff.1 h
  obtain ⟨hkeyed, hplaces⟩ := frames_keyed hk
  obtain ⟨hframes, hplace'⟩ := fromPlace_selecting hplace
  have hall := hkeyed.trans hframes
  obtain ⟨f', hf', hrows, htable, hstore⟩ := (fetch_selecting (hall.columns.trans hcolumns)
    (hall.distinct hdistinct) (hall.owns hnames) { limit := some (n + 1) }).exists_ok hf
  rw [hframes.entity, hframes.db] at htable hstore
  have hpage := pageFrom_selecting (hkeyed.columns.trans hcolumns) (hkeyed.distinct hdistinct)
    (hkeyed.owns hnames) hne hrows htable hstore h
  rw [cursorPage_eq (keyed_selecting hk) hread, hplace', ok_bind, hf', ok_bind]
  rw [readable_selecting hk hnames hne, hkeyed.entity, hkeyed.db] at hpage
  exact hpage

end Query

end Listing
