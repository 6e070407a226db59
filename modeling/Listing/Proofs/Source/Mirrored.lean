import Listing.Proofs.Relational.InMemory
import Listing.Proofs.Source.Pages

/-!
# Queries and collections that answer alike

A collection that holds the rows of a table mirrors a query on the table while both are asked for the
same: `Query.Mirrored`. A call on columns, with values that the columns can read, keeps them so or fails
for both with one fault (`Query.Mirrored.run`). A collection that mirrors a query answers the same rows
(`Query.Mirrored.get_eq`), and the same numbered pages (`paginate_eq`, `simplePaginate_eq`).
-/

namespace Listing

/-! ## Calls on columns -/

/-- Is it a call on columns, with values that the columns can read? -/
inductive Call.IsOn (columns : List Column) : Call → Prop
  | select {c : Column} : c ∈ columns → Call.IsOn columns (.select (.text c.name))
  | compare {c : Column} {s : String} (operator : Value) : c ∈ columns → c.Reads s →
      Call.IsOn columns (.compare (.text c.name) operator (.text s))
  | member {c : Column} {texts : List String} : c ∈ columns → (∀ s ∈ texts, c.Reads s) →
      Call.IsOn columns (.member (.text c.name) (texts.map .text))
  | order {c : Column} (direction : Value) : c ∈ columns →
      Call.IsOn columns (.order (.text c.name) direction)

namespace Query

/-- Has a collection of the rows of a table been asked for the same as a query on the table? -/
structure Mirrored (db : Database) (e : Entity) (q : Query) (c : Collection) : Prop where
  database : q.db = db
  entity : q.entity = e
  connected : q.connected = true
  projection : q.projection = e.columns
  loadings : q.loadings = []
  aggregates : q.aggregates = []
  operators : q.operators = .builtin ∧ c.operators = .builtin
  rows : c.rows = (db.content.rowsOf e.table).map e.asMap
  conditions : List.Forall₂ (Predicate.Mirrors db.content e (db.content.rowsOf e.table))
    c.predicates q.criteria
  columns : ∃ names : List String, (∀ name ∈ names, ∃ column ∈ e.columns, name = column.name) ∧
    c.columns = names.map .text ∧
    q.columns = (names.filterMap e.column?).map fun column => (.text column.name, .column column)
  orders : c.orders = q.orders
  sorting : List.Forall₂ (fun o s => s.1 ∈ e.columns ∧ o.1 = .text s.1.name ∧
    s.2 = (o.2 == Direction.descending)) q.orders q.sorting

namespace Mirrored

variable {db : Database} {e : Entity} {q : Query} {c : Collection} {column : Column}

/-- The rows of a table in memory mirror the table. -/
theorem of_table (db : Database) (e : Entity) :
    Mirrored db e (.of db e) { rows := (db.content.rowsOf e.table).map e.asMap } where
  database := rfl
  entity := rfl
  connected := rfl
  projection := rfl
  loadings := rfl
  aggregates := rfl
  operators := ⟨rfl, rfl⟩
  rows := rfl
  conditions := .nil
  columns := ⟨[], nofun, rfl, rfl⟩
  orders := rfl
  sorting := .nil

theorem column? (h : Mirrored db e q c) (ht : e.IsTable (db.content.rowsOf e.table))
    (hcolumn : column ∈ e.columns) : q.entity.column? column.name = some column := by
  rw [h.entity]
  exact ht.column? hcolumn

theorem not_mapped (h : Mirrored db e q c) (ht : e.IsTable (db.content.rowsOf e.table)) :
    q.entity.mapped = false := by
  rw [h.entity]
  exact ht.bare

theorem owns (h : Mirrored db e q c) (ht : e.IsTable (db.content.rowsOf e.table)) {name : String}
    (hname : ∃ column ∈ e.columns, name = column.name) : q.Owns name := by
  obtain ⟨column, hcolumn, rfl⟩ := hname
  refine ⟨column, h.projection ▸ hcolumn, h.column? ht hcolumn, fun hmapped => ?_⟩
  rw [h.not_mapped ht] at hmapped
  cases hmapped

theorem propertyOf (h : Mirrored db e q c) (ht : e.IsTable (db.content.rowsOf e.table))
    (hcolumn : column ∈ e.columns) : q.propertyOf (.text column.name) = .ok (.column column) :=
  propertyOf_text (h.column? ht hcolumn) fun hmapped => by
    rw [h.not_mapped ht] at hmapped
    cases hmapped

/-! ### Calls -/

/-- The same columns are selected. -/
theorem selecting_eq (h : Mirrored db e q c) : ∃ names,
    (∀ name ∈ names, ∃ column ∈ e.columns, name = column.name) ∧
      c.selecting names = c ∧ q.selecting names = q := by
  obtain ⟨names, hnames, hc, hq⟩ := h.columns
  refine ⟨names, hnames, ?_, ?_⟩
  · show { c with columns := names.map .text } = c
    rw [← hc]
  · show { q with columns := (names.filterMap q.entity.column?).map _ } = q
    rw [h.entity, ← hq, ← h.entity]

theorem select (h : Mirrored db e q c) (ht : e.IsTable (db.content.rowsOf e.table))
    (hcolumn : column ∈ e.columns) :
    Alike (Mirrored db e) (q.select (.text column.name)) (c.select (.text column.name)) := by
  obtain ⟨names, hnames, hc, hq⟩ := h.selecting_eq
  have hquery : q.select (.text column.name) = .ok (q.selecting (adding names column.name)) := by
    conv_lhs => rw [← hq]
    exact select_selecting (fun name hname => h.owns ht (hnames name hname))
      (h.owns ht ⟨column, hcolumn, rfl⟩)
  have hcollection : c.select (.text column.name) = .ok (c.selecting (adding names column.name)) := by
    conv_lhs => rw [← hc]
    exact c.select_selecting names column.name
  rw [hquery, hcollection]
  refine .ok { h with columns := ⟨adding names column.name, fun name hname => ?_, rfl, ?_⟩ }
  · rcases mem_adding.1 hname with hname | rfl
    · exact hnames name hname
    · exact ⟨column, hcolumn, rfl⟩
  · rw [← h.entity]
    rfl

theorem filtered (h : Mirrored db e q c) {p : Predicate} {k : Criterion}
    (hp : p.Mirrors db.content e (db.content.rowsOf e.table) k) :
    Mirrored db e (q.filtered k) (c.filtered p) :=
  { h with conditions := List.rel_append h.conditions (.cons hp .nil) }

theorem compare (h : Mirrored db e q c) (ht : e.IsTable (db.content.rowsOf e.table))
    (hcolumn : column ∈ e.columns) {s : String} (hs : column.Reads s) (operator : Value) :
    Alike (Mirrored db e) (q.compare (.text column.name) operator (.text s))
      (c.compare (.text column.name) operator (.text s)) := by
  unfold Query.compare Collection.compare
  rw [h.operators.1, h.operators.2]
  cases hfound : Operators.builtin.find? operator with
  | error fault => exact .error fault
  | ok found =>
    cases found with
    | none => exact .error _
    | some comparison =>
      have hbuiltin := Comparison.isBuiltin_of_find? hfound
      obtain ⟨-, hfills, -⟩ := hs.spec (ht.simple column hcolumn)
      simp only [ok_bind, h.propertyOf ht hcolumn]
      rw [show column.type.coerced (.text s) = column.read s from rfl,
        hfills.comparing_eq hbuiltin, ok_bind]
      exact .ok (h.filtered (Predicate.compare_mirrors ht hcolumn hbuiltin hs))

theorem member (h : Mirrored db e q c) (ht : e.IsTable (db.content.rowsOf e.table))
    (hcolumn : column ∈ e.columns) {texts : List String} (htexts : ∀ s ∈ texts, column.Reads s) :
    Alike (Mirrored db e) (q.member (.text column.name) (.list (texts.map .text)))
      (c.ask .member [.value (.text column.name), .value (.list (texts.map .text))]) := by
  have hfills : ∀ v ∈ texts.map column.read, column.Fills v := by
    rw [List.forall_mem_map]
    exact fun s hs => ((htexts s hs).spec (ht.simple column hcolumn)).2.1
  have hamong : Criterion.among column ((texts.map Value.text).map column.type.coerced) =
      .ok (.member column (texts.map fun s => column.parameter (column.read s))) := by
    have hnull : (texts.map column.read).any Value.isNull = false := by
      rw [List.any_eq_false]
      intro v hv
      cases hfills v hv <;> exact Bool.false_ne_true
    rw [List.map_map, show column.type.coerced ∘ Value.text = column.read from rfl]
    unfold Criterion.among
    rw [hnull, Bool.false_and, if_neg Bool.false_ne_true, Column.ofMembers_eq hfills, List.map_map]
    rfl
  unfold Query.member
  simp only [h.propertyOf ht hcolumn, ok_bind]
  show Alike _ (Criterion.among column ((texts.map Value.text).map column.type.coerced) >>= _) _
  rw [hamong]
  exact .ok (h.filtered (Predicate.member_mirrors ht hcolumn htexts))

theorem order (h : Mirrored db e q c) (ht : e.IsTable (db.content.rowsOf e.table))
    (hcolumn : column ∈ e.columns) (direction : Value) :
    Alike (Mirrored db e) (q.ask .order [.value (.text column.name), .value direction])
      (c.order (.text column.name) direction) := by
  show Alike _ (Direction.ofValue direction >>= fun d => q.order (.text column.name) d) _
  unfold Collection.order
  cases Direction.ofValue direction with
  | error fault => exact .error fault
  | ok d =>
    unfold Query.order
    simp only [ok_bind, h.propertyOf ht hcolumn]
    exact .ok { h with
      orders := congrArg (· ++ [(Value.text column.name, d)]) h.orders
      sorting := List.rel_append h.sorting (.cons ⟨hcolumn, rfl, rfl⟩ .nil) }

/-- **A call on columns keeps a query mirrored**, or fails for both with one fault. -/
theorem run (h : Mirrored db e q c) (ht : e.IsTable (db.content.rowsOf e.table)) {call : Call}
    (hcall : call.IsOn e.columns) :
    Alike (Mirrored db e) (call.run capabilities q) (call.run Collection.capabilities c) := by
  cases hcall with
  | @select column hcolumn => exact Call.run_alike [.text column.name] rfl (h.select ht hcolumn)
  | @compare column s operator hcolumn hs =>
    exact Call.run_alike [.text column.name, operator, .text s] rfl (h.compare ht hcolumn hs operator)
  | @member column texts hcolumn htexts =>
    exact Call.run_alike [.text column.name, .list (texts.map .text)] rfl (h.member ht hcolumn htexts)
  | @order column direction hcolumn =>
    exact Call.run_alike [.text column.name, direction] rfl (h.order ht hcolumn direction)

/-- **A script of calls on columns keeps a query mirrored**, or fails for both with one fault. -/
theorem run_script (h : Mirrored db e q c) (ht : e.IsTable (db.content.rowsOf e.table))
    {script : Script} (hscript : ∀ call ∈ script.calls, call.IsOn e.columns) :
    Alike (Mirrored db e) (script.run capabilities q) (script.run Collection.capabilities c) :=
  Script.run_alike (fun call hcall _ _ h => h.run ht (hscript call hcall)) h

/-! ### Answers -/

/-- **The rows that meet the conditions**, and the list of them in memory. -/
theorem exists_rows (h : Mirrored db e q c) (ht : e.IsTable (db.content.rowsOf e.table)) :
    ∃ rows, q.Lists rows ∧ c.listing = .ok ((TableRow.sortBy q.sorting rows).map e.asMap) := by
  let rows := (db.content.rowsOf e.table).filter fun row =>
    Criterion.allHold db.content row q.criteria
  have hcriterion : q.criterion = .all q.criteria := by
    unfold criterion Entity.trashedCriterion
    rw [h.entity, ht.unmarked]
    cases q.trashed <;> simp
  have hparameters : q.criterion.parameters = Criterion.parametersOf q.criteria := by
    rw [hcriterion]
    rfl
  have hpassing : c.passing = .ok (rows.map e.asMap) := by
    unfold Collection.passing
    rw [h.rows]
    exact filterM_map_eq_ok fun row hrow => Predicate.allHold_mirrors h.conditions hrow
  refine ⟨rows, ⟨h.connected, ?_, ?_, ?_, ?_, ?_, ?_⟩, ?_⟩
  · obtain ⟨names, -, -, hq⟩ := h.selecting_eq
    rw [← hq]
    exact misled_selecting
  · rw [h.aggregates]
    rfl
  · unfold matching
    rw [hcriterion, h.database, h.entity]
    refine Criterion.select_eq_ok_iff.2 ⟨fun row _ => ?_, ?_⟩
    · exact Predicate.allOverrun_mirrors h.conditions row
    · rfl
  · rw [hparameters]
    exact Predicate.taken_mirrors h.conditions
  · rw [h.not_mapped ht]
    nofun
  · rw [h.loadings]
    nofun
  · unfold Collection.listing
    rw [hpassing, ok_bind, h.orders]
    exact Collection.ordered_asMap ht h.sorting fun row hrow => (List.mem_filter.1 hrow).1

/-- **The rows in memory with the selected columns** are the rows that the query answers. -/
theorem project (h : Mirrored db e q c) (ht : e.IsTable (db.content.rowsOf e.table))
    (rows : List TableRow) : c.project (rows.map e.asMap) = .ok (rows.map q.identity) := by
  obtain ⟨names, hnames, hc, hq⟩ := h.selecting_eq
  have howns : ∀ name ∈ names, q.Owns name := fun name hname => h.owns ht (hnames name hname)
  have hidentity : ∀ row, q.identity row =
      .map (Entries.ofPairs (q.taken.map fun c => (.text c.name, row.get c.name))) := fun row => by
    rw [identity, h.not_mapped ht]
    rfl
  rw [funext hidentity]
  by_cases hne : names = []
  · have hcolumns : c.columns = [] ∧ q.columns = [] := by
      rw [← hc, ← hq, hne]
      exact ⟨rfl, rfl⟩
    rw [Collection.project_of_none hcolumns.1, taken_of_none hcolumns.2, h.projection]
    rfl
  · have htaken : q.taken = q.ownColumns names := by
      rw [← hq, taken_selecting howns hne]
      rfl
    rw [← hc, Collection.project_selecting hne, List.map_map, htaken]
    refine congrArg Except.ok (List.map_congr_left fun row _ => ?_)
    rw [Function.comp_apply, Entity.asMap, ← h.projection, narrowed_row howns]

theorem answer_eq (h : Mirrored db e q c) (ht : e.IsTable (db.content.rowsOf e.table)) (f : Fetched)
    (rows : List TableRow) : q.answer f rows = .plain (rows.map q.identity) := by
  have hidentity : q.identity = fun row =>
      .map (Entries.ofPairs (q.taken.map fun c => (.text c.name, row.get c.name))) := by
    funext row
    rw [identity, h.not_mapped ht]
    rfl
  rw [answer, h.not_mapped ht, hidentity]
  rfl

/-- **Both answer the same rows.** -/
theorem get_eq (h : Mirrored db e q c) (ht : e.IsTable (db.content.rowsOf e.table))
    (hcount : q.criterion.parameters.length ≤ Parameter.countLimit) :
    q.get = c.get.map .plain := by
  obtain ⟨rows, hlists, hlisting⟩ := h.exists_rows ht
  obtain ⟨store, hstore⟩ := hlists.exists_fetch (w := {}) nofun hcount
  unfold Query.get Collection.get
  rw [hstore, ok_bind, hlisting, ok_bind, h.project ht, pure_eq_ok, h.answer_eq ht]
  rfl

/-- A part of the rows in memory with the selected columns. -/
theorem window_eq (h : Mirrored db e q c) (ht : e.IsTable (db.content.rowsOf e.table))
    (rows : List TableRow) (m n : Nat) : c.window (rows.map e.asMap) m (m + n : Nat) =
      .ok (.plain (((rows.drop m).take n).map q.identity)) := by
  unfold Collection.window
  rw [slice_natCast, ← List.map_drop, ← List.map_take, h.project ht]
  rfl

/-- **Both answer the same numbered pages.** -/
theorem paginate_eq (h : Mirrored db e q c) (ht : e.IsTable (db.content.rowsOf e.table))
    (hcount : q.criterion.parameters.length + 2 ≤ Parameter.countLimit) {n k : Nat}
    (hn : (n : Int) ≤ Parameter.maxInteger) (hk : ((k * n : Nat) : Int) ≤ Parameter.maxInteger)
    (name : Value) : q.paginate n (k + 1 : Nat) name = c.paginate n (k + 1 : Nat) name := by
  obtain ⟨rows, hlists, hlisting⟩ := h.exists_rows ht
  obtain ⟨store, hstore⟩ := hlists.exists_fetch (isTaken_bounds hn hk) hcount
  rw [cut_natCast] at hstore
  have hoffset : (((k + 1 : Nat) : Int) - 1) * (n : Int) = ((k * n : Nat) : Int) := by simp
  have hstop : ((k * n : Nat) : Int) + (n : Int) = ((k * n + n : Nat) : Int) := by simp
  unfold Query.paginate Collection.paginate
  simp only [hlists.count_eq (by omega), hlisting, ok_bind, hoffset, hstop, hstore, h.answer_eq ht,
    h.window_eq ht, List.length_map, (TableRow.sortBy_perm q.sorting rows).length_eq]

/-- **Both answer the same numbered pages without the number of all rows.** -/
theorem simplePaginate_eq (h : Mirrored db e q c) (ht : e.IsTable (db.content.rowsOf e.table))
    (hcount : q.criterion.parameters.length + 2 ≤ Parameter.countLimit) {n k : Nat}
    (hn : ((n + 1 : Nat) : Int) ≤ Parameter.maxInteger)
    (hk : ((k * n : Nat) : Int) ≤ Parameter.maxInteger) (name : Value) :
    q.simplePaginate n (k + 1 : Nat) name = c.simplePaginate n (k + 1 : Nat) name := by
  obtain ⟨rows, hlists, hlisting⟩ := h.exists_rows ht
  obtain ⟨store, hstore⟩ := hlists.exists_fetch (isTaken_bounds hn hk) hcount
  rw [cut_natCast] at hstore
  have hoffset : (((k + 1 : Nat) : Int) - 1) * (n : Int) = ((k * n : Nat) : Int) := by simp
  have hstop : ((k * n : Nat) : Int) + (n : Int) = ((k * n + n : Nat) : Int) := by simp
  have hone : (n : Int) + 1 = ((n + 1 : Nat) : Int) := by simp
  -- one row more than the page holds is read, to see whether rows follow
  have htake : ∀ rows : List TableRow, slice (rows.take (n + 1)) 0 (n : Int) = rows.take n := by
    intro rows
    have hslice := slice_natCast (rows.take (n + 1)) 0 n
    rw [Nat.zero_add, List.drop_zero, List.take_take, Nat.min_eq_left (Nat.le_succ n)] at hslice
    exact hslice
  have hmore : ∀ rows : List TableRow,
      (((n : Int) < ((rows.drop (k * n)).take (n + 1)).length) ↔
        ((k * n + n : Nat) : Int) < rows.length) := by
    intro rows
    rw [List.length_take, List.length_drop]
    omega
  unfold Query.simplePaginate Collection.simplePaginate
  simp only [hlisting, ok_bind, hoffset, hstop, hone, hstore, h.answer_eq ht, h.window_eq ht,
    List.length_map, pure_eq_ok, htake, hmore]

end Mirrored

end Query

end Listing
