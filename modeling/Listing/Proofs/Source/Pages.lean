import Listing.Proofs.Relational.Narrowing
import Listing.Proofs.Source.Columns

/-!
# Pages of sources with selected columns

A page of a source is asked for with the columns that are selected, which changes nothing. Selecting
columns narrows the rows of a page in memory (`Collection.project_selecting`), and navigation stays as
it is, but where rows of a table lose the columns that cursors are made of
(`Source.cursorPage_selecting`).
-/

namespace Listing

/-! ## Rows in memory -/

namespace Collection

variable {c : Collection} {names : List String}

theorem selecting_nil (h : c.columns = []) : c.selecting [] = c := by
  show { c with columns := [] } = c
  rw [← h]

theorem project_selecting (hnames : names ≠ []) (rows : List Value) :
    (c.selecting names).project rows = .ok (rows.map (Value.narrowed names)) := by
  have hempty : (c.selecting names).columns.isEmpty = false :=
    List.isEmpty_eq_false_iff.2 fun h => hnames (List.map_eq_nil_iff.1 h)
  have hrow : ∀ row, (c.selecting names).projectRow row = .ok (Value.narrowed names row) := by
    intro row
    have hmap : (names.map Value.text).mapM (fun column => do
        return (column, ← readAttribute row column)) =
          Except.ok (names.map fun name => (.text name, row.under name)) := by
      rw [mapM_eq_ok_iff, List.forall₂_map_left_iff, List.forall₂_map_right_iff, List.forall₂_same]
      intro name _
      rw [Value.readAttribute_text]
      rfl
    unfold projectRow
    show (names.map Value.text).mapM _ >>= _ = _
    rw [hmap]
    rfl
  unfold project
  rw [hempty, if_neg Bool.false_ne_true, mapM_eq_ok_iff, List.forall₂_map_right_iff,
    List.forall₂_same]
  exact fun row _ => hrow row

theorem project_of_none (h : c.columns = []) (rows : List Value) : c.project rows = .ok rows := by
  rw [project, h]
  rfl

/-- **Selecting columns narrows the rows that are listed.** -/
theorem get_selecting (hcolumns : c.columns = []) (hnames : names ≠ []) :
    (c.selecting names).get = c.get.map (List.map (Value.narrowed names)) := by
  rw [get, get, show (c.selecting names).listing = c.listing from rfl, bind_map]
  refine bind_congr fun rows => ?_
  rw [project_selecting hnames, project_of_none hcolumns]
  rfl

/-- The page at a cursor from the rows in order. -/
def pageFrom (c : Collection) (n : Int) (name : Value) (cursor : Option Cursor) (rows : List Value) :
    Except Error CursorPage := do
  let (start, stop) ← bounds rows.length n cursor
  return { items := ← c.window rows start stop, perPage := .int n
           cursor := CursorPage.ofCursor? cursor
           next := if stop < rows.length then (cursorAt stop true).toValue else .null
           previous := if 0 < start then (cursorAt start false).toValue else .null
           links := { name := name } }

variable {hidden : String → String × Attribute → Prop} {n : Int} {name value : Value}
  {page : CursorPage}

theorem pageFrom_selecting (hcolumns : c.columns = []) (hne : names ≠ []) {cursor : Option Cursor}
    {rows : List Value} (h : c.pageFrom n name cursor rows = .ok page) :
    ∃ page', (c.selecting names).pageFrom n name cursor rows = .ok page' ∧
      page.items.NarrowedTo names hidden page'.items ∧
      page'.next = page.next ∧ page'.previous = page.previous := by
  unfold pageFrom at h ⊢
  obtain ⟨⟨start, stop⟩, hbounds, h⟩ := bind_eq_ok_iff.1 h
  obtain ⟨items, hitems, h⟩ := bind_eq_ok_iff.1 h
  obtain rfl := Except.ok.inj h
  unfold window at hitems ⊢
  rw [project_of_none hcolumns] at hitems
  obtain rfl := Except.ok.inj hitems
  rw [hbounds, ok_bind]
  simp only [project_selecting hne, ok_bind, pure_eq_ok]
  exact ⟨_, rfl, .plain _ hne, rfl, rfl⟩

/-- **Selecting columns of rows in memory does not change navigation.** -/
theorem cursorPage_selecting (hcolumns : c.columns = []) (names : List String)
    (h : c.cursorPage n name value = .ok page) :
    ∃ page', (c.selecting names).cursorPage n name value = .ok page' ∧
      page.items.NarrowedTo names hidden page'.items ∧
      page'.next = page.next ∧ page'.previous = page.previous := by
  by_cases hne : names = []
  · subst hne
    rw [selecting_nil hcolumns]
    exact ⟨page, h, .whole _ rfl, rfl, rfl⟩
  unfold cursorPage at h ⊢
  rw [show (c.selecting names).listing = c.listing from rfl]
  obtain ⟨rows, hrows, h⟩ := bind_eq_ok_iff.1 h
  rw [hrows, ok_bind]
  dsimp only at h ⊢
  split at h
  · exact pageFrom_selecting hcolumns hne (show c.pageFrom n name none rows = _ from h)
  · obtain ⟨cursor, hcursor, h⟩ := bind_eq_ok_iff.1 h
    rw [hcursor]
    exact pageFrom_selecting hcolumns hne h

end Collection

/-! ## Sources -/

/-- Selecting names that are selected changes nothing. -/
theorem selectAll_of_select {σ : Type} {select : σ → Value → Except Error σ} {s : σ}
    {names : List String} (h : ∀ name ∈ names, select s (.text name) = .ok s) :
    (names.map Value.text).foldlM select s = .ok s := by
  induction names with
  | nil => rfl
  | cons name names ih =>
    rw [List.map_cons, List.foldlM_cons, h name (List.mem_cons_self ..), ok_bind,
      ih fun name hname => h name (List.mem_cons_of_mem _ hname)]

theorem adding_of_mem {names : List String} {name : String} (h : name ∈ names) :
    adding names name = names := if_pos h

namespace Source

variable {s source : Source} {names : List String}

/-- Do keys tell the objects of a source apart, and names its relations from its columns? -/
def Distinct : Source → Prop
  | .query q => q.entity.mapped = true → q.Distinct
  | _ => True

/-- Do rows still have the columns that cursors are made of where only columns of these names are
selected? The cursors of rows in memory are positions. -/
def KeepsPlaces : Source → List String → Prop
  | .query q, names => q.KeepsPlaces names
  | _, _ => True

/-- Is an attribute of an object hidden where only columns of these names are selected? -/
def hides : Source → List String → String → String × Attribute → Prop
  | .query q, names => q.entity.hides q.db names
  | _, _ => fun _ _ => False

/-- The selected columns, as pages are asked for with them. -/
def columnsValue (s : Source) : Except Error Value :=
  s.selectedColumns.map fun columns => (columns.map Value.list).getD .null

/-- Selecting the selected columns again changes nothing. -/
theorem selectAll_texts {σ : Type} {select : σ → Value → Except Error σ} {t : σ}
    (h : ∀ name ∈ names, select t (.text name) = .ok t) {columns : Value}
    (hcolumns : names = [] ∧ columns = .null ∨ names ≠ [] ∧ columns = .list (names.map .text)) :
    (readColumns columns >>= fun columns => columns.foldlM select t) = .ok t := by
  rcases hcolumns with ⟨-, rfl⟩ | ⟨hne, rfl⟩
  · rfl
  · have htruthy : (Value.list (names.map .text)).truthy = true := by
      cases names with
      | nil => exact absurd rfl hne
      | cons => rfl
    unfold readColumns
    rw [if_pos htruthy]
    exact selectAll_of_select h

theorem columnsValue_selecting (hbare : s ≠ .bare) (hnames : ∀ name ∈ names, s.Owns name) :
    ∃ columns, (s.selecting names).columnsValue = .ok columns ∧
      (names = [] ∧ columns = .null ∨ names ≠ [] ∧ columns = .list (names.map .text)) := by
  have hselected : (s.selecting names).selectedColumns =
      .ok (if (names.map Value.text).isEmpty then none else some (names.map .text)) := by
    cases s with
    | bare => exact absurd rfl hbare
    | collection c => rfl
    | query q =>
      show Except.ok (q.selecting names).selectedColumns = _
      unfold Query.selectedColumns
      rw [← List.isEmpty_map (f := Prod.fst), Query.names_selecting hnames]
  unfold columnsValue
  rw [hselected]
  cases names with
  | nil => exact ⟨.null, rfl, .inl ⟨rfl, rfl⟩⟩
  | cons name names => exact ⟨_, rfl, .inr ⟨List.cons_ne_nil _ _, rfl⟩⟩

theorem nil_of_none {α β : Type} {as : List α} {b : β}
    (h : (if as.isEmpty then none else some b) = none) : as = [] := by
  by_contra hne
  rw [if_neg fun hempty => hne (List.isEmpty_iff.1 hempty)] at h
  cases h

/-- **Selecting columns does not change navigation**, but where rows of a table lose the columns that
cursors are made of. -/
theorem cursorPage_selecting (hwhole : s.selectedColumns = .ok none) (hdistinct : s.Distinct)
    (hnames : ∀ name ∈ names, s.Owns name) {columns : Value}
    (hcolumns : (s.selecting names).columnsValue = .ok columns) {perPage name value : Value}
    {page : CursorPage} (h : s.cursorPage perPage .null name value = .ok page) :
    (s.KeepsPlaces names ∨ page.next = .null ∧ page.previous = .null →
      ∃ page', (s.selecting names).cursorPage perPage columns name value = .ok page' ∧
        page.items.NarrowedTo names (s.hides names) page'.items ∧
        page'.next = page.next ∧ page'.previous = page.previous) ∧
    (¬ (s.KeepsPlaces names ∨ page.next = .null ∧ page.previous = .null) →
      (s.selecting names).cursorPage perPage columns name value = .error .noKey) := by
  have hbare : s ≠ .bare := by
    rintro rfl
    cases h
  obtain ⟨columns', hcolumns', htexts⟩ := columnsValue_selecting hbare hnames
  obtain rfl := Except.ok.inj (hcolumns.symm.trans hcolumns')
  cases s with
  | bare => exact absurd rfl hbare
  | collection c =>
    have hselect : (c.selecting names).selectAll columns = .ok (c.selecting names) :=
      selectAll_texts (fun name hname => by
        rw [Collection.select_selecting, adding_of_mem hname]) htexts
    obtain ⟨size, hsize, h⟩ := bind_eq_ok_iff.1 h
    have hnone : c.columns = [] := nil_of_none (Except.ok.inj hwhole)
    refine ⟨fun _ => ?_, fun hlost => absurd (.inl trivial) hlost⟩
    obtain ⟨page', hpage', hsame⟩ := Collection.cursorPage_selecting hnone names h
    refine ⟨page', ?_, hsame⟩
    show (do
      let size ← integerOr defaultPerPage perPage
      (← (c.selecting names).selectAll columns).cursorPage size name value) = _
    rw [hsize, ok_bind, hselect, ok_bind, hpage']
  | query q =>
    have hselect : (q.selecting names).selectAll columns = .ok (q.selecting names) :=
      selectAll_texts (fun name hname => by
        rw [Query.select_selecting hnames (hnames name hname), adding_of_mem hname]) htexts
    obtain ⟨size, hsize, h⟩ := bind_eq_ok_iff.1 h
    have hnone : q.columns = [] := nil_of_none (Except.ok.inj hwhole)
    have hpage := Query.cursorPage_selecting hnone hdistinct hnames h
    show (_ → ∃ page', (do
      let size ← integerOr defaultPerPage perPage
      (← (q.selecting names).selectAll columns).cursorPage size name value) = _ ∧ _) ∧ (_ → (do
      let size ← integerOr defaultPerPage perPage
      (← (q.selecting names).selectAll columns).cursorPage size name value) = _)
    rw [hsize, ok_bind, hselect, ok_bind]
    exact hpage

end Source

end Listing
