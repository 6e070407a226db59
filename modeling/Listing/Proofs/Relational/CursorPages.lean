import Listing.Proofs.Cursor
import Listing.Proofs.Page.Cut
import Listing.Proofs.Relational.Fetching
import Listing.Sample.Shop

/-!
# Pages between cursors of a query

The first page of a query holds its first rows (`Query.Pages.exists_first`). The page at the cursor
of a row holds the first of the rows beyond that row, in the direction of the cursor
(`Query.Pages.exists_forward`, `Query.Pages.exists_backward`). A cursor is read as it was written
(`Query.Pages.writable_placeAt`).
-/

namespace Listing

/-- An integer or a text that a column holds can be written. -/
theorem Column.Holds.native {column : Column} {v : Value} (h : column.Holds v) (hv : v.IsName) :
    Json.Native v ∧ Json.nesting v = 0 := by
  rcases hv with ⟨s, rfl⟩ | ⟨n, rfl⟩
  · exact ⟨trivial, by rw [Json.nesting]; all_goals simp⟩
  · obtain ⟨-, hlow, hhigh⟩ := h
    have hlimit : Parameter.maxInteger + 1 < integerLimit := by decide +kernel
    refine ⟨?_, by rw [Json.nesting]; all_goals simp⟩
    rw [Json.Native]
    omega

namespace Query

variable {q k : Query} {row : TableRow}

/-! ## The cursor at a row -/

/-- The values of a row under the orders. -/
def places (orders : List (Value × Direction)) (sorting : List (Column × Bool)) (row : TableRow) :
    List (Value × Value) :=
  (orders.zip sorting).map fun p => (p.1.1, row.get p.2.1.name)

/-- The cursor at a row. -/
def placeAt (q : Query) (row : TableRow) (forward : Bool) : Cursor :=
  ⟨Entries.ofPairs (places q.orders q.sorting row), forward⟩

/-- Are the orders by columns with names, not with positions? -/
def Named (q : Query) : Prop := ∀ o ∈ q.orders, ∃ s, o.1 = .text s

/-- Can cursors be made of the rows? A row of a table has the columns that were taken. -/
def Readable (q : Query) : Prop :=
  q.entity.mapped = true ∨ ∀ o ∈ q.orders, (q.taken.any fun c => o.1.equal (.text c.name)) = true

theorem Named.ranked (h : q.Named) : q.ranked.Named := by
  unfold Query.ranked
  split
  · intro o ho
    rcases List.mem_append.1 ho with ho | ho
    · exact h o ho
    · obtain ⟨name, -, rfl⟩ := List.mem_map.1 ho
      exact ⟨name, rfl⟩
  · exact h

theorem mem_places (hord : q.Ordered) {p : Value × Value}
    (hp : p ∈ places q.orders q.sorting row) :
    ∃ o ∈ q.orders, ∃ s ∈ q.sorting, q.Sorts o s ∧ p = (o.1, row.get s.1.name) := by
  obtain ⟨⟨o, s⟩, hmem, rfl⟩ := List.mem_map.1 hp
  obtain ⟨ho, hs⟩ := List.of_mem_zip hmem
  exact ⟨o, ho, s, hs, (List.forall₂_iff_zip.1 hord).2 hmem, rfl⟩

theorem exists_sorts {orders : List (Value × Direction)} {sorting : List (Column × Bool)}
    (h : List.Forall₂ q.Sorts orders sorting) {o : Value × Direction} (ho : o ∈ orders) :
    ∃ s ∈ sorting, q.Sorts o s := by
  induction h with
  | nil => cases ho
  | @cons o' s orders sorting hs h ih =>
    rcases List.mem_cons.1 ho with rfl | ho
    · exact ⟨s, List.mem_cons_self .., hs⟩
    · obtain ⟨s', hs', hsorts⟩ := ih ho
      exact ⟨s', List.mem_cons_of_mem _ hs', hsorts⟩

theorem isName_places (hord : q.Ordered) (hnamed : q.Named) :
    ∀ p ∈ places q.orders q.sorting row, p.1.IsName := by
  intro p hp
  obtain ⟨o, ho, s, -, -, rfl⟩ := mem_places hord hp
  exact .inl (hnamed o ho)

/-- Where cursors can be made of the rows, the order columns are read from the row. -/
theorem read_eq (hread : q.Readable) {o : Value × Direction} (ho : o ∈ q.orders) (row : TableRow) :
    q.read row o.1 = (q.columnOf o.1).map fun c => row.get c.name := by
  have hkept : (q.entity.mapped || q.taken.any fun c => o.1.equal (.text c.name)) = true := by
    rw [Bool.or_eq_true]
    exact hread.imp id fun hall => hall o ho
  unfold read
  cases q.columnOf o.1 with
  | error e => rfl
  | ok c => exact if_pos hkept

/-- **The cursor at a row is made of the row.** -/
theorem position_eq (hord : q.Ordered) (hread : q.Readable) (row : TableRow) (forward : Bool) :
    CursorPage.position q.read (q.orders.map Prod.fst) row forward = .ok (q.placeAt row forward) := by
  have hmap : ∀ {orders : List (Value × Direction)} {sorting : List (Column × Bool)},
      List.Forall₂ q.Sorts orders sorting → (∀ o ∈ orders, o ∈ q.orders) →
      (orders.map Prod.fst).mapM (fun column => do return (column, ← q.read row column)) =
        Except.ok (places orders sorting row) := by
    intro orders sorting h hmem
    induction h with
    | nil => rfl
    | @cons o s orders sorting ho h ih =>
      rw [List.map_cons, List.mapM_cons, read_eq hread (hmem o (List.mem_cons_self ..)), ho.1,
        ih fun o ho => hmem o (List.mem_cons_of_mem _ ho)]
      rfl
  unfold CursorPage.position
  rw [hmap hord fun o ho => ho]
  rfl

/-- Of a row of a table whose order columns were not taken no cursor is made. -/
theorem position_refused (hknown : ∀ o ∈ q.orders, ∃ c, q.columnOf o.1 = .ok c)
    (hread : ¬ q.Readable) (row : TableRow) (forward : Bool) :
    CursorPage.position q.read (q.orders.map Prod.fst) row forward = .error .noKey := by
  simp only [Readable, not_or, not_forall, exists_prop, Bool.not_eq_true] at hread
  obtain ⟨hmapped, o, ho, htaken⟩ := hread
  have hread : ∀ o ∈ q.orders, ∃ column, q.read row o.1 =
      if q.taken.any (fun c => o.1.equal (.text c.name)) then .ok (row.get column) else .error .noKey := by
    intro o ho
    obtain ⟨c, hc⟩ := hknown o ho
    refine ⟨c.name, ?_⟩
    unfold read
    rw [hc, ok_bind, hmapped, Bool.false_or]
    rfl
  unfold CursorPage.position
  rw [@mapM_eq_error _ _ _ _ _ Error.noKey]
  · rfl
  · rw [List.forall_mem_map]
    intro o ho
    obtain ⟨column, hcolumn⟩ := hread o ho
    rw [hcolumn]
    split
    · exact .inl ⟨_, rfl⟩
    · exact .inr rfl
  · obtain ⟨column, hcolumn⟩ := hread o ho
    refine ⟨o.1, List.mem_map_of_mem ho, ?_⟩
    rw [hcolumn, htaken]
    rfl

theorem Ordered.exists_columnOf (hord : q.Ordered) : ∀ o ∈ q.orders, ∃ c, q.columnOf o.1 = .ok c := by
  intro o ho
  obtain ⟨s, -, hs⟩ := exists_sorts hord ho
  exact ⟨s.1, hs.1⟩

/-- **A cursor at a row holds the values of the row.** -/
theorem places_placeAt (hord : q.Ordered) (hnamed : q.Named) (hholds : row.Holds q.sorting)
    (forward : Bool) :
    List.Forall₂ (q.Places (q.placeAt row forward) row) q.orders q.sorting := by
  rw [List.forall₂_iff_zip]
  refine ⟨hord.length_eq, fun {o s} hmem => ?_⟩
  obtain ⟨ho, hs⟩ := List.of_mem_zip hmem
  obtain ⟨name, hname⟩ := hnamed o ho
  have hsorts : q.Sorts o s := (List.forall₂_iff_zip.1 hord).2 hmem
  have hget : (q.placeAt row forward).parameters.get? o.1 = some (row.get s.1.name) := by
    refine Entries.get?_ofPairs (isName_places hord hnamed) (.inl ⟨name, hname⟩) ?_
      ⟨_, List.mem_map_of_mem hmem, rfl⟩
    intro p hp heq
    obtain ⟨o', -, s', -, hsorts', rfl⟩ := mem_places hord hp
    have hcolumn := hsorts'.1
    rw [show o'.1 = o.1 from heq, hsorts.1] at hcolumn
    rw [Except.ok.inj hcolumn]
  rw [hname] at hget
  refine ⟨hsorts, ?_⟩
  rw [hname]
  exact Cursor.scalarParameter_of_get? hget (hholds s hs).isScalar

/-- Has no column the name that cursors have for their direction? -/
def Free (q : Query) : Prop := ∀ o ∈ q.orders, o.1 ≠ Cursor.directionKey

/-- **The cursor at a row can be written** if the row holds integers and texts. -/
theorem writable_placeAt (hord : q.Ordered) (hnamed : q.Named) (hfree : q.Free)
    (hholds : row.Holds q.sorting) (hnames : ∀ o ∈ q.sorting, (row.get o.1.name).IsName)
    (forward : Bool) : (q.placeAt row forward).Writable := by
  have hmem : ∀ e ∈ (q.placeAt row forward).parameters, ∃ o ∈ q.orders, ∃ s ∈ q.sorting,
      q.Sorts o s ∧ e = (o.1, row.get s.1.name) := fun e he =>
    mem_places hord (Entries.mem_of_mem_ofPairs (isName_places hord hnamed) he)
  refine ⟨Json.nativeEntries_of_forall fun e he => ?_, Entries.distinct_ofPairs _, fun e he => ?_, ?_⟩
  · obtain ⟨o, ho, s, hs, -, rfl⟩ := hmem e he
    exact ⟨hnamed o ho, ((hholds s hs).native (hnames s hs)).1⟩
  · obtain ⟨o, ho, s, -, -, rfl⟩ := hmem e he
    exact hfree o ho
  · rw [Json.entriesNesting_eq_zero]
    · exact Nat.zero_lt_of_ne_zero (by decide)
    · intro e he
      obtain ⟨o, -, s, hs, -, rfl⟩ := hmem e he
      exact ((hholds s hs).native (hnames s hs)).2

/-! ## Pages -/

/-- Does a page show the rows that were cut, with the cursors to its neighbours? -/
structure Shows (q : Query) (p : CursorPage) (cut : CursorPage.Cut TableRow) : Prop where
  items : p.items.identities = cut.items.map q.identity
  next : p.next = CursorPage.ofCursor? cut.next
  previous : p.previous = CursorPage.ofCursor? cut.previous

/-- Does a value stand for a cursor, or null for none? -/
def Reads (value : Value) : Option Cursor → Prop
  | none => value = .null
  | some c => value ≠ .null ∧ Cursor.decode value = .ok c

/-- The query for the rows from a cursor on, or for all rows. -/
def fromPlace (q : Query) : Option Cursor → Except Error Query
  | none => .ok q
  | some c => q.fromCursor c

/-- The page of a query from the rows that it looks up from a cursor on. -/
def pageFrom (k : Query) (n : Int) (name : Value) (cursor : Option Cursor) (f : Fetched) :
    Except Error CursorPage := do
  let names := k.orders.map Prod.fst
  let cut ← CursorPage.cut f.rows n cursor names k.read
  let columns ← names.mapM k.columnOf
  let visited := (if cut.next.isSome then cut.items.getLast?.toList else []) ++
    if cut.previous.isSome then cut.items.head?.toList else []
  let store := k.entity.fillAll columns visited f.store
  return { items := k.answer { f with store := store } cut.items, perPage := .int n
           cursor := CursorPage.ofCursor? cursor, next := CursorPage.ofCursor? cut.next
           previous := CursorPage.ofCursor? cut.previous, links := { name := name } }

theorem cursorPage_eq (hkeyed : q.keyed = .ok k) {value : Value} {cursor : Option Cursor}
    (hread : Reads value cursor) (n : Int) (name : Value) :
    q.cursorPage n name value = (do
      let place ← k.fromPlace cursor
      k.pageFrom n name cursor (← place.fetch { limit := some (n + 1) })) := by
  unfold cursorPage
  rw [hkeyed, ok_bind]
  cases cursor with
  | none =>
    obtain rfl : value = .null := hread
    rfl
  | some c =>
    obtain ⟨hne, hdecode⟩ := hread
    split
    · exact absurd rfl hne
    · rw [hdecode]
      rfl

/-- A page is that of a cursor or of the beginning. -/
theorem exists_reads {n : Int} {name value : Value} {page : CursorPage}
    (h : q.cursorPage n name value = .ok page) :
    ∃ k cursor, q.keyed = .ok k ∧ Reads value cursor := by
  unfold cursorPage at h
  obtain ⟨k, hk, h⟩ := bind_eq_ok_iff.1 h
  dsimp only at h
  split at h
  · exact ⟨k, none, hk, rfl⟩
  · next hne =>
    obtain ⟨cursor, hcursor, -⟩ := bind_eq_ok_iff.1 h
    obtain ⟨c, hc, -⟩ := map_eq_ok_iff.1 hcursor
    exact ⟨k, some c, hk, hne, hc⟩

theorem identity_ranked (q : Query) : q.ranked.identity = q.identity := by
  unfold ranked
  split <;> rfl

/-- **A page shows the rows that are cut out of those that are looked up.** -/
theorem exists_page (hkey : q.entity.HasKey) (hord : q.Ordered) {value : Value}
    {cursor : Option Cursor} (hread : Reads value cursor) {place : Query}
    (hplace : q.ranked.fromPlace cursor = .ok place) {n : Int} {f : Fetched}
    (hfetch : place.fetch { limit := some (n + 1) } = .ok f) {cut : CursorPage.Cut TableRow}
    (hcut : CursorPage.cut f.rows n cursor (q.ranked.orders.map Prod.fst) q.ranked.read = .ok cut)
    (name : Value) : ∃ p, q.cursorPage n name value = .ok p ∧ q.Shows p cut := by
  obtain ⟨columns, hcolumns⟩ : ∃ columns,
      (q.ranked.orders.map Prod.fst).mapM q.ranked.columnOf = .ok columns := by
    refine ⟨q.ranked.sorting.map Prod.fst, mapM_eq_ok_iff.2 ?_⟩
    rw [List.forall₂_map_left_iff, List.forall₂_map_right_iff]
    exact (hord.ranked hkey).imp fun o s h => h.1
  rw [cursorPage_eq (keyed_eq hkey) hread, hplace, ok_bind, hfetch, ok_bind]
  unfold pageFrom
  simp only [hcut, hcolumns, ok_bind]
  refine ⟨_, rfl, ?_, rfl, rfl⟩
  rw [identities_answer, identity_ranked]

/-- Can pages of `n` rows be looked up of a query that lists rows? -/
structure Pages (q : Query) (rows : List TableRow) (n : Nat) : Prop where
  key : q.entity.HasKey
  ordered : q.Ordered
  named : q.ranked.Named
  lists : q.ranked.Lists rows
  holds : ∀ row ∈ rows, row.Holds q.ranked.sorting
  size : 0 < n
  limit : (n : Int) + 1 ≤ Parameter.maxInteger
  room : q.ranked.criterion.parameters.length +
    q.ranked.orders.length * (q.ranked.orders.length + 1) / 2 + 2 ≤ Parameter.countLimit

/-- The columns of the orders, in the other direction. -/
theorem mapM_columnOf (hord : q.Ordered) : q.orders.mapM (fun o => do
    return (← q.columnOf o.1, o.2 != Direction.descending)) =
      Except.ok (TableRow.flipped q.sorting) := by
  rw [mapM_eq_ok_iff, TableRow.flipped, List.forall₂_map_right_iff]
  refine hord.imp fun o s h => ?_
  rw [h.1, h.2]
  rfl

/-- The query from a cursor on has the order of the cursor's direction. -/
theorem fromCursor_eq (hord : q.Ordered) {cursor : Cursor} {cs : List Criterion}
    (hcs : q.beyond cursor [] q.orders = .ok cs) : q.fromCursor cursor =
      .ok { q.filtered (.any cs) with sorting := TableRow.turned cursor.forward q.sorting } := by
  have hflipped := mapM_columnOf ((adds_filtered q (.any cs)).keeps.ordered hord)
  unfold fromCursor
  rw [hcs, ok_bind]
  dsimp only
  cases hforward : cursor.forward with
  | true =>
    rw [if_pos rfl, TableRow.turned_true]
    rfl
  | false =>
    rw [if_neg Bool.false_ne_true, TableRow.turned_false, hflipped]
    rfl

namespace Pages

variable {rows : List TableRow} {n : Nat}

theorem isPlain (h : q.Pages rows n) {forward : Bool} :
    ∀ row ∈ rows, row.IsPlain (TableRow.turned forward q.ranked.sorting) := by
  intro row hrow
  have hplain := (h.holds row hrow).isPlain
  cases forward with
  | true => rwa [TableRow.turned_true]
  | false => rwa [TableRow.turned_false, TableRow.isPlain_flipped]

/-- The first `n + 1` rows are looked up. -/
theorem exists_fetch {place : Query} {found : List TableRow} (h : q.Pages rows n)
    (hlists : place.Lists found)
    (hcount : place.criterion.parameters.length + 2 ≤ Parameter.countLimit) :
    ∃ store, place.fetch { limit := some ((n : Int) + 1) } =
      .ok ⟨(TableRow.sortBy place.sorting found).take (n + 1), store⟩ := by
  have hzero : -Parameter.maxInteger - 1 ≤ 0 := by decide +kernel
  have hmax : 0 ≤ Parameter.maxInteger := by decide +kernel
  have hlimit := h.limit
  have htaken : ∀ p ∈ ({ limit := some ((n : Int) + 1) } : Window).parameters, p.IsTaken := by
    intro p hp
    rcases List.mem_pair.1 hp with rfl | rfl
    · exact Parameter.isTaken_integer (by rw [Option.getD_some]; omega) hlimit
    · exact Parameter.isTaken_integer hzero hmax
  have hcut : ∀ found : List TableRow, ({ limit := some ((n : Int) + 1) } : Window).cut found =
      found.take (n + 1) := by
    intro found
    have hneg : ¬ (n : Int) + 1 < 0 := by omega
    simp only [Window.cut, Option.getD_none, Int.toNat_zero, List.drop_zero, if_neg hneg]
    rfl
  obtain ⟨store, hstore⟩ := hlists.exists_fetch htaken hcount
  rw [hcut] at hstore
  exact ⟨store, hstore⟩

theorem sorted (h : q.Pages rows n) (p : TableRow → Bool) (forward : Bool) :
    TableRow.sortBy (TableRow.turned forward q.ranked.sorting) (rows.filter p) =
      (TableRow.sortBy (TableRow.turned forward q.ranked.sorting) rows).filter p :=
  (TableRow.filter_sortBy h.isPlain p).symm

/-- **The rows from a cursor on** are those beyond its row. -/
theorem exists_fromCursor (h : q.Pages rows n) {row : TableRow} (hrow : row ∈ rows)
    (hplace : row.isPlace q.ranked.sorting = true) (forward : Bool) :
    ∃ place store, q.ranked.fromCursor (q.ranked.placeAt row forward) = .ok place ∧
      place.fetch { limit := some ((n : Int) + 1) } =
        .ok ⟨((TableRow.sortBy (TableRow.turned forward q.ranked.sorting) rows).filter
          (TableRow.isBeyond (TableRow.turned forward q.ranked.sorting) row)).take (n + 1), store⟩ := by
  have hord := h.ordered.ranked h.key
  have hnone : ∀ c ∈ ([] : List Criterion), c.IsComparison := nofun
  obtain ⟨cs, m, hcs, hm, hfinds⟩ := exists_beyond
    (places_placeAt hord h.named (h.holds row hrow) forward) (h.holds row hrow) hplace hnone
  have hfinds := hfinds q.ranked.db.content
  simp only [Criterion.allHold, Bool.true_and] at hfinds
  obtain ⟨hlists, hcount⟩ := h.lists.filtered hfinds
  have hroom := h.room
  obtain ⟨store, hstore⟩ := h.exists_fetch
    (hlists.resorted (TableRow.turned forward q.ranked.sorting)) (by
      show (q.ranked.filtered (.any cs)).criterion.parameters.length + 2 ≤ _
      rw [hcount]
      rw [List.length_nil, Nat.mul_zero, Nat.add_zero] at hm
      omega)
  refine ⟨_, store, fromCursor_eq hord hcs, hstore.trans ?_⟩
  rw [h.sorted]
  rfl

/-- A cursor at a row with nothing to compare with is refused. -/
theorem fromCursor_refused (h : q.Pages rows n) {row : TableRow} (hrow : row ∈ rows)
    (hplace : row.isPlace q.ranked.sorting = false) (forward : Bool) :
    q.ranked.fromCursor (q.ranked.placeAt row forward) = .error .badComparison := by
  unfold fromCursor
  rw [beyond_refused (places_placeAt (h.ordered.ranked h.key) h.named (h.holds row hrow) forward)
    (h.holds row hrow) hplace]
  rfl

/-- The rows in order. -/
def listed (q : Query) (rows : List TableRow) : List TableRow :=
  TableRow.sortBy q.ranked.sorting rows

variable {value : Value} {row : TableRow}

/-- **The first page** shows the first rows. -/
theorem exists_first (h : q.Pages rows n) (hread : q.ranked.Readable) (name : Value) :
    ∃ p, q.cursorPage n name .null = .ok p ∧
      q.Shows p (CursorPage.forwardCut q.ranked.placeAt (listed q rows) n false) := by
  have hroom := h.room
  obtain ⟨store, hstore⟩ := h.exists_fetch h.lists (by omega)
  exact exists_page h.key h.ordered (show Reads .null none from rfl) rfl hstore
    (CursorPage.cut_forward
      (fun row _ => position_eq (h.ordered.ranked h.key) hread row) nofun) name

/-- **The page at a cursor that points forward** shows the first of the rows beyond it. -/
theorem exists_forward (h : q.Pages rows n) (hread : q.ranked.Readable) (hrow : row ∈ rows)
    (hplace : row.isPlace q.ranked.sorting = true)
    (hvalue : Reads value (some (q.ranked.placeAt row true))) (name : Value) :
    ∃ p, q.cursorPage n name value = .ok p ∧
      q.Shows p (CursorPage.forwardCut q.ranked.placeAt
        ((listed q rows).filter (TableRow.isBeyond q.ranked.sorting row)) n true) := by
  obtain ⟨place, store, hplaced, hstore⟩ := h.exists_fromCursor hrow hplace true
  rw [TableRow.turned_true] at hstore
  refine exists_page h.key h.ordered hvalue hplaced hstore ?_ name
  exact CursorPage.cut_forward (fun row _ => position_eq (h.ordered.ranked h.key) hread row)
    fun c hc => by rw [← Option.some.inj hc]; rfl

/-- **The page at a cursor that points backward** shows the last of the rows before it. -/
theorem exists_backward (h : q.Pages rows n) (hread : q.ranked.Readable) (hrow : row ∈ rows)
    (hplace : row.isPlace q.ranked.sorting = true)
    (hvalue : Reads value (some (q.ranked.placeAt row false))) (name : Value) :
    ∃ p, q.cursorPage n name value = .ok p ∧
      q.Shows p (CursorPage.backwardCut q.ranked.placeAt
        ((TableRow.sortBy (TableRow.flipped q.ranked.sorting) rows).filter
          (TableRow.isBeyond (TableRow.flipped q.ranked.sorting) row)) n) := by
  obtain ⟨place, store, hplaced, hstore⟩ := h.exists_fromCursor hrow hplace false
  rw [TableRow.turned_false] at hstore
  exact exists_page h.key h.ordered hvalue hplaced hstore
    (CursorPage.cut_backward (fun row _ => position_eq (h.ordered.ranked h.key) hread row) rfl) name

/-- The page at a cursor of a row with nothing to compare with is refused. -/
theorem forward_refused (h : q.Pages rows n) (hrow : row ∈ rows)
    (hplace : row.isPlace q.ranked.sorting = false)
    (hvalue : Reads value (some (q.ranked.placeAt row true))) (name : Value) :
    q.cursorPage n name value = .error .badComparison := by
  have hplaced : q.ranked.fromPlace (some (q.ranked.placeAt row true)) = .error .badComparison :=
    h.fromCursor_refused hrow hplace true
  rw [cursorPage_eq (keyed_eq h.key) hvalue, hplaced]
  rfl

/-- The first page is refused where no cursors can be made and there are more rows. -/
theorem first_refused (h : q.Pages rows n) (hread : ¬ q.ranked.Readable)
    (hmore : n < rows.length) (name : Value) : q.cursorPage n name .null = .error .noKey := by
  have hroom := h.room
  obtain ⟨store, hstore⟩ := h.exists_fetch h.lists (by omega)
  have hlength : (TableRow.sortBy q.ranked.sorting rows).length = rows.length :=
    (TableRow.sortBy_perm ..).length_eq
  have hcut := CursorPage.cut_refused (fun row (_ : row ∈ TableRow.sortBy q.ranked.sorting rows) =>
    position_refused (h.ordered.ranked h.key).exists_columnOf hread row) h.size (by omega)
  rw [cursorPage_eq (keyed_eq h.key) (show Reads .null none from rfl), fromPlace, ok_bind, hstore,
    ok_bind]
  unfold pageFrom
  simp only [hcut, error_bind]

/-- A first page that holds all rows needs no cursors. -/
theorem exists_whole (h : q.Pages rows n) (hall : rows.length ≤ n) (name : Value) :
    ∃ p, q.cursorPage n name .null = .ok p ∧ q.Shows p ⟨listed q rows, none, none⟩ := by
  have hroom := h.room
  obtain ⟨store, hstore⟩ := h.exists_fetch h.lists (by omega)
  have hlength : (TableRow.sortBy q.ranked.sorting rows).length = rows.length :=
    (TableRow.sortBy_perm ..).length_eq
  exact exists_page h.key h.ordered (show Reads .null none from rfl) rfl hstore
    (CursorPage.cut_whole (by omega)) name

end Pages

/-! ## Queries that calls have made -/

/-- Have calls made a query of an entity that has a primary key, with orders by columns that hold
values of their types? Rows are stored in the order of the primary key, which is theirs where
nothing orders them. -/
structure IsListed (q : Query) (rows : List TableRow) : Prop where
  made : q.IsMade
  key : q.entity.HasKey
  stored : q.orders = [] → (q.db.content.rowsOf q.entity.table).Pairwise fun a b =>
    TableRow.compareBy q.entity.keySorting a b ≠ .gt
  named : q.Named
  matching : q.matching = .ok rows
  holds : ∀ row ∈ rows, row.Holds q.ranked.sorting

/-- Does a database take what the pages of `n` rows ask for? -/
structure TakesPages (q : Query) (n : Nat) : Prop where
  limit : (n : Int) + 1 ≤ Parameter.maxInteger
  room : q.criterion.parameters.length +
    q.ranked.orders.length * (q.ranked.orders.length + 1) / 2 + 2 ≤ Parameter.countLimit
  sound : ∀ l ∈ q.loadings.flatten, l.IsSound q.db.content

theorem criterion_ranked (q : Query) : q.ranked.criterion = q.criterion := by
  unfold ranked
  split <;> rfl

theorem Lists.ranked {rows : List TableRow} (h : q.Lists rows) : q.ranked.Lists rows := by
  unfold Query.ranked
  split
  · exact ⟨h.connected, h.straight, h.meaningful, h.matching, h.taken, h.computed, h.sound⟩
  · exact h

theorem sortBy_of_pairwise {sorting : List (Column × Bool)} {rows : List TableRow}
    (h : rows.Pairwise fun a b => TableRow.compareBy sorting a b ≠ .gt) :
    TableRow.sortBy sorting rows = rows :=
  List.mergeSort_of_pairwise (h.imp fun hne => bne_iff_ne.2 hne)

/-- The rows are listed in the order of their cursors. -/
theorem IsListed.listed_eq {rows : List TableRow} (h : q.IsListed rows) :
    Pages.listed q rows = TableRow.sortBy q.sorting rows := by
  unfold Pages.listed ranked
  split
  · next hempty =>
    have hord := h.made.ordered.1
    have hsorting : q.sorting = [] := by
      unfold Ordered at hord
      rw [List.isEmpty_iff.1 hempty] at hord
      exact List.forall₂_nil_left_iff.1 hord
    have hrows : rows.Pairwise fun a b => TableRow.compareBy q.entity.keySorting a b ≠ .gt := by
      rw [← (Criterion.select_eq_ok_iff.1 h.matching).2]
      exact (h.stored (List.isEmpty_iff.1 hempty)).sublist List.filter_sublist
    rw [orderedBy, hsorting, List.nil_append, sortBy_of_pairwise hrows, sortBy_of_pairwise]
    exact List.pairwise_iff_forall_sublist.2 fun _ => by simp [TableRow.compareBy]
  · rfl

/-- **The pages of a query with an answer** can be looked up, and the answer lists the rows. -/
theorem IsListed.pages {rows : List TableRow} {n : Nat} (h : q.IsListed rows) (hn : 0 < n)
    (htakes : q.TakesPages n) {answer : Rows} (hget : q.get = .ok answer) :
    q.Pages rows n ∧ answer.identities = (Pages.listed q rows).map q.identity := by
  obtain ⟨found, hlists, hidentities, -⟩ := exists_lists hget htakes.sound
  obtain rfl := Except.ok.inj (h.matching.symm.trans hlists.matching)
  refine ⟨⟨h.key, h.made.ordered.1, h.named.ranked, hlists.ranked, h.holds, hn, htakes.limit, ?_⟩, ?_⟩
  · rw [criterion_ranked]
    exact htakes.room
  · rw [hidentities, h.listed_eq]

end Query

/-! ## The lines of the orders of the shop -/

namespace Shop

open Query

/-- The lines of the orders, in an order. -/
def linesBy (orders : List (Column × Direction)) : Query :=
  (all orderLines).orderedBy (orders.map fun o => (o.1, o.2 == .descending))
    (orders.map fun o => (.text o.1.name, o.2))

variable {orders : List (Column × Direction)}

theorem column?_orderLines {column : Column} (h : column ∈ orderLines.columns) :
    orderLines.column? column.name = some column := by
  revert h column
  decide +kernel

theorem holds_orderLineRows : ∀ row ∈ orderLineRows, ∀ column ∈ orderLines.columns,
    column.Holds (row.get column.name) := by
  have hmax : Parameter.maxInteger = 9223372036854775807 := rfl
  simp [orderLineRows, row, orderLine, orderLineColumns, orderLines, TableRow.get_cons, integers,
    texts, Column.Holds, hmax]

/-- The lines are listed in every order of theirs. -/
theorem isListed_linesBy (h : ∀ o ∈ orders, o.1 ∈ orderLines.columns) :
    (linesBy orders).IsListed orderLineRows where
  made := IsMade.orderedBy (IsBase.isMade ⟨rfl, rfl, rfl⟩) (fun o ho => column?_orderLines (h o ho))
    fun _ _ => rfl
  key := ⟨by simp [linesBy, Query.orderedBy, all, of, orderLines, orderLineColumns, Entity.column?,
    integers], fun _ _ => rfl⟩
  stored := fun _ =>
    show orderLineRows.Pairwise fun a b => TableRow.compareBy orderLines.keySorting a b ≠ .gt by
      decide +kernel
  named := fun o ho => by
    obtain ⟨c, -, rfl⟩ := List.mem_map.1 ho
    exact ⟨_, rfl⟩
  matching := rfl
  holds := fun row hrow s hs => by
    refine holds_orderLineRows row hrow s.1 ?_
    unfold ranked at hs
    split at hs
    · next hempty =>
      obtain rfl : orders = [] := List.map_eq_nil_iff.1 (List.isEmpty_iff.1 hempty)
      revert s
      decide +kernel
    · obtain ⟨o, ho, rfl⟩ := List.mem_map.1 hs
      exact h o ho

/-- The lines, those of an item after those of the items before it. -/
def linesByItem : Query := linesBy [(integers "item_id", .ascending)]

end Shop

end Listing
