import Mathlib.Data.List.Nodup
import Listing.Proofs.Relational.Fetching

/-!
# Databases without deleted rows

`Database.purged` leaves out the rows that an entity marks as deleted. A criterion that asks for related
rows only among those that are not marked (`Criterion.Conceals`) holds of the same rows there, whatever is
marked (`Criterion.Conceals.holds_purged`). What is loaded along under such criteria is the same
(`Database.loadTo_purged`), and so are the values of aggregates (`Aggregate.Conceals.value_purged`).

Looking at a row can fail for a pattern that is too long for a database, and there may be no row to look
at any more. So patterns have to be short (`Criterion.IsShort`).
-/

namespace Listing

/-! ## Rows that are marked as deleted -/

/-- Is a row of an entity marked as deleted? -/
def Entity.marks (e : Entity) (row : TableRow) : Bool :=
  (e.softDelete.bind e.column?).any fun c => !(row.get c.name).isNull

namespace Database

/-- Does an entity mark a row of a table as deleted? -/
def marks (db : Database) (table : String) (row : TableRow) : Bool :=
  db.schema.any fun e => e.table == table && e.marks row

/-- The database without the rows that are marked as deleted. -/
def purged (db : Database) : Database :=
  { db with content := db.content.map fun t => (t.1, t.2.filter fun row => !db.marks t.1 row) }

/-- Do the entities of one table mark the same rows, and have entities relations of different names
that lead to the tables of their targets, by way of tables in which no rows are marked? -/
structure IsRegular (db : Database) : Prop where
  tables : ∀ e ∈ db.schema, ∀ f ∈ db.schema, e.table = f.table → f.marks = e.marks
  named : ∀ e ∈ db.schema, (e.relations.map (·.name)).Nodup
  targets : ∀ e ∈ db.schema, ∀ r ∈ e.relations, ∀ t, db.entity? r.target = some t →
    r.table = t.table
  pairs : ∀ e ∈ db.schema, ∀ r ∈ e.relations, ∀ table own near far theirs,
    r.link = .through table own near far theirs →
      ∀ f ∈ db.schema, f.table = table → f.softDelete = none

variable {db : Database} {e t : Entity} {r : Relation}

theorem rowsOf_purged (db : Database) (table : String) : db.purged.content.rowsOf table =
    (db.content.rowsOf table).filter fun row => !db.marks table row := by
  have hlookup : ∀ content : Content,
      List.lookup table (content.map fun t => (t.1, t.2.filter fun row => !db.marks t.1 row)) =
        (List.lookup table content).map (List.filter fun row => !db.marks table row) := by
    intro content
    induction content with
    | nil => rfl
    | cons t content ih =>
      rw [List.map_cons, List.lookup_cons, List.lookup_cons]
      split
      · next htable =>
        rw [← eq_of_beq htable]
        rfl
      · exact ih
  unfold Content.rowsOf
  rw [purged, hlookup]
  cases List.lookup table db.content <;> rfl

theorem IsRegular.marks_eq (h : db.IsRegular) (he : e ∈ db.schema) : db.marks e.table = e.marks := by
  funext row
  unfold marks
  rw [Bool.eq_iff_iff, List.any_eq_true]
  constructor
  · rintro ⟨f, hf, hmarks⟩
    rw [Bool.and_eq_true, beq_iff_eq] at hmarks
    rw [← h.tables e he f hf hmarks.1.symm]
    exact hmarks.2
  · exact fun hmarks => ⟨e, he, by rw [hmarks, beq_self_eq_true]; rfl⟩

/-- A table in which no rows are marked keeps its rows. -/
theorem rowsOf_unmarked {table : String}
    (h : ∀ f ∈ db.schema, f.table = table → f.softDelete = none) :
    db.purged.content.rowsOf table = db.content.rowsOf table := by
  have hmarks : ∀ row, db.marks table row = false := fun row => by
    unfold marks
    rw [List.any_eq_false]
    intro f hf hmarks
    rw [Bool.and_eq_true, beq_iff_eq] at hmarks
    rw [Entity.marks, h f hf hmarks.1] at hmarks
    cases hmarks.2
  rw [rowsOf_purged, List.filter_eq_self]
  intro row _
  rw [hmarks row]
  rfl

/-- **Relations join the same rows.** -/
theorem IsRegular.joins_purged (h : db.IsRegular) (he : e ∈ db.schema) (hr : r ∈ e.relations) :
    r.link.joins db.purged.content = r.link.joins db.content := by
  funext row other
  cases hlink : r.link with
  | columns own theirs => rfl
  | through table own near far theirs =>
    rw [Link.joins, rowsOf_unmarked (h.pairs e he r hr table own near far theirs hlink)]
    rfl

/-- **A relation leads to the rows that are not marked.** -/
theorem IsRegular.rows_purged (h : db.IsRegular) (he : e ∈ db.schema) (hr : r ∈ e.relations)
    (ht : db.entity? r.target = some t) (row : TableRow) : r.rows db.purged.content row =
      (r.rows db.content row).filter fun other => !t.marks other := by
  unfold Relation.rows
  rw [h.joins_purged he hr, rowsOf_purged, h.targets e he r hr t ht,
    h.marks_eq (List.mem_of_find?_eq_some ht), List.filter_comm]

end Database

/-! ## Criteria -/

namespace Criterion

/-- Does the criterion hold of no row that is marked as deleted? -/
def LeavesOut (c : Criterion) (t : Entity) : Prop :=
  ∀ db row, t.marks row = true → c.holds db row = false

/-- Are related rows only asked for among those that are not marked as deleted? -/
inductive Conceals (db : Database) : Criterion → Prop
  | constant (b) : Conceals db (.constant b)
  | compare (column comparison parameter) : Conceals db (.compare column comparison parameter)
  | isNull (column negated) : Conceals db (.isNull column negated)
  | member (column parameters) : Conceals db (.member column parameters)
  | like (column pattern escapes negated) : Conceals db (.like column pattern escapes negated)
  | all {cs : List Criterion} : (∀ c ∈ cs, Conceals db c) → Conceals db (.all cs)
  | any {cs : List Criterion} : (∀ c ∈ cs, Conceals db c) → Conceals db (.any cs)
  | related {e t : Entity} {r : Relation} {inner : Criterion} : e ∈ db.schema → r ∈ e.relations →
      db.entity? r.target = some t → inner.LeavesOut t → Conceals db inner →
      Conceals db (.related r inner)

variable {db : Database} {t : Entity} {c : Criterion}

theorem allHold_congr {db db' : Content} {row : TableRow} {cs : List Criterion}
    (h : ∀ c ∈ cs, c.holds db' row = c.holds db row) : allHold db' row cs = allHold db row cs := by
  induction cs with
  | nil => rfl
  | cons c cs ih =>
    rw [allHold, allHold, h c (List.mem_cons_self ..), ih fun c hc => h c (List.mem_cons_of_mem _ hc)]

theorem oneHolds_congr {db db' : Content} {row : TableRow} {cs : List Criterion}
    (h : ∀ c ∈ cs, c.holds db' row = c.holds db row) : oneHolds db' row cs = oneHolds db row cs := by
  induction cs with
  | nil => rfl
  | cons c cs ih =>
    rw [oneHolds, oneHolds, h c (List.mem_cons_self ..),
      ih fun c hc => h c (List.mem_cons_of_mem _ hc)]

/-- **A criterion holds of the same rows** without those that are marked as deleted. -/
theorem Conceals.holds_purged (h : db.IsRegular) (hc : c.Conceals db) (row : TableRow) :
    c.holds db.purged.content row = c.holds db.content row := by
  induction hc generalizing row with
  | constant | isNull | member | like => rfl
  | compare column comparison => cases comparison <;> rfl
  | all _ ih => exact allHold_congr fun c hc => ih c hc row
  | any _ ih => exact oneHolds_congr fun c hc => ih c hc row
  | @related e t r inner he hr ht hout _ ih =>
    rw [holds, holds, h.rows_purged he hr ht, List.any_filter]
    congr 1
    funext other
    rw [ih]
    cases hmarks : t.marks other with
    | true => rw [hout db.content other hmarks, Bool.and_false]
    | false => rfl

/-- **The rows that meet a criterion** are the same. -/
theorem Conceals.filter_purged (h : db.IsRegular) (hc : c.Conceals db) (hout : c.LeavesOut t)
    (rows : List TableRow) :
    (rows.filter fun row => !t.marks row).filter (c.holds db.purged.content) =
      rows.filter (c.holds db.content) := by
  rw [List.filter_filter]
  congr 1
  funext row
  rw [hc.holds_purged h]
  cases hmarks : t.marks row with
  | true => rw [hout db.content row hmarks, Bool.false_and]
  | false => exact Bool.and_true _

mutual

/-- The patterns of a criterion. -/
def patterns : Criterion → List Parameter
  | .like _ pattern _ _ => [pattern]
  | .all cs | .any cs => patternsOf cs
  | .related _ inner => patterns inner
  | .constant _ | .compare _ _ _ | .isNull _ _ | .member _ _ | .unrelated _ => []

/-- The patterns of criteria. -/
def patternsOf : List Criterion → List Parameter
  | [] => []
  | c :: cs => patterns c ++ patternsOf cs

end

/-- Is no pattern of the criterion too long for a database? -/
def IsShort (c : Criterion) : Prop := ∀ p ∈ c.patterns, p.isOverlong = false

mutual

/-- Short patterns can be looked for in every row. -/
theorem overruns_of_short (db : Content) : (c : Criterion) → c.IsShort → ∀ row,
    c.overruns db row = false
  | .like _ pattern _ _, h, _ => h pattern (List.mem_singleton_self _)
  | .all cs, h, row => allOverrun_of_short db cs h row
  | .any cs, h, row => anyOverruns_of_short db cs h row
  | .related r inner, h, row => by
    rw [overruns, List.any_eq_false]
    intro other _
    rw [overruns_of_short db inner h other]
    exact Bool.false_ne_true
  | .constant _, _, _ | .compare _ _ _, _, _ | .isNull _ _, _, _ | .member _ _, _, _
  | .unrelated _, _, _ => rfl

theorem allOverrun_of_short (db : Content) : (cs : List Criterion) →
    (∀ p ∈ patternsOf cs, p.isOverlong = false) → ∀ row, allOverrun db row cs = false
  | [], _, _ => rfl
  | c :: cs, h, row => by
    rw [patternsOf, List.forall_mem_append] at h
    rw [allOverrun, overruns_of_short db c h.1, allOverrun_of_short db cs h.2, Bool.and_false,
      Bool.or_false]

theorem anyOverruns_of_short (db : Content) : (cs : List Criterion) →
    (∀ p ∈ patternsOf cs, p.isOverlong = false) → ∀ row, anyOverruns db row cs = false
  | [], _, _ => rfl
  | c :: cs, h, row => by
    rw [patternsOf, List.forall_mem_append] at h
    rw [anyOverruns, overruns_of_short db c h.1, anyOverruns_of_short db cs h.2, Bool.and_false,
      Bool.or_false]

end

theorem IsShort.select_eq (h : c.IsShort) (db : Content) (rows : List TableRow) :
    c.select db rows = .ok (rows.filter (c.holds db)) :=
  select_eq_ok_iff.2 ⟨fun row _ => overruns_of_short db c h row, rfl⟩

/-- **The same rows are picked** where those that are marked as deleted are left out. -/
theorem Conceals.select_purged (h : db.IsRegular) (hc : c.Conceals db) (hout : c.LeavesOut t)
    (hshort : c.IsShort) (rows : List TableRow) :
    c.select db.purged.content (rows.filter fun row => !t.marks row) =
      c.select db.content rows := by
  rw [hshort.select_eq, hshort.select_eq, hc.filter_purged h hout]

end Criterion

/-! ## Related rows -/

namespace Database

/-- Does a path of relations lead from one entity to another one? -/
inductive Leads (db : Database) : Entity → List Relation → Entity → Prop
  | nil {e : Entity} : e ∈ db.schema → Leads db e [] e
  | cons {e t u : Entity} {r : Relation} {path : List Relation} : e ∈ db.schema → r ∈ e.relations →
      db.entity? r.target = some t → Leads db t path u → Leads db e (r :: path) u

variable {db : Database} {e t u : Entity} {r : Relation} {path rest : List Relation}

theorem Leads.append (h : db.Leads e path t) (hrest : db.Leads t rest u) :
    db.Leads e (path ++ rest) u := by
  induction h with
  | nil => exact hrest
  | cons he hr ht _ ih => exact .cons he hr ht (ih hrest)

theorem Leads.one (he : e ∈ db.schema) (hr : r ∈ e.relations) (ht : db.entity? r.target = some t) :
    db.Leads e [r] t :=
  .cons he hr ht (.nil (List.mem_of_find?_eq_some ht))

end Database

/-- Does a loading ask for rows that are not marked as deleted only, at the end of a path from an
entity? -/
def Loading.Conceals (db : Database) (e : Entity) (l : Loading) : Prop :=
  ∃ t, db.Leads e l.path t ∧ l.criterion.LeavesOut t ∧ l.criterion.Conceals db

namespace Database

variable {db : Database} {e t : Entity} {r : Relation} {ls : List Loading} {l : Loading}

/-- Relations of an entity are told apart by their names. -/
theorem IsRegular.eq_of_name (h : db.IsRegular) (he : e ∈ db.schema) {s : Relation}
    (hs : s ∈ e.relations) (hr : r ∈ e.relations) (hname : s.name = r.name) : s = r :=
  List.inj_on_of_nodup_map (h.named e he) hs hr hname

theorem conceals_endingAt (h : db.IsRegular) (hls : ∀ l ∈ ls, l.Conceals db e)
    (hr : r ∈ e.relations) (ht : db.entity? r.target = some t) (hl : l ∈ Loading.endingAt r ls) :
    e ∈ db.schema ∧ l.criterion.LeavesOut t ∧ l.criterion.Conceals db := by
  obtain ⟨hmem, hpath⟩ := List.mem_filter.1 hl
  obtain ⟨u, hleads, hout, hconceals⟩ := hls l hmem
  rw [beq_iff_eq, List.map_eq_singleton_iff] at hpath
  obtain ⟨s, hs, hname⟩ := hpath
  rw [hs] at hleads
  cases hleads with
  | cons he hmem hu hnil =>
    obtain rfl := h.eq_of_name he hmem hr hname
    cases hnil
    obtain rfl := Option.some.inj (ht.symm.trans hu)
    exact ⟨he, hout, hconceals⟩

/-- A loading that leads beyond a relation keeps its criterion. -/
theorem exists_of_mem_beyond (hl : l ∈ Loading.beyond r ls) :
    ∃ m ∈ ls, l.criterion = m.criterion := by
  obtain ⟨m, hm, hl⟩ := List.mem_filterMap.1 hl
  split at hl
  · split at hl
    · obtain rfl := Option.some.inj hl
      exact ⟨m, hm, rfl⟩
    · cases hl
  · cases hl

theorem conceals_beyond (h : db.IsRegular) (hls : ∀ l ∈ ls, l.Conceals db e)
    (hr : r ∈ e.relations) (ht : db.entity? r.target = some t) :
    ∀ l ∈ Loading.beyond r ls, l.Conceals db t := by
  intro l hl
  obtain ⟨m, hm, hl⟩ := List.mem_filterMap.1 hl
  obtain ⟨u, hleads, hout, hconceals⟩ := hls m hm
  split at hl
  · next s s' rest hpath =>
    split at hl
    · next hname =>
      obtain rfl := Option.some.inj hl
      rw [hpath] at hleads
      cases hleads with
      | cons he hmem hu hrest =>
        obtain rfl := h.eq_of_name he hmem hr hname
        obtain rfl := Option.some.inj (ht.symm.trans hu)
        exact ⟨u, hrest, hout, hconceals⟩
    · cases hl
  · cases hl

/-- **The same rows are loaded along** where those that are marked as deleted are left out. -/
theorem loadTo_purged (h : db.IsRegular) (depth : Nat) (hls : ∀ l ∈ ls, l.Conceals db e)
    (hshort : ∀ l ∈ ls, l.criterion.IsShort) (parents : List Parent) (store : Store) :
    db.purged.loadTo depth ls e parents store = db.loadTo depth ls e parents store := by
  induction depth generalizing ls e parents store with
  | zero => rfl
  | succ depth ih =>
    unfold loadTo
    refine foldlM_congr fun store r hr => ?_
    rw [show db.purged.entity? r.target = db.entity? r.target from rfl]
    cases hlast : (Loading.endingAt r ls).getLast? with
    | none => rfl
    | some last =>
      cases ht : db.entity? r.target with
      | none => rfl
      | some t =>
        obtain ⟨he, hout, hconceals⟩ := conceals_endingAt h hls hr ht (List.mem_of_getLast? hlast)
        have hshort' := hshort last (mem_endingAt (List.mem_of_getLast? hlast))
        have hjoins := h.joins_purged he hr
        have hselect : ∀ p : TableRow → Bool,
            last.criterion.select db.purged.content ((db.purged.content.rowsOf t.table).filter p) =
              last.criterion.select db.content ((db.content.rowsOf t.table).filter p) := by
          intro p
          rw [rowsOf_purged, h.marks_eq (List.mem_of_find?_eq_some ht), List.filter_comm,
            hconceals.select_purged h hout hshort']
        have hrelated : ∀ row, db.purged.relatedRows r last.criterion row =
            db.relatedRows r last.criterion row := by
          intro row
          unfold relatedRows
          rw [h.rows_purged he hr ht, hconceals.filter_purged h hout]
        have hbeyond := ih (conceals_beyond h hls hr ht) fun l hl => by
          obtain ⟨m, hm, hcriterion⟩ := exists_of_mem_beyond hl
          rw [hcriterion]
          exact hshort m hm
        simp only [hjoins, hselect, hrelated, hbeyond]

end Database

/-! ## Aggregates -/

/-- Does an aggregate of an entity run over rows that are not marked as deleted only? -/
structure Aggregate.Conceals (db : Database) (e : Entity) (a : Aggregate) : Prop where
  entity : e ∈ db.schema
  relation : a.relation ∈ e.relations
  target : ∃ t, db.entity? a.relation.target = some t ∧ a.criterion.LeavesOut t
  criterion : a.criterion.Conceals db

/-- **An aggregate has the same value** where rows that are marked as deleted are left out. -/
theorem Aggregate.Conceals.value_purged {db : Database} {e : Entity} {a : Aggregate}
    (h : db.IsRegular) (ha : a.Conceals db e) (row : TableRow) :
    a.value db.purged.content e row = a.value db.content e row := by
  obtain ⟨t, ht, hout⟩ := ha.target
  have htable := h.targets e ha.entity _ ha.relation t ht
  have hrows : a.rows db.purged.content e row = a.rows db.content e row := by
    unfold Aggregate.rows
    dsimp only
    split
    · next hself =>
      rw [← hself, htable, Database.rowsOf_purged, h.joins_purged ha.entity ha.relation,
        h.marks_eq (List.mem_of_find?_eq_some ht), List.filter_comm, ha.criterion.filter_purged h hout,
        List.filter_comm]
    · rw [h.rows_purged ha.entity ha.relation ht, ha.criterion.filter_purged h hout]
  unfold Aggregate.value
  rw [hrows]

end Listing
