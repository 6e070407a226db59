import Listing.Proofs.Relational.Purged
import Listing.Proofs.Source.Script
import Listing.Source

/-!
# Queries that do not see deleted rows

A query is veiled if all that it asks of related rows is asked of those that are not marked as deleted
(`Query.Veiled`). Calls of a selection (`Call.Selects`) and of a filtering (`Call.Filters`) keep
a query veiled, and so do orders. A veiled query that leaves the marked rows of its own entity out
answers the same without them (`Query.Veiled.fetch_eq`, `count_eq`).
-/

namespace Listing

/-! ## Calls -/

/-- Does the call select, load along or aggregate? -/
inductive Call.Selects : Call → Prop
  | select (column : Value) : Call.Selects (.select column)
  | load (relation : Value) : Call.Selects (.load relation (.value .null))
  | refined (relation : Value) {t : Script} : (∀ c ∈ t.calls, Call.Selects c) →
      Call.Selects (.load relation (.script t))
  | aggregate (relation column function : Value) : Call.Selects (.aggregate relation column function)

/-- Does the call compare attributes, in branches and of related rows as well? -/
inductive Call.Filters : Call → Prop
  | compare (name operator : Value) {value : Value} : value.isScalar = true →
      Call.Filters (.compare name operator value)
  | member (name : Value) (values : List Value) : Call.Filters (.member name values)
  | like (name pattern operator : Value) : Call.Filters (.like name pattern operator)
  | any {branches : List Script} : (∀ t ∈ branches, ∀ c ∈ t.calls, Call.Filters c) →
      Call.Filters (.any branches)
  | has (relation : Value) {t : Script} : (∀ c ∈ t.calls, Call.Filters c) →
      Call.Filters (.has relation t)

/-- Does the call select, filter or order? -/
inductive Call.Plain : Call → Prop
  | selects {c : Call} : c.Selects → Call.Plain c
  | filters {c : Call} : c.Filters → Call.Plain c
  | orders (column direction : Value) : Call.Plain (.order column direction)

/-! ## Criteria of calls -/

namespace Criterion

variable {db : Database} {k : Criterion}

theorem conceals_trashed (db : Database) (t : Entity) (mode : Trashed) :
    ∀ c ∈ (t.trashedCriterion mode).toList, c.Conceals db := by
  intro c hc
  rw [Option.mem_toList] at hc
  unfold Entity.trashedCriterion at hc
  split at hc <;> cases hc <;> exact .isNull ..

/-- A criterion that the rows which are not marked meet leaves the others out. -/
theorem leavesOut_of_trashed {t : Entity} {cs : List Criterion}
    (h : ∀ c ∈ (t.trashedCriterion .excluded).toList, c ∈ cs) : (Criterion.all cs).LeavesOut t := by
  intro db row hmarks
  have hfalse : ∀ {cs : List Criterion} {c}, c ∈ cs → c.holds db row = false →
      allHold db row cs = false := by
    intro cs c hc hholds
    induction cs with
    | nil => cases hc
    | cons d cs ih =>
      rw [allHold]
      rcases List.mem_cons.1 hc with rfl | hc
      · rw [hholds, Bool.false_and]
      · rw [ih hc, Bool.and_false]
  unfold Entity.marks at hmarks
  unfold Entity.trashedCriterion at h
  cases hcolumn : t.softDelete.bind t.column? with
  | none =>
    rw [hcolumn] at hmarks
    cases hmarks
  | some column =>
    rw [hcolumn] at hmarks h
    refine hfalse (h _ (List.mem_singleton_self _)) ?_
    rw [Option.any_some] at hmarks
    rw [holds]
    cases hvalue : row.get column.name
    case null =>
      rw [hvalue] at hmarks
      cases hmarks
    all_goals rfl

theorem conceals_comparing {entity : String} {column : Column} {c : Comparison} {v : Value}
    (h : comparing entity column c v = .ok k) : k.Conceals db := by
  unfold comparing at h
  split at h <;> first
    | cases h; done
    | obtain rfl := Except.ok.inj h; constructor

theorem conceals_comparingRelation {entity : String} {r : Relation} {c : Comparison} {v : Value}
    (hv : v ≠ .null) (h : comparingRelation entity r c v = .ok k) : k.Conceals db := by
  unfold comparingRelation at h
  split at h <;> first
    | cases h; done
    | exact absurd rfl hv
    | obtain rfl := Except.ok.inj h; constructor

theorem conceals_among {column : Column} {vs : List Value} (h : among column vs = .ok k) :
    k.Conceals db := by
  unfold among at h
  split at h
  · cases h
  · obtain rfl := Except.ok.inj h
    constructor

end Criterion

theorem ColumnType.coerced_ne_null {v : Value} (h : v.isScalar = true) (t : ColumnType) :
    t.coerced v ≠ .null := by
  cases v with
  | text s =>
    show t.ofText s ≠ .null
    unfold ofText
    split
    · split <;> nofun
    · cases Date.ofText? s <;> nofun
    · cases Coercion.truth? s <;> nofun
    · cases Number.readInteger? s <;> nofun
    · cases Decimal.ofText? s <;> nofun
    · cases Number.readBinary? s <;> nofun
    · nofun
    · nofun
  | bool | int | binary | decimal | moment | date => nofun
  | _ => cases h

/-! ## Veiled queries -/

namespace Query

/-- A related row is asked for with the script that refines it. -/
theorem run_has (relation : Value) (t : Script) (q : Query) : (Call.has relation t).run capabilities q =
    q.whereHas relation (.code fun q => t.run capabilities q) := by
  rw [Call.has, Call.run_ask capabilities q rfl, List.map_cons, List.map_cons, List.map_nil,
    Argument.given, Argument.given]
  rfl

/-- Does a query on the rows of an entity, in which marked rows count so, ask only for related rows
that are not marked as deleted, and is another one the same without marked rows? -/
structure Veiled (db : Database) (e : Entity) (mode : Trashed) (q q' : Query) : Prop where
  database : q.db = db
  purged : q' = { q with db := db.purged }
  entity : q.entity = e
  known : e ∈ db.schema
  mode : q.trashed = mode
  criteria : ∀ c ∈ q.criteria, c.Conceals db
  loadings : ∀ l ∈ q.loadings.flatten, l.Conceals db e ∧ l.criterion.IsShort
  aggregates : ∀ a ∈ q.aggregates, a.Conceals db e

namespace Veiled

variable {db : Database} {e t : Entity} {mode : Trashed} {q q' : Query}

theorem of_database (ht : t ∈ db.schema) (operators : Operators) :
    Veiled db t .excluded { Query.of db t with operators := operators }
      { Query.of db.purged t with operators := operators } where
  database := rfl
  purged := rfl
  entity := rfl
  known := ht
  mode := rfl
  criteria := nofun
  loadings := nofun
  aggregates := List.forall_mem_nil _

theorem fresh (h : Veiled db e mode q q') (ht : t ∈ db.schema) :
    Veiled db t .excluded (q.fresh t) (q'.fresh t) where
  database := h.database
  purged := by rw [h.purged]; rfl
  entity := rfl
  known := ht
  mode := rfl
  criteria := nofun
  loadings := nofun
  aggregates := List.forall_mem_nil _

theorem blank (h : Veiled db e mode q q') : Veiled db e .included q.blank q'.blank where
  database := h.database
  purged := by rw [h.purged]; rfl
  entity := h.entity
  known := h.known
  mode := rfl
  criteria := nofun
  loadings := nofun
  aggregates := List.forall_mem_nil _

/-- **The criterion of a veiled query** conceals what is marked. -/
theorem conceals_criterion (h : Veiled db e mode q q') : q.criterion.Conceals db :=
  .all fun c hc => (List.mem_append.1 hc).elim (h.criteria c) (Criterion.conceals_trashed db _ _ c)

theorem leavesOut_criterion (h : Veiled db e .excluded q q') : q.criterion.LeavesOut e := by
  refine Criterion.leavesOut_of_trashed fun c hc => List.mem_append_right _ ?_
  rw [h.entity, h.mode]
  exact hc

theorem criterion_eq (h : Veiled db e mode q q') : q'.criterion = q.criterion := by
  rw [h.purged]
  rfl

theorem propertyOf_eq (h : Veiled db e mode q q') (name : Value) :
    q'.propertyOf name = q.propertyOf name := by
  rw [h.purged]
  rfl

theorem filtered (h : Veiled db e mode q q') {c : Criterion} (hc : c.Conceals db) :
    Veiled db e mode (q.filtered c) (q'.filtered c) where
  database := h.database
  purged := by rw [h.purged]; rfl
  entity := h.entity
  known := h.known
  mode := h.mode
  criteria := List.forall_mem_append.2 ⟨h.criteria, List.forall_mem_singleton.2 hc⟩
  loadings := h.loadings
  aggregates := h.aggregates

/-! ### Filters -/

theorem compare (h : Veiled db e mode q q') (name operator : Value) {value : Value}
    (hvalue : value.isScalar = true) :
    Alike (Veiled db e mode) (q.compare name operator value) (q'.compare name operator value) := by
  unfold Query.compare
  rw [show q'.operators = q.operators by rw [h.purged], h.propertyOf_eq,
    show q'.entity = q.entity by rw [h.purged]]
  refine .bind_same fun found _ => ?_
  cases found with
  | none => exact .error _
  | some c =>
    refine .bind_same fun property _ => ?_
    cases property with
    | column column =>
      exact .bind_same fun k hk => .ok (h.filtered (Criterion.conceals_comparing hk))
    | relation r =>
      exact .bind_same fun k hk => .ok (h.filtered (Criterion.conceals_comparingRelation
        (ColumnType.coerced_ne_null hvalue .boolean) hk))

theorem member (h : Veiled db e mode q q') (name values : Value) :
    Alike (Veiled db e mode) (q.member name values) (q'.member name values) := by
  unfold Query.member
  rw [h.propertyOf_eq]
  refine .bind_same fun property _ => .bind_same fun vs _ => ?_
  cases property with
  | column column => exact .bind_same fun k hk => .ok (h.filtered (Criterion.conceals_among hk))
  | relation r => exact .error _

theorem like (h : Veiled db e mode q q') (name pattern operator : Value) :
    Alike (Veiled db e mode) (q.like name pattern operator) (q'.like name pattern operator) := by
  unfold Query.like
  rw [h.propertyOf_eq, show q'.connected = q.connected by rw [h.purged]]
  refine .bind_same fun property _ => .bind_same fun op _ => ?_
  split
  · exact .error _
  · exact .error _
  · exact .error _
  · exact .ok (h.filtered (.like ..))

/-- Does what refines a query keep it veiled, whatever entity it is on? -/
def Refines (db : Database) (g : Given Query) : Prop :=
  ∀ {t mode q q'}, Veiled db t mode q q' → Alike (Veiled db t mode) (g.refine q) (g.refine q')

theorem whereAny (h : Veiled db e mode q q') {branches : List (Given Query)}
    (hbranches : ∀ g ∈ branches, Refines db g) :
    Alike (Veiled db e mode) (q.whereAny branches) (q'.whereAny branches) := by
  unfold Query.whereAny
  refine (Alike.mapM_same (P := fun c => c.Conceals db) fun g hg => ?_).bind ?_
  · exact (hbranches g hg h.blank).bind fun a b _ hab => .ok ⟨hab.criterion_eq, hab.conceals_criterion⟩
  · rintro cs _ - ⟨rfl, hcs⟩
    split
    · exact .ok h
    · exact .ok (h.filtered (.any hcs))

/-- A relation leads to an entity, with a veiled query on its rows. -/
theorem related_alike (h : Veiled db e mode q q') {β : Type} {S : β → β → Prop} {name : String}
    {f : Relation → Query → Except Error β} {f' : Relation → Query → Except Error β}
    (hf : ∀ r t inner inner', r ∈ e.relations → db.entity? r.target = some t →
      Veiled db t .excluded inner inner' → inner.criteria = [] → Alike S (f r inner) (f' r inner')) :
    Alike S (do
      let r ← q.relation name
      f r (← q.related r)) (do
      let r ← q'.relation name
      f' r (← q'.related r)) := by
  rw [show q'.relation name = q.relation name by rw [h.purged]; rfl]
  refine .bind_same fun r hr => ?_
  have hmem : r ∈ e.relations := by
    unfold Query.relation at hr
    split at hr
    · cases hr
    · split at hr
      · next s hs =>
        obtain rfl := Except.ok.inj hr
        rw [← h.entity]
        exact List.mem_of_find?_eq_some hs
      · cases hr
  unfold Query.related
  rw [show q'.db.entity? r.target = q.db.entity? r.target by rw [h.purged, h.database]; rfl,
    show q'.entity = q.entity by rw [h.purged], h.database]
  cases ht : db.entity? r.target with
  | none => exact .error _
  | some t => exact hf r t _ _ hmem ht (h.fresh (List.mem_of_find?_eq_some ht)) rfl

theorem relatedCriterion (h : Veiled db e mode q q') {g : Given Query} (hg : Refines db g)
    (path : List String) : Alike (fun c c' => c' = c ∧ c.Conceals db) (q.relatedCriterion g path)
      (q'.relatedCriterion g path) := by
  induction path generalizing e mode q q' with
  | nil => exact .ok ⟨rfl, .all nofun⟩
  | cons name rest ih =>
    cases rest with
    | nil =>
      refine h.related_alike fun r t inner inner' hr ht hinner _ => ?_
      refine (hg hinner).bind fun a b _ hab => .ok ⟨?_, ?_⟩
      · rw [hab.criterion_eq]
      · exact .related h.known hr ht hab.leavesOut_criterion hab.conceals_criterion
    | cons next rest =>
      refine h.related_alike fun r t inner inner' hr ht hinner _ => ?_
      refine (ih hinner).bind ?_
      rintro c _ - ⟨rfl, hc⟩
      have hfiltered := hinner.filtered hc
      refine .ok ⟨?_, ?_⟩
      · rw [hfiltered.criterion_eq]
      · exact .related h.known hr ht hfiltered.leavesOut_criterion hfiltered.conceals_criterion

theorem whereHas (h : Veiled db e mode q q') (relation : Value) {g : Given Query}
    (hg : Refines db g) :
    Alike (Veiled db e mode) (q.whereHas relation g) (q'.whereHas relation g) := by
  unfold Query.whereHas
  split
  · refine (h.relatedCriterion hg _).bind ?_
    rintro c _ - ⟨rfl, hc⟩
    exact .ok (h.filtered hc)
  · exact .error _

/-! ### Selections -/

theorem select (h : Veiled db e mode q q') (name : Value) :
    Alike (fun a b => Veiled db e mode a b ∧ a.criteria = q.criteria) (q.select name)
      (q'.select name) := by
  unfold Query.select
  rw [h.propertyOf_eq, show q'.columns = q.columns by rw [h.purged]]
  refine .bind_same fun property _ => .bind_same fun known _ => ?_
  cases known with
  | true => exact .ok ⟨h, rfl⟩
  | false => exact .ok ⟨{ h with purged := by rw [h.purged]; rfl }, rfl⟩

/-- Does what refines a query keep it veiled, with no criteria where it had none? -/
def Narrows (db : Database) (g : Given Query) : Prop :=
  ∀ {t mode q q'}, Veiled db t mode q q' → Alike
    (fun a b => Veiled db t mode a b ∧ a.criteria = q.criteria) (g.refine q) (g.refine q')

theorem narrows_null (db : Database) : Narrows db (.value .null) := fun h => .ok ⟨h, rfl⟩

/-- Without criteria there are no patterns. -/
theorem isShort_criterion (h : q.criteria = []) : q.criterion.IsShort := by
  unfold criterion Entity.trashedCriterion
  rw [h]
  intro p hp
  split at hp <;> cases hp

theorem loadingsAlong (h : Veiled db e mode q q') {g : Given Query} (hg : Narrows db g)
    {root : Entity} {here : List Relation} (hhere : db.Leads root here e) (path : List String) :
    Alike (fun ls ls' => ls' = ls ∧ ∀ l ∈ ls, l.Conceals db root ∧ l.criterion.IsShort)
      (q.loadingsAlong g here path) (q'.loadingsAlong g here path) := by
  induction path generalizing e mode q q' here with
  | nil => exact .ok ⟨rfl, nofun⟩
  | cons name rest ih =>
    cases rest with
    | nil =>
      refine h.related_alike fun r t inner inner' hr ht hinner hnew => ?_
      have hleads := hhere.append (.one h.known hr ht)
      refine (hg hinner).bind ?_
      rintro a b - ⟨hab, hcriteria⟩
      obtain rfl := hab.purged
      dsimp only
      split
      · exact .error _
      · refine .ok ⟨rfl, List.forall_mem_cons.2 ⟨⟨⟨t, hleads, ?_, ?_⟩, ?_⟩, ?_⟩⟩
        · exact hab.leavesOut_criterion
        · exact hab.conceals_criterion
        · exact isShort_criterion (hcriteria.trans hnew)
        · intro l hl
          obtain ⟨m, hm, rfl⟩ := List.mem_map.1 hl
          obtain ⟨⟨u, hu, hout, hconceals⟩, hshort⟩ := hab.loadings m hm
          exact ⟨⟨u, hleads.append hu, hout, hconceals⟩, hshort⟩
    | cons next rest =>
      refine h.related_alike fun r t inner inner' hr ht hinner hnew => ?_
      have hleads := hhere.append (.one h.known hr ht)
      refine (ih hinner hleads).bind ?_
      rintro ls _ - ⟨rfl, hls⟩
      refine .ok ⟨?_, List.forall_mem_cons.2 ⟨⟨⟨t, hleads, ?_, ?_⟩, ?_⟩, hls⟩⟩
      · rw [hinner.criterion_eq]
      · exact hinner.leavesOut_criterion
      · exact hinner.conceals_criterion
      · exact isShort_criterion hnew

theorem load (h : Veiled db e mode q q') (relation : Value) {g : Given Query} (hg : Narrows db g) :
    Alike (fun a b => Veiled db e mode a b ∧ a.criteria = q.criteria) (q.load relation g)
      (q'.load relation g) := by
  unfold Query.load
  split
  · refine (h.loadingsAlong hg (.nil h.known) _).bind ?_
    rintro ls _ - ⟨rfl, hls⟩
    refine .ok ⟨{ h with purged := by rw [h.purged], loadings := ?_ }, rfl⟩
    rw [List.flatten_append, List.flatten_singleton]
    exact List.forall_mem_append.2 ⟨h.loadings, hls⟩
  · exact .error _

theorem aggregated (h : Veiled db e mode q q') {r : Relation} (hr : r ∈ e.relations)
    (ht : db.entity? r.target = some t) (label : String) (f : AggregateFunction)
    (c : Option Column) :
    let a : Aggregate := ⟨label, f, r, c, .all (t.trashedCriterion .excluded).toList⟩
    Veiled db e mode { q with aggregates := q.aggregates ++ [a] }
      { q' with aggregates := q'.aggregates ++ [a] } := by
  intro a
  have ha : a.Conceals db e :=
    { entity := h.known, relation := hr
      target := ⟨t, ht, Criterion.leavesOut_of_trashed fun c hc => hc⟩
      criterion := .all (Criterion.conceals_trashed db t .excluded) }
  exact { h with
    purged := by rw [h.purged]
    aggregates := List.forall_mem_append.2 ⟨h.aggregates, List.forall_mem_singleton.2 ha⟩ }

theorem aggregate (h : Veiled db e mode q q') (relation column function : Value) :
    Alike (fun a b => Veiled db e mode a b ∧ a.criteria = q.criteria)
      (q.aggregate relation column function) (q'.aggregate relation column function) := by
  cases function with
  | text s =>
    obtain rfl := h.purged
    unfold Query.aggregate
    simp only [pure_eq_ok, ok_bind, throw_eq_error, error_bind]
    split
    · exact .error _
    · split
      · exact .error _
      · refine .bind_same fun name _ => h.related_alike fun r t inner inner' hr ht hinner _ => ?_
        obtain rfl := hinner.purged
        obtain rfl := hinner.entity
        split
        · exact .ok ⟨h.aggregated hr ht _ _ _, rfl⟩
        · exact .bind_same fun c _ => .ok ⟨h.aggregated hr ht _ _ _, rfl⟩
  | bytes => exact .error _
  | _ => exact .error _

theorem selectAll (h : Veiled db e mode q q') (columns : Value) :
    Alike (fun a b => Veiled db e mode a b ∧ a.criteria = q.criteria) (q.selectAll columns)
      (q'.selectAll columns) := by
  unfold Query.selectAll
  refine .bind_same fun vs _ => .foldlM (fun a b name _ hab => ?_) ⟨h, rfl⟩
  exact (hab.1.select name).mono fun _ _ _ hcd => ⟨hcd.1, hcd.2.trans hab.2⟩

theorem order (h : Veiled db e mode q q') (name : Value) (direction : Direction) :
    Alike (Veiled db e mode) (q.order name direction) (q'.order name direction) := by
  unfold Query.order
  rw [h.propertyOf_eq]
  refine .bind_same fun property _ => ?_
  cases property with
  | column column => exact .ok { h with purged := by rw [h.purged] }
  | relation r => exact .error _

/-! ### Scripts -/

theorem narrows_script {t : Script} (ht : ∀ c ∈ t.calls, ∀ {e mode q q'}, Veiled db e mode q q' →
    Alike (fun a b => Veiled db e mode a b ∧ a.criteria = q.criteria) (c.run capabilities q)
      (c.run capabilities q')) : Narrows db (.code fun q => t.run capabilities q) := by
  intro e mode q q' h
  refine Script.run_alike (R := fun a b => Veiled db e mode a b ∧ a.criteria = q.criteria)
    (fun c hc a b hab => ?_) ⟨h, rfl⟩
  exact (ht c hc hab.1).mono fun _ _ _ hcd => ⟨hcd.1, hcd.2.trans hab.2⟩

/-- **A call of a selection keeps a query veiled**, and it adds no criteria. -/
theorem run_selects {call : Call} (hcall : call.Selects) (h : Veiled db e mode q q') :
    Alike (fun a b => Veiled db e mode a b ∧ a.criteria = q.criteria) (call.run capabilities q)
      (call.run capabilities q') := by
  induction hcall generalizing e mode q q' with
  | select column => exact Call.run_alike [column] rfl (h.select column)
  | load relation => exact Call.run_alike [relation, .null] rfl (h.load relation (narrows_null db))
  | @refined relation t _ ih =>
    have hrun : ∀ q : Query, (Call.load relation (.script t)).run capabilities q =
        q.load relation (.code fun q => t.run capabilities q) := fun q => by
      rw [Call.load, Call.run_ask capabilities q rfl, List.map_cons, List.map_cons, List.map_nil,
        Argument.given, Argument.given]
      rfl
    rw [hrun, hrun]
    exact h.load relation (narrows_script fun c hc => ih c hc)
  | aggregate relation column function =>
    exact Call.run_alike [relation, column, function] rfl (h.aggregate relation column function)

/-- **A call of a filtering keeps a query veiled.** -/
theorem run_filters {call : Call} (hcall : call.Filters) (h : Veiled db e mode q q') :
    Alike (Veiled db e mode) (call.run capabilities q) (call.run capabilities q') := by
  induction hcall generalizing e mode q q' with
  | compare name operator hvalue =>
    exact Call.run_alike [name, operator, _] rfl (h.compare name operator hvalue)
  | member name values => exact Call.run_alike [name, .list values] rfl (h.member name (.list values))
  | like name pattern operator =>
    exact Call.run_alike [name, pattern, operator] rfl (h.like name pattern operator)
  | @any branches _ ih =>
    have hrun : ∀ q : Query, (Call.any branches).run capabilities q =
        q.whereAny (branches.map fun t => .code fun q => t.run capabilities q) := fun q => by
      rw [Call.any, Call.run_ask capabilities q rfl, List.map_cons, List.map_nil, Argument.given,
        argumentsGiven_eq_map, List.map_map]
      exact congrArg q.whereAny (List.map_congr_left fun t _ => by
        rw [Function.comp_apply, Argument.given])
    rw [hrun, hrun]
    refine h.whereAny fun g hg => ?_
    obtain ⟨t, ht, rfl⟩ := List.mem_map.1 hg
    exact fun h => Script.run_alike (fun c hc _ _ h => ih t ht c hc h) h
  | @has relation t _ ih =>
    rw [run_has, run_has]
    exact h.whereHas relation fun h => Script.run_alike (fun c hc _ _ h => ih c hc h) h

/-- **A plain script keeps a query veiled**, or fails with and without marked rows for one fault. -/
theorem run_script {t : Script} (ht : t.All Call.Plain) (h : Veiled db e mode q q') :
    Alike (Veiled db e mode) (t.run capabilities q) (t.run capabilities q') := by
  refine Script.run_alike (fun c hc _ _ h => ?_) h
  cases ht c hc with
  | selects hselects => exact (h.run_selects hselects).mono fun _ _ _ hab => hab.1
  | filters hfilters => exact h.run_filters hfilters
  | orders column direction =>
    exact Call.run_alike [column, direction] rfl
      (.bind_same fun direction _ => h.order column direction)

/-! ### Answers -/

section

variable (h : Veiled db e .excluded q q') (hdb : db.IsRegular)

include h hdb

theorem matching_eq (hshort : q.criterion.IsShort) : q'.matching = q.matching := by
  unfold matching
  rw [h.criterion_eq, h.purged]
  show q.criterion.select db.purged.content (db.purged.content.rowsOf q.entity.table) = _
  rw [Database.rowsOf_purged, h.entity, hdb.marks_eq h.known,
    h.conceals_criterion.select_purged hdb h.leavesOut_criterion hshort, h.database]

/-- **The same number of rows is counted.** -/
theorem count_eq (hshort : q.criterion.IsShort) : q'.count = q.count := by
  unfold Query.count
  rw [h.matching_eq hdb hshort, h.criterion_eq, h.purged]
  rfl

/-- **The same objects are made of rows**, with the same relations and aggregates. -/
theorem objects_eq (rows : List TableRow) : q'.objects rows = q.objects rows := by
  obtain rfl := h.database
  obtain rfl := h.entity
  have hload : ∀ parents store,
      q.db.purged.load q.loadings.flatten q.entity parents store =
        q.db.load q.loadings.flatten q.entity parents store :=
    Database.loadTo_purged hdb _ (fun l hl => (h.loadings l hl).1) fun l hl => (h.loadings l hl).2
  have hvalue : ∀ a ∈ q.aggregates, ∀ row,
      a.value q.db.purged.content q.entity row = a.value q.db.content q.entity row :=
    fun a ha => (h.aggregates a ha).value_purged hdb
  have hfold : ∀ store : Store,
      rows.foldlM (fun s row => q.aggregates.foldlM (fun s a => do
        let v ← a.value q.db.purged.content q.entity row
        return s.set (q.entity.keyOf row) a.label (.value v)) s) store =
      rows.foldlM (fun s row => q.aggregates.foldlM (fun s a => do
        let v ← a.value q.db.content q.entity row
        return s.set (q.entity.keyOf row) a.label (.value v)) s) store := fun store =>
    foldlM_congr fun store row _ => foldlM_congr fun store a ha => by rw [hvalue a ha]
  rw [h.purged]
  unfold objects
  simp only [hload, hfold]
  rfl

/-- **The same rows are looked up**, and the same objects. -/
theorem fetch_eq (hshort : q.criterion.IsShort) (w : Window) : q'.fetch w = q.fetch w := by
  unfold fetch
  rw [funext (h.objects_eq hdb), h.matching_eq hdb hshort, h.criterion_eq, h.purged]
  rfl

omit hdb in
theorem answer_eq : q'.answer = q.answer := by
  rw [h.purged]
  rfl

theorem get_eq (hshort : q.criterion.IsShort) : q'.get = q.get := by
  unfold Query.get
  rw [h.fetch_eq hdb hshort, h.answer_eq]

theorem paginate_eq (hshort : q.criterion.IsShort) (perPage page : Int) (name : Value) :
    q'.paginate perPage page name = q.paginate perPage page name := by
  unfold Query.paginate
  rw [h.count_eq hdb hshort, h.fetch_eq hdb hshort, h.answer_eq]

theorem simplePaginate_eq (hshort : q.criterion.IsShort) (perPage page : Int) (name : Value) :
    q'.simplePaginate perPage page name = q.simplePaginate perPage page name := by
  unfold Query.simplePaginate
  rw [h.fetch_eq hdb hshort, h.answer_eq]

end

theorem criterion_eq_of_criteria (h : Veiled db e mode q q') {a b : Query}
    (hab : Veiled db e mode a b) (hcriteria : a.criteria = q.criteria) :
    a.criterion = q.criterion := by
  unfold criterion
  rw [hcriteria, hab.entity, hab.mode, h.entity, h.mode]

/-- What is read of a query with columns selected is the same. -/
theorem selectAll_bind_eq (h : Veiled db e mode q q') {β : Type} (columns : Value)
    {read : Query → Except Error β}
    (hread : ∀ a b, Veiled db e mode a b → a.criterion = q.criterion → read b = read a) :
    (q'.selectAll columns >>= read) = (q.selectAll columns >>= read) :=
  (h.selectAll columns).bind_eq fun a b _ hab =>
    hread a b hab.1 (h.criterion_eq_of_criteria hab.1 hab.2)

end Veiled

end Query

end Listing
