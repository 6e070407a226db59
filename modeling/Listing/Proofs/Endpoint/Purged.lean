import Listing.Proofs.Endpoint.Linked
import Listing.Proofs.Request.Confinement
import Listing.Proofs.Source.Purged

/-!
# Deleted rows are not seen

Where no filter is about deleted rows or a scope, and nothing runs code, the script of a request is
plain (`Endpoint.plain_script`). So an endpoint over an entity answers the same rows, numbers and
pages, with the same relations and aggregates, whatever rows are marked as deleted, of the entity and
of all others: `Endpoint.purged_eq`.

That takes patterns which the database can look for. A pattern that is too long is a fault as soon as
there is a row to look at, deleted or not (`Endpoint.purged_ne`).
-/

namespace Listing

/-! ## Plain scripts -/

theorem Operation.makes_selects :
    Operation.Makes (fun entry => entry.isCodeless = true) Call.Selects where
  missing := rfl
  applied := by
    intro entry hcode name
    unfold Operation.applied
    split
    · exact .fail _
    · exact .fail _
    · next f _ _ hfield =>
      obtain rfl := Field.toValue_of_ofValue? hfield
      cases f with
      | column own => exact .one (.select own)
      | callback function => cases hcode
      | aggregate relation own function => exact .one (.aggregate relation own function)
      | group _ _ => exact .fail _
    · next i hinclusion =>
      obtain rfl := Inclusion.toValue_of_ofValue? hinclusion
      obtain ⟨path, rfl⟩ := Inclusion.runsNothing_of_ofValue? hcode hinclusion
      exact .one (.load path)
    · exact .fail _
  inside := by
    rintro name inner hcode es rfl e he
    simp only [Field.toValue, Value.isCodeless, Form.runsNothing, allCodeless, Bool.and_true,
      Bool.true_and, Bool.and_eq_true] at hcode
    exact entriesCodeless_iff.1 hcode.2 e he
  group := fun {name _} _ _ ht => .refined name ht

/-- **A selection without code selects, loads along and aggregates.** -/
theorem Selector.script_selects {s : Selector} (hfields : s.fields.All Field.RunsNothing)
    (hinclusions : s.inclusions.All Inclusion.RunsNothing) (sourceName : Except Error Value)
    (params : Entries) : (s.script sourceName params).All Call.Selects := by
  refine script_makes Operation.makes_selects hfields (fun e he name => ?_) sourceName params
  obtain ⟨path, hpath⟩ := hinclusions e he
  rw [hpath]
  exact .one (.load path)

/-- Is the filter about attributes only, neither about a scope nor about deleted rows? -/
structure Filter.IsPlain (f : Filter) : Prop where
  runsNothing : f.RunsNothing
  noScope : ∀ target, f ≠ .scope target
  notTrashed : f ≠ .trashed

namespace Filter

variable {f : Filter} {target name value : Value}

theorem MakesOn.filters {c : Call} (h : MakesOn target f c) (hscope : ∀ own, f ≠ .scope own) :
    c.Filters := by
  cases h with
  | exact _ hv | compare _ _ hv => exact .compare _ _ hv
  | exactly | member => exact .member ..
  | like => exact .like ..
  | scope own => exact absurd rfl (hscope own)

theorem targetScript_filters (hscope : ∀ own, f ≠ .scope own) (relations : Bool) :
    (targetScript relations f target name value).All Call.Filters :=
  targetScript_all relations (fun _ _ ht => .has _ ht) fun _ _ h => h.filters hscope

/-- **A plain filter compares attributes.** -/
theorem script_filters (hf : f.IsPlain) (relations : Bool) :
    (f.script relations name value).All Call.Filters := by
  cases f with
  | exact _ | member _ | compare _ _ | like _ _ _ => exact targetScript_filters (fun _ h => by cases h) relations
  | search attributes =>
    simp only [script]
    split
    · exact .fail _
    · refine .one (.any fun t ht => ?_)
      obtain ⟨target, -, rfl⟩ := List.mem_map.1 ht
      exact targetScript_filters (fun _ h => by cases h) relations
  | scope target => exact absurd rfl (hf.noScope target)
  | trashed => exact absurd rfl hf.notTrashed
  | callback function => exact absurd rfl (hf.runsNothing function)

end Filter

/-- **An ordering orders.** -/
theorem Sorter.script_orders (s : Sorter) (params : Entries) :
    (s.script params).All fun c => ∃ column direction, c = .order column direction := by
  refine .ofExcept fun script hscript => ?_
  obtain ⟨raw, -, hscript⟩ := bind_eq_ok_iff.1 hscript
  obtain ⟨os, -, hscript⟩ := bind_eq_ok_iff.1 hscript
  obtain rfl := Except.ok.inj hscript
  intro c hc
  obtain ⟨o, -, rfl⟩ := List.mem_map.1 hc
  exact ⟨o.1, o.2, rfl⟩

namespace Endpoint

/-- Does an endpoint run no code, and has it no filter for a scope or for deleted rows? -/
structure IsPlain (e : Endpoint) : Prop where
  fields : ∀ s, e.selector = some s → s.fields.All Field.RunsNothing
  inclusions : ∀ s, e.selector = some s → s.inclusions.All Inclusion.RunsNothing
  filters : ∀ p, e.filters = some p → p.filters.All Filter.IsPlain

variable {e : Endpoint} {params : Entries}

/-- **The script of a request is plain.** -/
theorem IsPlain.script (h : e.IsPlain) (params : Entries) : (e.script params).All Call.Plain := by
  have hfilters : ∀ p, e.theFilters = .ok p → p.filters.All Filter.IsPlain := by
    intro p hp
    unfold theFilters orMake at hp
    split at hp
    · next hsome =>
      obtain rfl := Except.ok.inj hp
      exact h.filters _ hsome
    · obtain ⟨settings, -, rfl⟩ := map_eq_ok_iff.1 hp
      exact .nil
  refine .sequence ?_
  rw [List.forall_mem_cons, List.forall_mem_cons, List.forall_mem_singleton]
  refine ⟨?selection, ?filtering, ?ordering⟩
  case selection =>
    cases hs : e.selector with
    | none => exact .done
    | some s => exact fun c hc =>
        .selects (s.script_selects (h.fields s hs) (h.inclusions s hs) _ params c hc)
  case filtering =>
    cases hp : e.theFilters with
    | error fault => exact .fail fault
    | ok p => exact fun c hc => .filters (FilterPipeline.script_makes
        (fun f hf _ _ => Filter.script_filters (hfilters p hp f hf) _) params c hc)
  case ordering =>
    cases e.sorter with
    | none => exact .done
    | some s =>
      intro c hc
      obtain ⟨column, direction, rfl⟩ := s.script_orders params c hc
      exact .orders column direction

/-! ## Endpoints over entities -/

/-- The endpoint that answers from the rows of an entity. -/
def onEntity (e : Endpoint) (db : Database) (t : Entity) (operators : Operators) : Endpoint :=
  { e with source := .query { Query.of db t with operators := operators } }

variable {db : Database} {t : Entity} {operators : Operators}

/-- **What a request prepares is the same without deleted rows.** -/
theorem IsPlain.prepareWith_alike (h : e.IsPlain) (ht : t ∈ db.schema) (operators : Operators)
    (params : Entries) :
    Alike (fun s s' => ∃ q q', s = .query q ∧ s' = .query q' ∧ Query.Veiled db t .excluded q q')
      ((e.onEntity db t operators).prepareWith params)
      ((e.onEntity db.purged t operators).prepareWith params) := by
  have hplain : (e.onEntity db t operators).IsPlain := ⟨h.fields, h.inclusions, h.filters⟩
  have hrun := (Query.Veiled.of_database ht operators).run_script (hplain.script params)
  show Alike _ (Except.map Source.query _) (Except.map Source.query _)
  revert hrun
  show Alike _ _ (((e.onEntity db.purged t operators).script params).run _ _) → _
  generalize ((e.onEntity db t operators).script params).run Query.capabilities _ = x
  generalize ((e.onEntity db.purged t operators).script params).run Query.capabilities _ = y
  rintro (hveiled | fault)
  · exact .ok ⟨_, _, rfl, rfl, hveiled⟩
  · exact .error fault

/-- The patterns that a source looks for. -/
def patterns : Source → List Parameter
  | .query q => q.criterion.patterns
  | .bare | .collection _ => []

/-- Are the patterns that a request looks for short enough for a database? -/
def IsShort (e : Endpoint) (request : Value) : Prop :=
  ∀ s, e.prepare request = .ok s → ∀ p ∈ patterns s, p.isOverlong = false

section

variable (h : e.IsPlain) (hdb : db.IsRegular) (ht : t ∈ db.schema) {request : Value}
  (hshort : (e.onEntity db t operators).IsShort request)

include h ht hshort

/-- **What is read of the source that a request prepares is the same without deleted rows**, if it is
of every veiled query. -/
theorem IsPlain.prepare_eq {β : Type} {read : Source → Except Error β}
    (hread : ∀ q q', Query.Veiled db t .excluded q q' → q.criterion.IsShort →
      read (.query q') = read (.query q)) :
    ((e.onEntity db.purged t operators).prepare request >>= read) =
      ((e.onEntity db t operators).prepare request >>= read) := by
  unfold prepare
  cases hparams : parameters request with
  | error fault => rfl
  | ok params =>
    refine (h.prepareWith_alike ht operators params).bind_eq ?_
    rintro source source' hsource ⟨q, q', rfl, rfl, hveiled⟩
    refine hread q q' hveiled (hshort (.query q) ?_)
    rw [prepare, hparams, ok_bind, hsource]

theorem IsPlain.page_eq {read : PageReader}
    (hread : ∀ p state q q' columns, Query.Veiled db t .excluded q q' → q.criterion.IsShort →
      read p state (.query q') columns = read p state (.query q) columns) :
    (e.onEntity db.purged t operators).page read request =
      (e.onEntity db t operators).page read request := by
  refine page_congr rfl fun p params _ hparams =>
    (h.prepareWith_alike ht operators params).mono ?_
  rintro _ _ hsource ⟨q, q', rfl, rfl, hveiled⟩
  have hq : q.criterion.IsShort := hshort (.query q) (by
    rw [prepare, parameters, hparams]
    exact hsource)
  refine ⟨?columns, fun state columns _ _ => hread p state q q' columns hveiled hq⟩
  rw [hveiled.purged]
  rfl

include hdb

/-- **Deleted rows are not seen.** An endpoint without code, filters for deleted rows and scopes
answers from the rows of an entity as if no table had a row that is marked as deleted: with the same
rows, objects, relations, aggregates, numbers and pages, or with the same fault. -/
theorem purged_eq :
    (e.onEntity db.purged t operators).get request = (e.onEntity db t operators).get request ∧
      ((e.onEntity db.purged t operators).prepare request >>= Source.count) =
        ((e.onEntity db t operators).prepare request >>= Source.count) ∧
      (e.onEntity db.purged t operators).paginate request =
        (e.onEntity db t operators).paginate request ∧
      (e.onEntity db.purged t operators).simplePaginate request =
        (e.onEntity db t operators).simplePaginate request := by
  refine ⟨?rows, ?number, ?numbered, ?simple⟩
  case rows => exact h.prepare_eq ht hshort fun q q' hveiled hq => hveiled.get_eq hdb hq
  case number => exact h.prepare_eq ht hshort fun q q' hveiled hq => hveiled.count_eq hdb hq
  case numbered =>
    refine h.page_eq ht hshort fun p state q q' columns hveiled hq => ?_
    have hpage : ∀ size number name, (q'.selectAll columns >>= fun k => k.paginate size number name) =
        (q.selectAll columns >>= fun k => k.paginate size number name) := fun size number name =>
      hveiled.selectAll_bind_eq columns fun a b hab hcriterion =>
        hab.paginate_eq hdb (hcriterion ▸ hq) size number name
    unfold Source.paginate
    simp only [hpage]
  case simple =>
    refine h.page_eq ht hshort fun p state q q' columns hveiled hq => ?_
    have hpage : ∀ size number name,
        (q'.selectAll columns >>= fun k => k.simplePaginate size number name) =
          (q.selectAll columns >>= fun k => k.simplePaginate size number name) :=
      fun size number name => hveiled.selectAll_bind_eq columns fun a b hab hcriterion =>
        hab.simplePaginate_eq hdb (hcriterion ▸ hq) size number name
    unfold Source.simplePaginate
    simp only [hpage]

end

/-! ## Items of a shop -/

theorem shop_isRegular : Shop.database.IsRegular where
  tables := by
    have htables : (Shop.database.schema.map (·.table)).Nodup := by decide
    intro e he f hf htable
    rw [List.inj_on_of_nodup_map htables he hf htable]
  named := by decide
  targets := by
    have hall : Shop.database.schema.all (fun e => e.relations.all fun r =>
        (Shop.database.entity? r.target).all fun t => r.table == t.table) = true := by decide
    intro e he r hr t ht
    have hr := List.all_eq_true.1 (List.all_eq_true.1 hall e he) r hr
    rw [ht] at hr
    exact eq_of_beq hr
  pairs := by
    have hall : Shop.database.schema.all (fun e => e.relations.all fun r => match r.link with
        | .through table .. => Shop.database.schema.all fun f => f.table != table
        | .columns .. => true) = true := by decide
    intro e he r hr table own near far theirs hlink f hf htable
    have hr := List.all_eq_true.1 (List.all_eq_true.1 hall e he) r hr
    rw [hlink] at hr
    exact absurd htable (bne_iff_ne.1 (List.all_eq_true.1 hr f hf))

/-- What requests can select of items. -/
def itemSelector : Selector where
  fields := [("id", .column (.text "id")),
    ("ordered", .aggregate (.text "orderLines") (.text "qty") (.text "sum")),
    ("labels", .group (.text "labels") (.map [(.text "title",
      (Field.column (.text "title")).toValue)]))]
  inclusions := [("category", .relation (.text "category") .null)]

/-- What requests can filter items by. -/
def itemFilters : FilterPipeline where
  filters := [("id", .exact (.text "id")), ("label", .exact (.text "labels.title")),
    ("name", .like (.text "name") (.bool false) .null),
    ("find", .search [.text "name", .text "category.name"])]

/-- An endpoint over the items of a shop. -/
def ofItems : Endpoint where
  source := .query (.of Shop.database Shop.item)
  config := []
  selector := some itemSelector
  filters := some itemFilters

theorem ofItems_isPlain : ofItems.IsPlain where
  fields := by
    rintro s ⟨⟩
    simp [itemSelector, Registry.All, Field.RunsNothing, Field.toValue, Value.isCodeless,
      Form.runsNothing, allCodeless, entriesCodeless]
  inclusions := by
    rintro s ⟨⟩
    exact List.forall_mem_singleton.2 ⟨.text "category", rfl⟩
  filters := by
    rintro p ⟨⟩
    simp only [itemFilters, Registry.All, List.forall_mem_cons]
    refine ⟨?_, ?_, ?_, ?_, by simp⟩ <;> constructor <;> simp [Filter.RunsNothing]

/-- A request for the red books among the items, with their labels, their categories and how many of
them are ordered. -/
def redBooks : Value := .map [
  (.text "fields", .map [(.int 0, .text "id"), (.int 1, .text "ordered"),
    (.text "labels", .text "title")]),
  (.text "include", .text "category"),
  (.text "filter", .map [(.text "label", .text "red"), (.text "find", .text "book")])]

theorem redBooks_isShort : (ofItems.onEntity Shop.database Shop.item .builtin).IsShort redBooks := by
  intro s hs p hp
  have hshort : ((ofItems.onEntity Shop.database Shop.item .builtin).prepare redBooks).toOption.all
      (fun s => (patterns s).all fun p => !p.isOverlong) = true := by decide +kernel
  rw [hs] at hshort
  simpa using List.all_eq_true.1 hshort p hp

/-- The red books with what is asked for of them. -/
theorem purged_eq_redBooks : ofItems.IsPlain ∧ Shop.database.IsRegular ∧
    Shop.item ∈ Shop.database.schema ∧
    (ofItems.onEntity Shop.database Shop.item .builtin).IsShort redBooks ∧
    (ofItems.onEntity Shop.database.purged Shop.item .builtin).get redBooks =
      (ofItems.onEntity Shop.database Shop.item .builtin).get redBooks :=
  ⟨ofItems_isPlain, shop_isRegular, by simp [Shop.database], redBooks_isShort,
    (purged_eq ofItems_isPlain shop_isRegular (by simp [Shop.database]) redBooks_isShort).1⟩

/-! ## Patterns that are too long -/

/-- The parameters of a request for the third item, which is marked as deleted, by its name. -/
def thirdNamed (s : String) : Entries :=
  [(.text "filter", .map [(.text "id", .text "3"), (.text "name", .text s)])]

/-- The criterion of the third item. -/
def isThird : Criterion := .compare (Shop.integers "id") .equal (.integer 3)

/-- The query for the third item by its name. -/
def thirdQuery (db : Database) (s : String) : Query :=
  { Query.of db Shop.item with
    criteria := [isThird, .like (Shop.texts "name") (.text s) true false] }

variable {s : String}

theorem steps_thirdNamed (hs : Text.isBlankText s = false) :
    itemFilters.steps (thirdNamed s) = .ok [⟨.text "id", .exact (.text "id"), .text "3"⟩,
      ⟨.text "name", .like (.text "name") (.bool false) .null, .text s⟩] := by
  have hkeyword : itemFilters.settings.keyword = .text "filter" := rfl
  have hparameter : (thirdNamed s).parameter (.text "filter") =
      .ok (.map [(.text "id", .text "3"), (.text "name", .text s)]) := by with_unfolding_all rfl
  have hnamed : itemFilters.named? (.text "id") = some (.exact (.text "id")) ∧
      itemFilters.named? (.text "name") = some (.like (.text "name") (.bool false) .null) := by
    constructor <;> with_unfolding_all rfl
  have hid : (Value.text "3").isEmpty = false := by decide
  have hname : (Value.text s).isEmpty = false := hs
  simp [FilterPipeline.steps, FilterPipeline.stepsOf, hkeyword, hparameter, hnamed, hid, hname]

theorem like_of_column {q : Query} {name : Value} {column : Column} (hq : q.connected = true)
    (hname : q.propertyOf name = .ok (.column column)) (s : String) :
    q.like name (.text s) .null =
      .ok (q.filtered (.like column (.ofValue column.type (.text s)) true false)) := by
  have hoperator : ∃ op, (Adapters.builtin.find "sqlite").operator .null = .ok op ∧
      op.negated = false := ⟨_, rfl, by decide +kernel⟩
  obtain ⟨op, hop, hnegated⟩ := hoperator
  unfold Query.like
  simp only [hname, hq, if_true, hop, hnegated, ok_bind, pure_eq_ok]

theorem prepare_thirdNamed (db : Database) (hs : Text.isBlankText s = false) :
    (ofItems.onEntity db Shop.item .builtin).prepare (.map (thirdNamed s)) =
      .ok (.query (thirdQuery db s)) := by
  have hselector : itemSelector.script (.ok (.text (Query.of db Shop.item).selfName)) (thirdNamed s) =
      .done := by with_unfolding_all rfl
  have hdone : ∀ q : Query, Script.run Query.capabilities q .done = .ok q := fun _ => rfl
  have hscripts : FilterPipeline.stepScript true ⟨.text "id", .exact (.text "id"), .text "3"⟩ =
      .one (.compare (.text "id") (.text "=") (.text "3")) ∧
      FilterPipeline.stepScript true ⟨.text "name", .like (.text "name") (.bool false) .null, .text s⟩
        = .one (.like (.text "name") (.text s) .null) := by
    constructor <;> with_unfolding_all rfl
  have hcompare : (Call.compare (.text "id") (.text "=") (.text "3")).run Query.capabilities
      { Query.of db Shop.item with operators := .builtin } =
      .ok { Query.of db Shop.item with criteria := [isThird] } := by with_unfolding_all rfl
  have hlike : (Call.like (.text "name") (.text s) .null).run Query.capabilities
      { Query.of db Shop.item with criteria := [isThird] } = .ok (thirdQuery db s) := by
    have hproperty : ({ Query.of db Shop.item with criteria := [isThird] } : Query).propertyOf
        (.text "name") = .ok (.column (Shop.texts "name")) := by with_unfolding_all rfl
    rw [Call.like, Call.run_ask _ _ rfl]
    exact like_of_column rfl hproperty s
  show Except.map Source.query (Script.run _ _ (.sequence [
    itemSelector.script (.ok (.text (Query.of db Shop.item).selfName)) (thirdNamed s),
    itemFilters.script true (thirdNamed s), .done])) = _
  rw [Script.run_sequence]
  simp only [hselector, List.foldlM_cons, List.foldlM_nil, hdone, ok_bind, pure_eq_ok]
  rw [FilterPipeline.run_script, steps_thirdNamed hs, ok_bind]
  simp only [List.foldlM_cons, List.foldlM_nil, FilterPipeline.apply, hscripts, Script.run_one,
    hcompare, hlike, ok_bind, pure_eq_ok, Except.map]

theorem matching_thirdQuery (db : Database) (hlong : Parameter.patternLimit < s.utf8ByteSize) :
    (thirdQuery db s).matching =
      if (db.content.rowsOf "items").any fun row => isThird.holds db.content row then
        .error .badOperation
      else .ok [] := by
  have hoverlong : (Parameter.text s).isOverlong = true := decide_eq_true hlong
  have hcriterion : (thirdQuery db s).criterion = .all [isThird,
    .like (Shop.texts "name") (.text s) true false, .isNull (Shop.moments "deleted_at") false] := rfl
  have hoverruns : ∀ row, (thirdQuery db s).criterion.overruns db.content row =
      isThird.holds db.content row := by
    intro row
    rw [hcriterion]
    simp [Criterion.overruns, Criterion.allOverrun, hoverlong, isThird]
  show Criterion.select db.content (db.content.rowsOf "items") _ = _
  unfold Criterion.select
  simp only [hoverruns]
  split
  · rfl
  · next hnone =>
    congr 1
    rw [List.filter_eq_nil_iff]
    intro row hrow hholds
    rw [hcriterion, Criterion.holds, Criterion.allHold, Bool.and_eq_true] at hholds
    exact hnone (List.any_eq_true.2 ⟨row, hrow, hholds.1⟩)

theorem get_thirdQuery (db : Database) (hlong : Parameter.patternLimit < s.utf8ByteSize) :
    (thirdQuery db s).get =
      if (db.content.rowsOf "items").any fun row => isThird.holds db.content row then
        .error .badOperation
      else .ok (.plain []) := by
  have hsession : (thirdQuery db s).requireSession = .ok () := rfl
  have hstraight : (thirdQuery db s).misled = false := rfl
  have hfault : (thirdQuery db s).criterion.fault? ({} : Window).parameters
      ((thirdQuery db s).aggregates.any Aggregate.meaningless) = none := by
    have hnumber : (Parameter.integer 3).IsTaken :=
      Parameter.isTaken_integer (by decide +kernel) (by decide +kernel)
    have hname : (Parameter.text s).IsTaken := ⟨nofun, rfl⟩
    refine Criterion.fault?_eq_none_iff.2 ⟨?_, rfl, show 2 ≤ Parameter.countLimit by decide⟩
    exact List.forall_mem_cons.2 ⟨hnumber, List.forall_mem_singleton.2 hname⟩
  have hnone : TableRow.sortBy (thirdQuery db s).sorting [] = [] := (TableRow.sortBy_perm ..).eq_nil
  unfold Query.get Query.fetch
  simp only [hsession, hstraight, Bool.false_eq_true, if_false, hfault, matching_thirdQuery db hlong,
    ok_bind]
  split
  · rfl
  · simp only [ok_bind, hnone]
    rfl

/-- A text of this many letters. -/
def letters (n : Nat) : String := String.ofList (List.replicate n 'a')

theorem utf8ByteSize_letters (n : Nat) : (letters n).utf8ByteSize = n := by
  induction n with
  | zero => rfl
  | succ n ih =>
    have hletter : (String.singleton 'a').utf8ByteSize = 1 := rfl
    rw [letters, List.replicate_succ, String.ofList_cons, String.utf8ByteSize_append, hletter]
    rw [letters] at ih
    omega

theorem isBlankText_letters (n : Nat) : Text.isBlankText (letters (n + 1)) = false := by
  rw [Text.isBlankText, letters, String.toList_ofList, List.replicate_succ, List.all_cons]
  rfl

/-- **A deleted row is noticed by a pattern that is too long**: looking at it fails, and there is none
to look at where it is gone. -/
theorem purged_ne : ofItems.IsPlain ∧ Shop.database.IsRegular ∧ Shop.item ∈ Shop.database.schema ∧
    (ofItems.onEntity Shop.database Shop.item .builtin).get (.map (thirdNamed (letters 50001))) =
      .error .badOperation ∧
    (ofItems.onEntity Shop.database.purged Shop.item .builtin).get
      (.map (thirdNamed (letters 50001))) = .ok (.plain []) := by
  have hlong : Parameter.patternLimit < (letters 50001).utf8ByteSize := by
    rw [utf8ByteSize_letters]
    decide
  have hthere : (Shop.database.content.rowsOf "items").any
      (fun row => isThird.holds Shop.database.content row) = true := by decide +kernel
  have hgone : (Shop.database.purged.content.rowsOf "items").any
      (fun row => isThird.holds Shop.database.purged.content row) = false := by decide +kernel
  refine ⟨ofItems_isPlain, shop_isRegular, by simp [Shop.database], ?there, ?gone⟩
  case there =>
    rw [get, prepare_thirdNamed _ (isBlankText_letters 50000), ok_bind]
    exact (get_thirdQuery _ hlong).trans (if_pos hthere)
  case gone =>
    rw [get, prepare_thirdNamed _ (isBlankText_letters 50000), ok_bind]
    exact (get_thirdQuery _ hlong).trans (if_neg (by rw [hgone]; exact Bool.false_ne_true))

end Endpoint

end Listing
