import Listing.Proofs.Endpoint.Narrowing
import Listing.Proofs.Endpoint.Purged
import Listing.Proofs.Source.Conjunction

/-!
# Filters are a conjunction and fields a projection

An endpoint over rows in memory prepares a request in three steps, of which the second one adds the
conditions of the filters to what the first one leaves, and the third one does not notice them
(`Endpoint.FiltersRows.prepareWith_eq`). So the order of the filters of a request does not matter, nor
do filters with empty values; the rows of a request are those that pass each filter alone; and fields
narrow the rows of a request to attributes (`Endpoint.filters_conjoin`).

Where what is selected and included adds conditions or columns of its own, the last two do not hold: a
callback of an include can leave out a row that passes all filters (`Endpoint.get_ne_filtered`).
Without callbacks none does (`Endpoint.selection_spares`, `Endpoint.selection_loads`).
-/

namespace Listing

/-! ## Scripts of filters, selections and orderings -/

namespace Filter

variable {f : Filter} {target name value : Value}

theorem MakesOn.narrows {c : Call} (h : MakesOn target f c) : c.Asks Capability.Narrows := by
  cases h <;> exact .ask _ (by simp [Capability.Narrows])

/-- **A filter without a callback neither selects nor orders.** -/
theorem script_narrows (hf : f.RunsNothing) (relations : Bool) :
    (f.script relations name value).Asks Capability.Narrows := by
  have htarget (f : Filter) (target : Value) :
      (targetScript relations f target name value).Asks Capability.Narrows :=
    targetScript_all (Q := Call.Asks Capability.Narrows) relations
      (fun _ _ _ => .ask _ (by simp [Capability.Narrows])) fun _ _ => MakesOn.narrows
  cases f with
  | exact _ | member _ | compare _ _ | like _ _ _ | scope _ => exact htarget _ _
  | search attributes =>
    simp only [script]
    split
    · exact Script.All.done
    · exact List.forall_mem_singleton.2 (.ask _ (by simp [Capability.Narrows]))
  | trashed =>
    simp only [script]
    split
    · exact Script.All.done
    · exact List.forall_mem_singleton.2 (.ask _ (by simp [Capability.Narrows]))
  | callback function => exact absurd rfl (hf function)

end Filter

theorem Call.Selects.spares {c : Call} (h : c.Selects) : c.Asks Capability.Spares := by
  cases h <;> exact .ask _ ⟨nofun, nofun, nofun, nofun⟩

theorem Sorter.script_asks (s : Sorter) (params : Entries) : (s.script params).Asks (· = .order) := by
  intro c hc
  obtain ⟨column, direction, rfl⟩ := s.script_orders params c hc
  exact .ask _ rfl

/-- **A selection without fields selects nothing**, if its includes run no code. -/
theorem Selector.script_loads {s : Selector} (hinclusions : s.inclusions.All Inclusion.RunsNothing)
    (sourceName : Except Error Value) {params : Entries}
    (hnone : params.parameter s.settings.fieldsKeyword = .ok .null) :
    (s.script sourceName params).Asks (· ≠ .select) := by
  unfold script
  rw [fieldPlan_of_none hnone]
  dsimp only
  split
  · exact Script.All.done
  · next plan hinclusionPlan =>
    rw [show FieldStep.scriptOf [] = .done from rfl, Script.done_andThen]
    refine inclusionPlan_makes (Q := Call.Asks (· ≠ .select)) (fun i hi name => ?_) hinclusionPlan
    obtain ⟨path, hpath⟩ := hinclusions i hi
    rw [hpath]
    exact List.forall_mem_singleton.2 (.ask _ nofun)

/-! ## Endpoints over rows in memory -/

namespace Endpoint

variable {e : Endpoint} {c : Collection} {f : FilterPipeline} {keyword : String}
  {params params' : Entries} {steps : List FilterStep} {all : List Value}

/-- What a request selects and includes. -/
def selection (e : Endpoint) (params : Entries) : Script :=
  scriptIfMade e.selector fun s => s.script (.ok (.text e.source.selfName)) params

/-- What a request orders by. -/
def ordering (e : Endpoint) (params : Entries) : Script :=
  scriptIfMade e.sorter fun s => s.script params

theorem run_script (hf : e.theFilters = .ok f) {σ : Type} (k : Capabilities σ) (x : σ) :
    (e.script params).run k x = (do
      let x ← (e.selection params).run k x
      let x ← (f.script e.source.supportsRelations params).run k x
      (e.ordering params).run k x) := by
  rw [script, hf, Script.run_sequence, List.foldlM_cons]
  refine bind_congr fun x => ?_
  rw [List.foldlM_cons]
  refine bind_congr fun x => ?_
  exact (bind_pure _)

theorem ordering_asks (e : Endpoint) (params : Entries) : (e.ordering params).Asks (· = .order) := by
  unfold ordering scriptIfMade
  cases e.sorter with
  | none => exact Script.All.done
  | some s => exact s.script_asks params

/-- **A selection without code adds no condition.** -/
theorem selection_spares (hcodeless : ∀ s, e.selector = some s →
    s.fields.All Field.RunsNothing ∧ s.inclusions.All Inclusion.RunsNothing) (params : Entries) :
    (e.selection params).Asks Capability.Spares := by
  unfold selection scriptIfMade
  cases he : e.selector with
  | none => exact Script.All.done
  | some s =>
    obtain ⟨hfields, hinclusions⟩ := hcodeless s he
    exact fun c hc => (s.script_selects hfields hinclusions _ params c hc).spares

/-- **A request without fields selects nothing**, if includes run no code. -/
theorem selection_loads
    (hinclusions : ∀ s, e.selector = some s → s.inclusions.All Inclusion.RunsNothing)
    (hnone : ∀ s, e.selector = some s → params.parameter s.settings.fieldsKeyword = .ok .null) :
    (e.selection params).Asks (· ≠ .select) := by
  unfold selection scriptIfMade
  cases he : e.selector with
  | none => exact Script.All.done
  | some s => exact s.script_loads (hinclusions s he) _ (hnone s he)

theorem ordering_spares (e : Endpoint) (params : Entries) :
    (e.ordering params).Asks Capability.Spares :=
  (e.ordering_asks params).mono fun _ hc => hc ▸ ⟨nofun, nofun, nofun, nofun⟩

/-- The keywords of everything but filters. -/
def unfilteredKeywords (e : Endpoint) : List Value :=
  (e.selector.map fun s => [s.settings.fieldsKeyword, s.settings.includeKeyword]).getD [] ++
    (e.sorter.map fun s => s.settings.keyword).toList ++
    (match e.thePagination with
      | .ok p => p.keywords
      | .error _ => [])

/-- Does an endpoint filter rows in memory by filters without callbacks, which it reads under
a keyword? -/
structure FiltersRows (e : Endpoint) (c : Collection) (f : FilterPipeline) (keyword : String) :
    Prop where
  source : e.source = .collection c
  fresh : c.blank = c
  filters : e.theFilters = .ok f
  codeless : f.filters.All Filter.RunsNothing
  named : f.settings.keyword = .text keyword

namespace FiltersRows

variable (h : e.FiltersRows c f keyword)

include h

theorem narrowing (hsteps : f.steps params = .ok steps) : Collection.Narrowing steps := by
  intro s hs
  have hnamed := FilterPipeline.named?_of_mem_steps hsteps hs
  obtain ⟨name, -, hget⟩ := Option.bind_eq_some_iff.1 hnamed
  exact Filter.script_narrows (h.codeless.get? hget) false

/-- **What a request prepares**: what it selects and orders by, with the conditions of its filters
added to those that the selection leaves. -/
theorem prepareWith_eq (params : Entries) : e.prepareWith params = (do
    let selected ← (e.selection params).run Collection.capabilities c
    let steps ← f.steps params
    let conditions ← steps.mapM (FilterStep.conditions c)
    let ordered ← (e.ordering params).run Collection.capabilities selected
    return .collection (ordered.withPredicates (selected.predicates ++ conditions.flatten))) := by
  rw [prepareWith, h.source]
  show ((e.script params).run Collection.capabilities c).map Source.collection = _
  rw [run_script h.filters, h.source, bind_map]
  cases hselected : (e.selection params).run Collection.capabilities c with
  | error fault => rfl
  | ok selected =>
    obtain ⟨hrows, hoperators⟩ := Collection.run_same hselected
    have hblank : selected.blank = c.blank := by
      rw [Collection.blank, Collection.blank, hrows, hoperators]
    have hconditions : FilterStep.conditions selected = FilterStep.conditions c := by
      funext s
      rw [FilterStep.conditions, FilterStep.conditions, hblank]
    rw [ok_bind, ok_bind, FilterPipeline.run_script]
    cases hsteps : f.steps params with
    | error fault => rfl
    | ok steps =>
      show (steps.foldlM (FilterPipeline.apply Collection.capabilities false) selected >>=
        (e.ordering params).run Collection.capabilities).map Source.collection = _
      rw [Collection.foldlM_apply (h.narrowing hsteps), hconditions, ok_bind]
      cases steps.mapM (FilterStep.conditions c) with
      | error fault => rfl
      | ok pss =>
        show ((e.ordering params).run Collection.capabilities
          (selected.withPredicates (selected.predicates ++ pss.flatten))).map Source.collection = _
        rw [Collection.run_withPredicates (e.ordering_spares params)]
        cases (e.ordering params).run Collection.capabilities selected <;> rfl

/-- What a request lists comes from a collection with the conditions of its filters. -/
theorem exists_prepared (hsteps : f.steps params = .ok steps)
    (hget : e.get (.map params) = .ok (.plain all)) :
    ∃ selected conditions ordered,
      (e.selection params).run Collection.capabilities c = .ok selected ∧
      steps.mapM (FilterStep.conditions c) = .ok conditions ∧
      (e.ordering params).run Collection.capabilities selected = .ok ordered ∧
      (ordered.withPredicates (selected.predicates ++ conditions.flatten)).get = .ok all := by
  have hread : e.prepareWith params >>= Source.get = .ok (.plain all) := hget
  obtain ⟨source, hprepared, hread⟩ := bind_eq_ok_iff.1 hread
  rw [h.prepareWith_eq] at hprepared
  obtain ⟨selected, hselected, hprepared⟩ := bind_eq_ok_iff.1 hprepared
  obtain ⟨steps', hsteps', hprepared⟩ := bind_eq_ok_iff.1 hprepared
  obtain rfl := Except.ok.inj (hsteps.symm.trans hsteps')
  obtain ⟨conditions, hconditions, hprepared⟩ := bind_eq_ok_iff.1 hprepared
  obtain ⟨ordered, hordered, hprepared⟩ := bind_eq_ok_iff.1 hprepared
  obtain rfl := Except.ok.inj hprepared
  obtain ⟨rows, hrows, heq⟩ := map_eq_ok_iff.1 hread
  obtain rfl := Rows.plain.inj heq
  exact ⟨selected, conditions, ordered, hselected, hconditions, hordered, hrows⟩

/-- **A rearranged request prepares a collection that passes the same rows.** -/
theorem exists_rearranged (hapart : ∀ k ∈ e.unfilteredKeywords, k ≠ .text keyword)
    (hsteps : f.steps params = .ok steps) (hdecided : ∀ s ∈ steps, s.Decides c)
    (hget : e.get (.map params) = .ok (.plain all))
    {bucket extra : Entries} (hr : f.Rearranged keyword params params' bucket extra) :
    ∃ d d', e.prepareWith params = .ok (.collection d) ∧
      e.prepareWith params' = .ok (.collection d') ∧ d.PassAlike d' := by
  obtain ⟨selected, conditions, ordered, hselected, hconditions, hordered, -⟩ :=
    h.exists_prepared hsteps hget
  obtain ⟨steps', hsteps', hperm⟩ := hr.exists_steps h.named hsteps
  obtain ⟨conditions', hconditions', hpermuted⟩ := mapM_perm hperm hconditions
  have hsame (k : Value) (hk : k ∈ e.unfilteredKeywords) :
      params'.parameter k = params.parameter k := hr.others k (hapart k hk)
  have hselection : e.selection params' = e.selection params := by
    unfold selection scriptIfMade
    cases he : e.selector with
    | none => rfl
    | some s =>
      exact Selector.script_congr (hsame _ (by simp [unfilteredKeywords, he]))
        (hsame _ (by simp [unfilteredKeywords, he])) _
  have hordering : e.ordering params' = e.ordering params := by
    unfold ordering scriptIfMade
    cases he : e.sorter with
    | none => rfl
    | some s => exact Sorter.script_congr (hsame _ (by simp [unfilteredKeywords, he]))
  refine ⟨ordered.withPredicates (selected.predicates ++ conditions.flatten),
    ordered.withPredicates (selected.predicates ++ conditions'.flatten), ?_, ?_,
    ⟨⟨selected.predicates ++ conditions'.flatten, rfl⟩, ?_⟩⟩
  · rw [h.prepareWith_eq, hselected, ok_bind, hsteps, ok_bind, hconditions, ok_bind, hordered]
    rfl
  · rw [h.prepareWith_eq, hselection, hselected, ok_bind, hsteps', ok_bind, hconditions', ok_bind,
      hordering, hordered]
    rfl
  · refine filterM_congr fun row hrow => ?_
    have hrows : ordered.rows = c.rows :=
      (Collection.run_same hordered).1.trans (Collection.run_same hselected).1
    show Predicate.allHold row (selected.predicates ++ conditions'.flatten) =
      Predicate.allHold row (selected.predicates ++ conditions.flatten)
    rw [Predicate.allHold_append, Predicate.allHold_append, Predicate.allHold_perm hpermuted
      (Collection.decided_conditions hconditions hdecided (hrows ▸ hrow))]

end FiltersRows

/-! ## Pages -/

/-- Do two pages differ in their links only? -/
def DifferInLinks (page page' : Page) : Prop := ∃ links, page' = page.withLinks links

/-- **Requests that prepare sources which are read alike** have the same pages, but for links. -/
theorem page_alike {s s' : Source} (hs : e.prepareWith params = .ok s)
    (hs' : e.prepareWith params' = .ok s') (hcolumns : s'.columnsValue = s.columnsValue)
    (hstate : ∀ p, e.thePagination = .ok p → p.state params' = p.state params) {read : PageReader}
    (hread : ∀ p state columns, read p state s' columns = read p state s columns) :
    Alike DifferInLinks (e.page read (.map params)) (e.page read (.map params')) := by
  cases hp : e.thePagination with
  | error fault =>
    have hfault : ∀ params, e.page read (.map params) = .error fault := by
      intro params
      unfold page
      rw [hp]
      rfl
    rw [hfault, hfault]
    exact .error fault
  | ok p =>
    rw [page_of_params hp rfl, page_of_params hp rfl, hs, hs', ok_bind, ok_bind]
    refine .bind_same fun path _ => ?_
    rw [hstate p hp, hcolumns]
    refine .bind_same fun state _ => .bind_same fun columns _ => ?_
    rw [hread]
    refine .bind_same fun page _ => ?_
    obtain ⟨links, hlinks⟩ := p.exists_withLinks params ((path.map .text).getD .null) page
    obtain ⟨links', hlinks'⟩ := p.exists_withLinks params' ((path.map .text).getD .null) page
    rw [hlinks, hlinks']
    exact .ok ⟨links', by cases page <;> rfl⟩

namespace FiltersRows

variable (h : e.FiltersRows c f keyword)

include h

/-- **The order of filters does not matter**, nor do filters with empty values. -/
theorem get_rearranged (hapart : ∀ k ∈ e.unfilteredKeywords, k ≠ .text keyword)
    (hsteps : f.steps params = .ok steps) (hdecided : ∀ s ∈ steps, s.Decides c)
    (hget : e.get (.map params) = .ok (.plain all))
    {bucket extra : Entries} (hr : f.Rearranged keyword params params' bucket extra) :
    e.get (.map params') = .ok (.plain all) ∧
      Alike DifferInLinks (e.paginate (.map params)) (e.paginate (.map params')) ∧
      Alike DifferInLinks (e.simplePaginate (.map params)) (e.simplePaginate (.map params')) := by
  obtain ⟨d, d', hd, hd', halike⟩ := h.exists_rearranged hapart hsteps hdecided hget hr
  have hrows : (Source.collection d').get = (Source.collection d).get :=
    congrArg (Except.map Rows.plain) halike.get_eq
  have hcolumns : (Source.collection d').columnsValue = (Source.collection d).columnsValue := by
    obtain ⟨⟨ps, rfl⟩, -⟩ := halike
    rfl
  have hstate : ∀ p, e.thePagination = .ok p → p.state params' = p.state params := fun p hp =>
    Pagination.state_congr fun k hk =>
      hr.others k (hapart k (by simp [unfilteredKeywords, hp, hk]))
  refine ⟨?_, page_alike hd hd' hcolumns hstate fun p state columns => ?_,
    page_alike hd hd' hcolumns hstate fun p state columns => ?_⟩
  · show e.prepareWith params' >>= Source.get = _
    have hread : e.prepareWith params >>= Source.get = .ok (.plain all) := hget
    rw [hd, ok_bind] at hread
    rw [hd', ok_bind, hrows, hread]
  · simp only [Source.paginate_passAlike halike]
  · simp only [Source.paginate_passAlike halike]

/-- **The rows of a request are those that pass each of its filters alone**, in some order and with the
columns that are selected. -/
theorem get_filtered (hsteps : f.steps params = .ok steps) (hdecided : ∀ s ∈ steps, s.Decides c)
    (hget : e.get (.map params) = .ok (.plain all))
    (hspares : (e.selection params).Asks Capability.Spares) :
    ∃ columns listed, listed.Perm (c.rows.filter fun row => steps.all (FilterStep.keeps c row)) ∧
      { c with columns := columns }.project listed = .ok all ∧
      ((e.selection params).Asks (· ≠ .select) → columns = []) := by
  obtain ⟨selected, conditions, ordered, hselected, hconditions, hordered, hlisted⟩ :=
    h.exists_prepared hsteps hget
  have hrows : ordered.rows = c.rows :=
    (Collection.run_same hordered).1.trans (Collection.run_same hselected).1
  have hpredicates : selected.predicates = [] := by
    rw [Collection.run_predicates hspares hselected, ← h.fresh]
    rfl
  rw [hpredicates, List.nil_append] at hlisted
  obtain ⟨rows, hrows', hproject⟩ := bind_eq_ok_iff.1 hlisted
  obtain ⟨passing, hpassing, hrows'⟩ := bind_eq_ok_iff.1 hrows'
  have hfiltered := Collection.passing_eq (d := ordered.withPredicates conditions.flatten) hconditions
    hdecided hrows rfl
  obtain rfl := Except.ok.inj (hfiltered.symm.trans hpassing)
  refine ⟨ordered.columns, rows, Collection.ordered_perm hrows', hproject, fun hasks => ?_⟩
  rw [Collection.run_columns ((e.ordering_asks params).mono fun _ hc => hc ▸ nofun) hordered,
    Collection.run_columns hasks hselected, ← h.fresh]
  rfl

/-- **Fields narrow the rows of a request** to their attributes, each of them once and in the order
in which they are first asked for. -/
theorem get_narrowed {s : Selector} {fieldsKeyword : String} {requested : List (String × String)}
    (hget : e.get (.map params) = .ok (.plain all)) (hfields : e.ReadsFields s f fieldsKeyword)
    (hasks : (e.selection params).Asks (· ≠ .select))
    (hadds : AddsFields fieldsKeyword (.map params) (.map params') params params')
    (hplan : s.fieldPlan (.ok (.text e.source.selfName)) params' = .ok (columnPlan requested))
    (hne : requested ≠ []) :
    e.get (.map params') = .ok (.plain (all.map fun row =>
      .map ((requested.map Prod.snd).eraseDups.map fun name => (.text name, row.under name)))) := by
  have hread : e.prepareWith params >>= Source.get = .ok (.plain all) := hget
  obtain ⟨source, hprepared, hread⟩ := bind_eq_ok_iff.1 hread
  have hwhole : e.source.selectedColumns = .ok none := by
    rw [h.source, ← h.fresh]
    rfl
  have hscript : (e.script params).Asks (· ≠ .select) := by
    refine Script.All.sequence (Q := Call.Asks (· ≠ .select)) ?_
    rw [List.forall_mem_cons, List.forall_mem_cons, List.forall_mem_singleton]
    refine ⟨hasks, ?_, ?_⟩
    · rw [h.filters]
      exact FilterPipeline.script_makes (fun filter hfilter _ _ => (Filter.script_narrows
        (h.codeless filter hfilter) _).mono fun _ hc => hc.1) params
    · exact (e.ordering_asks params).mono fun _ hc => hc ▸ nofun
  have howns : ∀ r ∈ requested, e.source.Owns r.2 := fun r _ => by
    rw [h.source]
    trivial
  obtain ⟨hnone, -, -, hselecting⟩ := Source.run_selecting_first hwhole hscript hprepared howns
    (hfields.run_script hadds hplan hprepared)
  rw [prepareWith, h.source] at hprepared
  obtain ⟨d, -, rfl⟩ := map_eq_ok_iff.1 hprepared
  obtain ⟨rows, hrows, heq⟩ := map_eq_ok_iff.1 hread
  obtain rfl := Rows.plain.inj heq
  have hnames : (requested.map Prod.snd).eraseDups ≠ [] := by
    obtain ⟨r, hr⟩ := List.exists_mem_of_ne_nil _ hne
    exact List.ne_nil_of_mem (List.mem_eraseDups.2 (List.mem_map_of_mem hr))
  show e.prepareWith params' >>= Source.get = _
  rw [prepareWith, hselecting, ok_bind]
  show (d.selecting _).get.map Rows.plain = _
  rw [Collection.get_selecting (Source.nil_of_none (Except.ok.inj hnone)) hnames, hrows]
  exact congrArg (fun rows => Except.ok (Rows.plain rows))
    (List.map_congr_left fun row _ => Value.narrowed_eq (nodup_eraseDups _) row)

end FiltersRows

/-- **Filters are a conjunction, and fields only narrow rows.** If an endpoint over rows in memory lists
rows for a request, the filters of which fail for no row:

* where the filters are rearranged, with empty values for further filters, it lists the same rows, and its
  pages differ in their links only, if the keyword of filters means nothing else;
* these rows are those that pass each filter alone, if what is selected and included adds no condition;
* with a request for columns in addition it lists the same rows in the same order, each with these
  attributes, if the keyword of fields means nothing else and nothing is selected without it. -/
theorem filters_conjoin (h : e.FiltersRows c f keyword) (hsteps : f.steps params = .ok steps)
    (hdecided : ∀ s ∈ steps, s.Decides c) (hget : e.get (.map params) = .ok (.plain all)) :
    ((∀ k ∈ e.unfilteredKeywords, k ≠ .text keyword) →
      ∀ params' bucket extra, f.Rearranged keyword params params' bucket extra →
        e.get (.map params') = .ok (.plain all) ∧
          Alike DifferInLinks (e.paginate (.map params)) (e.paginate (.map params')) ∧
          Alike DifferInLinks (e.simplePaginate (.map params)) (e.simplePaginate (.map params'))) ∧
    ((e.selection params).Asks Capability.Spares →
      ∃ columns listed,
        listed.Perm (c.rows.filter fun row => steps.all (FilterStep.keeps c row)) ∧
        { c with columns := columns }.project listed = .ok all ∧
        ((e.selection params).Asks (· ≠ .select) → columns = [])) ∧
    ((e.selection params).Asks (· ≠ .select) →
      ∀ s fieldsKeyword params' requested, e.ReadsFields s f fieldsKeyword →
        AddsFields fieldsKeyword (.map params) (.map params') params params' →
        s.fieldPlan (.ok (.text e.source.selfName)) params' = .ok (columnPlan requested) →
        requested ≠ [] →
        e.get (.map params') = .ok (.plain (all.map fun row =>
          .map ((requested.map Prod.snd).eraseDups.map fun name => (.text name, row.under name))))) :=
  ⟨fun hapart _ _ _ hr => h.get_rearranged hapart hsteps hdecided hget hr,
    fun hspares => h.get_filtered hsteps hdecided hget hspares,
    fun hasks _ _ _ _ hfields hadds hplan hne => h.get_narrowed hget hfields hasks hadds hplan hne⟩

/-! ## Numbers and their squares -/

/-- A number and its square as a row. -/
def squareRow (n : Int) : Value := .map [(.text "n", .int n), (.text "square", .int (n * n))]

/-- Numbers and their squares as rows in memory. -/
def squares : Collection where
  rows := [3, 1, 4, 2, 3].map squareRow

/-- The fields of numbers. -/
def squareFields : Selector where
  fields := [("number", .column (.text "n")), ("square", .column (.text "square"))]

/-- The filters of numbers: by a least square, by numbers, and by what their digits hold. -/
def squareFilters : FilterPipeline where
  filters := [("least", .compare (.text "square") (.text ">=")), ("in", .member (.text "n")),
    ("digits", .search [.text "n", .text "square"])]

/-- An endpoint over numbers and their squares. -/
def ofSquares : Endpoint where
  source := .collection squares
  config := []
  selector := some squareFields
  filters := some squareFilters
  pagination := some {}

theorem ofSquares_filtersRows : ofSquares.FiltersRows squares squareFilters "filter" where
  source := rfl
  fresh := rfl
  filters := rfl
  codeless := by
    intro f hf
    simp only [squareFilters, List.mem_cons, List.not_mem_nil, or_false] at hf
    rcases hf with rfl | rfl | rfl <;> exact nofun
  named := rfl

theorem ofSquares_readsFields : ofSquares.ReadsFields squareFields squareFilters "fields" where
  selector := rfl
  filters := rfl
  named := rfl
  apart := by
    have hkeywords : ofSquares.scriptedKeywords squareFields squareFilters =
        ["include", "filter"].map .text := rfl
    rw [hkeywords]
    exact texts_ne (by decide)
  unfiltered := nofun

/-- Numbers among some with a square of at least four: filtered in another order, and narrowed to their
squares and themselves. -/
theorem filters_conjoin_squares :
    let least := (Value.text "least", Value.int 4)
    let among := (Value.text "in", Value.list [.int 1, .int 3, .int 2])
    let blank := (Value.text "digits", Value.text " ")
    let params : Entries := [(.text "filter", .map [least, among])]
    let params' : Entries := [(.text "filter", .map [among, blank, least])]
    let params'' : Entries := (.text "fields", .text "square,number,square") :: params
    let steps := squareFilters.stepsOf [least, among]
    let all := [3, 2, 3].map squareRow
    ofSquares.FiltersRows squares squareFilters "filter" ∧
      squareFilters.steps params = .ok steps ∧ (∀ s ∈ steps, s.Decides squares) ∧
      ofSquares.get (.map params) = .ok (.plain all) ∧
      ofSquares.get (.map params') = .ok (.plain all) ∧
      Alike DifferInLinks (ofSquares.paginate (.map params)) (ofSquares.paginate (.map params')) ∧
      all.Perm (squares.rows.filter fun row => steps.all (FilterStep.keeps squares row)) ∧
      ofSquares.get (.map params'') = .ok (.plain ([3, 2, 3].map fun n =>
        .map [(.text "square", .int (n * n)), (.text "n", .int n)])) := by
  intro least among blank params params' params'' steps all
  have hsteps : squareFilters.steps params = .ok steps := by with_unfolding_all rfl
  have hdecided : ∀ s ∈ steps, s.Decides squares := by
    have hall : (steps.all fun s => squares.rows.all fun row => (s.keeps? squares row).isOk) = true := by
      decide +kernel
    exact fun s hs row hrow => exists_of_isOk (List.all_eq_true.1 (List.all_eq_true.1 hall s hs) row hrow)
  have hget : ofSquares.get (.map params) = .ok (.plain all) := by with_unfolding_all rfl
  have hrearranged : squareFilters.Rearranged "filter" params params' [least, among] [blank] :=
    { before := .inl (by with_unfolding_all rfl)
      after := ⟨[among, blank] ++ [least], .inl (by with_unfolding_all rfl), List.perm_append_comm⟩
      empty := List.forall_mem_singleton.2 ⟨rfl, by with_unfolding_all rfl⟩
      others := fun _ hname => Entries.parameter_of_erase (by with_unfolding_all rfl) hname }
  have hapart : ∀ k ∈ ofSquares.unfilteredKeywords, k ≠ .text "filter" := by
    have hkeywords : ofSquares.unfilteredKeywords =
        ["fields", "include", "page", "cursor", "per-page"].map .text := rfl
    rw [hkeywords]
    exact texts_ne (by decide)
  have hcodeless : ∀ s, ofSquares.selector = some s →
      s.fields.All Field.RunsNothing ∧ s.inclusions.All Inclusion.RunsNothing := by
    rintro s ⟨⟩
    exact ⟨List.forall_mem_cons.2 ⟨rfl, List.forall_mem_singleton.2 rfl⟩, nofun⟩
  have hloads : (ofSquares.selection params).Asks (· ≠ .select) :=
    selection_loads (fun s hs => (hcodeless s hs).2) (by rintro s ⟨⟩; with_unfolding_all rfl)
  have hadds : AddsFields "fields" (.map params) (.map params'') params params'' :=
    ⟨rfl, rfl, rfl, by with_unfolding_all rfl, by with_unfolding_all rfl⟩
  have hplan : squareFields.fieldPlan (.ok (.text ofSquares.source.selfName)) params'' =
      .ok (columnPlan [("square", "square"), ("number", "n"), ("square", "square")]) := by
    with_unfolding_all rfl
  obtain ⟨hsame, hfiltered, hnarrowed⟩ :=
    filters_conjoin ofSquares_filtersRows hsteps hdecided hget
  obtain ⟨hget', hpaginate, -⟩ := hsame hapart params' _ _ hrearranged
  obtain ⟨columns, listed, hlisted, hproject, hwhole⟩ := hfiltered (selection_spares hcodeless params)
  obtain rfl := hwhole hloads
  obtain rfl := Except.ok.inj hproject
  refine ⟨ofSquares_filtersRows, hsteps, hdecided, hget, hget', hpaginate, hlisted, ?_⟩
  refine (hnarrowed hloads squareFields "fields" params'' _ ofSquares_readsFields hadds hplan
    (by decide)).trans ?_
  with_unfolding_all rfl

/-! ## An include that leaves rows out -/

/-- Two rows with numbers. -/
def twoRows : Collection where
  rows := [1, 2].map fun n => .map [(.text "id", .int n)]

/-- A filter by numbers. -/
def numberFilter : FilterPipeline where
  filters := [("id", .exact (.text "id"))]

/-- An endpoint over two rows with an include that keeps the first one only. -/
def ofFirst : Endpoint where
  source := .collection twoRows
  config := []
  selector := some {
    inclusions := [("first", .callback (.function
      [("where", [.fixed (.text "id"), .fixed (.text "="), .fixed (.int 1)])] false))] }
  filters := some numberFilter
  pagination := some {}

theorem ofFirst_filtersRows : ofFirst.FiltersRows twoRows numberFilter "filter" where
  source := rfl
  fresh := rfl
  filters := rfl
  codeless := List.forall_mem_singleton.2 nofun
  named := rfl

/-- The second row passes each filter of a request, but the include leaves it out. -/
theorem get_ne_filtered :
    let number := (Value.text "id", Value.int 2)
    let params : Entries := [(.text "filter", .map [number]), (.text "include", .text "first")]
    let steps := numberFilter.stepsOf [number]
    ofFirst.FiltersRows twoRows numberFilter "filter" ∧ numberFilter.steps params = .ok steps ∧
      (∀ s ∈ steps, s.Decides twoRows) ∧ ofFirst.get (.map params) = .ok (.plain []) ∧
      (twoRows.rows.filter fun row => steps.all (FilterStep.keeps twoRows row)) =
        [.map [(.text "id", .int 2)]] := by
  intro number params steps
  have hdecided : (steps.all fun s => twoRows.rows.all fun row => (s.keeps? twoRows row).isOk) = true := by
    decide +kernel
  refine ⟨ofFirst_filtersRows, by with_unfolding_all rfl, fun s hs row hrow => exists_of_isOk
    (List.all_eq_true.1 (List.all_eq_true.1 hdecided s hs) row hrow), by with_unfolding_all rfl, ?_⟩
  with_unfolding_all rfl

end Endpoint

end Listing
