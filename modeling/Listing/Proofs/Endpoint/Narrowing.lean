import Listing.Proofs.Endpoint.Linked
import Listing.Proofs.Request.Selection
import Listing.Proofs.Source.Pages

/-!
# Requests for fields and navigation

Where the fields of an endpoint are columns of its source, a request for fields selects columns before
anything else of the request is applied, and the rest does not notice them
(`Source.run_selecting`). So the page between cursors of a request with fields is the page of the
request without, narrowed to the fields, with the same cursors. This holds for rows in memory and for
objects. Of the rows of a table it holds if the page has no cursor, or the columns that cursors are made
of are among the fields; if not, the page fails (`Endpoint.narrows_pages_iff`).
-/

namespace Listing

/-! ## Requests for fields -/

/-- Do the steps of a plan select the column of a name? -/
def Selects (steps : List FieldStep) (name : String) : Prop :=
  ∃ label, FieldStep.field label (Field.column (.text name)).toValue ∈ steps

theorem selects_columnPlan {requested : List (String × String)} {name : String} :
    Selects (columnPlan requested) name ↔ name ∈ requested.map Prod.snd := by
  unfold Selects columnPlan
  simp only [List.mem_map]
  constructor
  · rintro ⟨label, r, hr, heq⟩
    have hfield := congrArg Field.ofValue? (FieldStep.field.inj heq).2
    rw [Field.ofValue?_toValue, Field.ofValue?_toValue] at hfield
    exact ⟨r, hr, Value.text.inj (Field.column.inj (Option.some.inj hfield))⟩
  · rintro ⟨r, hr, rfl⟩
    exact ⟨r.1, r, hr, rfl⟩

/-- **A plan for columns selects them one after the other.** -/
theorem FieldStep.run_columnPlan {σ : Type} {k : Capabilities σ} {P : String → Prop}
    {pick : List String → σ} (hpick : ∀ names name, (∀ n ∈ names, P n) → P name →
      k.ask (pick names) .select [.value (.text name)] = .ok (pick (adding names name)))
    {requested : List (String × String)} (hrequested : ∀ r ∈ requested, P r.2) {names : List String}
    (hnames : ∀ n ∈ names, P n) : (scriptOf (columnPlan requested)).run k (pick names) =
      .ok (pick ((requested.map Prod.snd).foldl adding names)) := by
  induction requested generalizing names with
  | nil => rfl
  | cons r requested ih =>
    have hname := hrequested r (List.mem_cons_self ..)
    have hadding : ∀ n ∈ adding names r.2, P n := by
      intro n hn
      rcases mem_adding.1 hn with hn | rfl
      · exact hnames n hn
      · exact hname
    have hstep : (FieldStep.field r.1 (Field.column (.text r.2)).toValue).script.run k (pick names) =
        .ok (pick (adding names r.2)) := by
      have hcall : (Call.select (.text r.2)).run k (pick names) = .ok (pick (adding names r.2)) := by
        rw [Call.select, Call.run]
        simp only [argumentsGiven, Argument.given]
        exact (if_pos rfl).trans (hpick names r.2 hnames hname)
      show callsRun k (pick names) [.select (.text r.2)] >>= _ = _
      rw [callsRun, hcall, ok_bind, callsRun]
      rfl
    show ((FieldStep.field r.1 (Field.column (.text r.2)).toValue).script.andThen
      (scriptOf (columnPlan requested))).run k (pick names) = _
    rw [Script.run_andThen, hstep, ok_bind,
      ih (fun r hr => hrequested r (List.mem_cons_of_mem _ hr)) hadding]
    rfl

section

variable {t u : Script} {requested : List (String × String)}

/-- A plan for columns selects them in a collection, and the rest of a script does not notice. -/
theorem Collection.run_selecting {c c' : Collection} (hcolumns : c.columns = [])
    (ht : t.Asks (· ≠ .select)) (hrun : t.run capabilities c = .ok c')
    (hu : u.run capabilities c =
      (FieldStep.scriptOf (columnPlan requested)).run capabilities c >>= t.run capabilities) :
    c'.columns = [] ∧
      u.run capabilities c = .ok (c'.selecting ((requested.map Prod.snd).foldl adding [])) := by
  have hnotice : ∀ cs, t.run capabilities (c.withColumns cs) = .ok (c'.withColumns cs) := by
    intro cs
    rw [Script.run_map (k := capabilities) (f := withColumns cs)
      (fun _ _ given hc => ask_withColumns hc given) ht, hrun]
    rfl
  have hwhole : c'.columns = [] := by
    have hsame := hnotice []
    rw [show c.withColumns [] = c from selecting_nil hcolumns, hrun] at hsame
    rw [Except.ok.inj hsame]
    rfl
  have hselect := FieldStep.run_columnPlan (k := capabilities) (P := fun _ => True)
    (fun names name _ _ => c.select_selecting names name) (fun r (_ : r ∈ requested) => trivial)
    (List.forall_mem_nil _)
  rw [selecting_nil hcolumns] at hselect
  refine ⟨hwhole, ?_⟩
  rw [hu, hselect, ok_bind]
  exact hnotice _

/-- A plan for columns selects them in a query that owns them, and the rest of a script does not
notice. -/
theorem Query.run_selecting {q q' : Query} (hcolumns : q.columns = []) (ht : t.Asks (· ≠ .select))
    (hrun : t.run capabilities q = .ok q') (hrequested : ∀ r ∈ requested, q.Owns r.2)
    (hu : u.run capabilities q =
      (FieldStep.scriptOf (columnPlan requested)).run capabilities q >>= t.run capabilities) :
    u.run capabilities q = .ok (q'.selecting ((requested.map Prod.snd).foldl adding [])) := by
  have hselect := FieldStep.run_columnPlan (k := capabilities) (P := q.Owns)
    (fun names name hnames hname => select_selecting hnames hname) hrequested
    (List.forall_mem_nil _)
  rw [selecting_nil hcolumns] at hselect
  rw [hu, hselect, ok_bind]
  show t.run capabilities (q.withColumns _) = _
  rw [Script.run_map (k := capabilities) (f := withColumns _)
    (fun _ _ given hc => ask_withColumns hc given) ht, hrun]
  exact congrArg Except.ok ((frames_run ht hrun).selecting _).symm

end

namespace Source

variable {s source : Source}

/-- **What a plan for columns does to a source** is what is done without it, with these columns
selected, in the order in which they are first asked for. -/
theorem run_selecting_first (hwhole : s.selectedColumns = .ok none) {t : Script}
    (ht : t.Asks (· ≠ .select)) (hrun : s.run t = .ok source) {requested : List (String × String)}
    (hrequested : ∀ r ∈ requested, s.Owns r.2) {u : Script}
    (hu : ∀ {σ : Type} (k : Capabilities σ) (x : σ),
      u.run k x = (FieldStep.scriptOf (columnPlan requested)).run k x >>= t.run k) :
    source.selectedColumns = .ok none ∧ (s.Distinct → source.Distinct) ∧
      (∀ r ∈ requested, source.Owns r.2) ∧
      s.run u = .ok (source.selecting (requested.map Prod.snd).eraseDups) := by
  rw [← foldl_adding_nil]
  cases s with
  | bare => cases hwhole
  | collection c =>
    have hcolumns : c.columns = [] := nil_of_none (Except.ok.inj hwhole)
    obtain ⟨c', hc', rfl⟩ := map_eq_ok_iff.1 hrun
    obtain ⟨hnone, hselect⟩ := Collection.run_selecting hcolumns ht hc' (hu _ c)
    refine ⟨by rw [selectedColumns, Collection.selectedColumns, hnone]; rfl, fun _ => trivial,
      fun _ _ => trivial, ?_⟩
    exact congrArg (Except.map Source.collection) hselect
  | query q =>
    have hcolumns : q.columns = [] := nil_of_none (Except.ok.inj hwhole)
    obtain ⟨q', hq', rfl⟩ := map_eq_ok_iff.1 hrun
    have hframes := Query.frames_run ht hq'
    have hselect := Query.run_selecting hcolumns ht hq' hrequested (hu _ q)
    refine ⟨by rw [selectedColumns, Query.selectedColumns, hframes.columns, hcolumns]; rfl,
      hframes.distinct, fun r hr => hframes.owns (List.forall_mem_singleton.2 (hrequested r hr)) r.2
        (List.mem_singleton_self _), ?_⟩
    exact congrArg (Except.map Source.query) hselect

/-- **What a plan for columns does to a source** is what is done without it, with these columns
selected. -/
theorem run_selecting (hwhole : s.selectedColumns = .ok none) {t : Script}
    (ht : t.Asks (· ≠ .select)) (hrun : s.run t = .ok source) {steps : List FieldStep}
    (hsteps : AllSteps (IsColumnStep s.Owns) steps) {u : Script}
    (hu : ∀ {σ : Type} (k : Capabilities σ) (x : σ),
      u.run k x = (FieldStep.scriptOf steps).run k x >>= t.run k) :
    source.selectedColumns = .ok none ∧ (s.Distinct → source.Distinct) ∧
      ∃ names, (∀ n ∈ names, source.Owns n) ∧ names.Nodup ∧ (∀ n, n ∈ names ↔ Selects steps n) ∧
        s.run u = .ok (source.selecting names) := by
  obtain ⟨requested, rfl, hrequested⟩ := exists_columnPlan hsteps
  obtain ⟨hnone, hdistinct, howns, hselect⟩ := run_selecting_first hwhole ht hrun hrequested hu
  have hmem : ∀ n, n ∈ (requested.map Prod.snd).eraseDups ↔ Selects (columnPlan requested) n :=
    fun n => List.mem_eraseDups.trans selects_columnPlan.symm
  refine ⟨hnone, hdistinct, _, fun n hn => ?_, nodup_eraseDups _, hmem, hselect⟩
  obtain ⟨r, hr, rfl⟩ := List.mem_map.1 (List.mem_eraseDups.1 hn)
  exact howns r hr

end Source

/-! ## Parameters -/

namespace Entries

variable {params params' : Entries} {keyword : String} {k : Value}

/-- A parameter is found where another one has been taken out. -/
theorem get?_erase (h : k ≠ .text keyword) : get? (params.erase (.text keyword)) k = get? params k := by
  unfold get? erase
  rw [List.find?_filter]
  congr 2
  funext e
  by_cases hkeyword : e.1.equal (.text keyword) = true
  · have hne : e.1.equal k = false := by
      rw [Value.equal_text.1 hkeyword, Bool.eq_false_iff, Ne, Value.text_equal]
      exact h
    rw [hkeyword, hne]
    rfl
  · rw [Bool.not_eq_true] at hkeyword
    simp [hkeyword]

theorem parameter_of_erase (h : params'.erase (.text keyword) = params.erase (.text keyword))
    (hk : k ≠ .text keyword) : params'.parameter k = params.parameter k := by
  unfold parameter
  rw [← get?_erase hk, h, get?_erase hk]

end Entries

theorem FilterPipeline.stepsOf_erase {f : FilterPipeline} {keyword : String}
    (h : f.named? (.text keyword) = none) (params : Entries) :
    f.stepsOf (params.erase (.text keyword)) = f.stepsOf params := by
  unfold stepsOf Entries.erase
  rw [List.filterMap_filter]
  congr 1
  funext e
  split
  · rfl
  · next hkeyword =>
    rw [Bool.not_eq_true, Bool.not_eq_false'] at hkeyword
    rw [Value.equal_text.1 hkeyword, h]

namespace Pagination

/-- The keywords of the parameters that say how a request pages. -/
def keywords (p : Pagination) : List Value :=
  match p.settings.keyword with
  | .null => [p.settings.pageKeyword, p.settings.cursorKeyword, p.settings.perPageKeyword]
  | keyword => [keyword]

theorem state_congr {p : Pagination} {params params' : Entries}
    (h : ∀ k ∈ p.keywords, params'.parameter k = params.parameter k) :
    p.state params' = p.state params := by
  unfold state
  unfold keywords at h
  split
  · next hkeyword =>
    rw [hkeyword] at h
    unfold stateOf perPage page
    dsimp only at h ⊢
    rw [h p.settings.perPageKeyword (by simp), h p.settings.pageKeyword (by simp),
      h p.settings.cursorKeyword (by simp)]
  · next hkeyword =>
    rw [h p.settings.keyword]
    split
    · next hnull => exact absurd hnull hkeyword
    · exact List.mem_singleton_self _

/-- A page is finished with links, and otherwise as it is. -/
theorem exists_withLinks (p : Pagination) (params : Entries) (path : Value) (page : Page) :
    ∃ links, p.finish params path page = .ok (page.withLinks links) := by
  unfold finish
  split
  · exact ⟨_, rfl⟩
  · exact ⟨_, rfl⟩

end Pagination

/-! ## Endpoints -/

/-- A request without fields has a plan without steps. -/
theorem Selector.fieldPlan_of_none {s : Selector} {sourceName : Except Error Value} {params : Entries}
    (h : params.parameter s.settings.fieldsKeyword = .ok .null) :
    s.fieldPlan sourceName params = .ok [] := by
  unfold fieldPlan
  dsimp only
  rw [h]
  rfl

theorem Script.done_andThen (t : Script) : Script.done.andThen t = t := by
  cases t
  rfl

/-- A request with fields in addition does their steps before the rest, unless the rest is refused. -/
theorem Selector.script_adding {s : Selector} {sourceName : Except Error Value}
    {params params' : Entries} {steps : List FieldStep}
    (hnone : s.fieldPlan sourceName params = .ok [])
    (hplan : s.fieldPlan sourceName params' = .ok steps)
    (hinclusions : s.inclusionPlan params' = s.inclusionPlan params) :
    (∃ fault, s.script sourceName params = .fail fault) ∨
      s.script sourceName params' =
        (FieldStep.scriptOf steps).andThen (s.script sourceName params) := by
  unfold script
  rw [hnone, hplan, hinclusions]
  dsimp only
  cases s.inclusionPlan params with
  | error fault => exact .inl ⟨fault, rfl⟩
  | ok includes => exact .inr (congrArg (FieldStep.scriptOf steps).andThen (Script.done_andThen _).symm)

theorem Source.run_fail (s : Source) (fault : Error) : s.run (.fail fault) = .error fault := by
  cases s <;> rfl

/-- A script before others in a sequence runs before the sequence of the others. -/
theorem Script.run_sequence_andThen {σ : Type} (k : Capabilities σ) (s : σ) (t u : Script)
    (us : List Script) :
    (sequence (t.andThen u :: us)).run k s = t.run k s >>= (sequence (u :: us)).run k := by
  rw [run_sequence, List.foldlM_cons, run_andThen, bind_assoc]
  refine bind_congr fun s' => ?_
  rw [run_sequence, List.foldlM_cons]

namespace Endpoint

variable {e : Endpoint} {s : Selector} {f : FilterPipeline} {p : Pagination} {keyword : String}

theorem texts_apart {names : List String} (h : keyword ∉ names) :
    ∀ k ∈ names.map Value.text, ∃ name, k = .text name ∧ name ≠ keyword := by
  refine List.forall_mem_map.2 fun name hname => ⟨name, rfl, ?_⟩
  rintro rfl
  exact h hname

theorem texts_ne {names : List String} (h : keyword ∉ names) :
    ∀ k ∈ names.map Value.text, k ≠ .text keyword := by
  intro k hk
  obtain ⟨name, rfl, hname⟩ := texts_apart h k hk
  exact fun heq => hname (Value.text.inj heq)

/-- The keywords of what is included, ordered and filtered by. -/
def scriptedKeywords (e : Endpoint) (s : Selector) (f : FilterPipeline) : List Value :=
  s.settings.includeKeyword :: (e.sorter.map fun s => s.settings.keyword).toList ++
    (match f.settings.keyword with
      | .null => []
      | keyword => [keyword])

/-- Does an endpoint read fields under a keyword that means nothing else to what it prepares? -/
structure ReadsFields (e : Endpoint) (s : Selector) (f : FilterPipeline) (keyword : String) :
    Prop where
  selector : e.selector = some s
  filters : e.theFilters = .ok f
  named : s.settings.fieldsKeyword = .text keyword
  apart : ∀ k ∈ e.scriptedKeywords s f, k ≠ .text keyword
  unfiltered : f.settings.keyword = .null → f.named? (.text keyword) = none

/-- The keywords of everything but fields. -/
def otherKeywords (e : Endpoint) (s : Selector) (f : FilterPipeline) (p : Pagination) : List Value :=
  s.settings.includeKeyword :: (e.sorter.map fun s => s.settings.keyword).toList ++
    (match f.settings.keyword with
      | .null => []
      | keyword => [keyword]) ++ p.keywords

/-- Are the fields of an endpoint columns of its source, requested under a keyword that means nothing
else? -/
structure SelectsColumns (e : Endpoint) (s : Selector) (f : FilterPipeline) (p : Pagination)
    (keyword : String) : Prop where
  selector : e.selector = some s
  filters : e.theFilters = .ok f
  pagination : e.thePagination = .ok p
  named : s.settings.fieldsKeyword = .text keyword
  columns : s.fields.All fun field => ∃ name, field = .column (.text name) ∧ e.source.Owns name
  /-- Nothing is selected before a request. -/
  whole : e.source.selectedColumns = .ok none
  distinct : e.source.Distinct
  apart : ∀ k ∈ e.otherKeywords s f p, ∃ name, k = .text name ∧ name ≠ keyword
  unfiltered : f.settings.keyword = .null → f.named? (.text keyword) = none

/-- Is a request another one, which does not ask for fields, with a parameter for fields? -/
structure AddsFields (keyword : String) (request request' : Value) (params params' : Entries) :
    Prop where
  plain : Params.ofRequest request = .ok (.map params)
  asking : Params.ofRequest request' = .ok (.map params')
  path : Params.pathOf request' = Params.pathOf request
  without : params.parameter (.text keyword) = .ok .null
  others : params'.erase (.text keyword) = params.erase (.text keyword)

variable {request request' : Value} {params params' : Entries} {steps : List FieldStep}
  {source : Source}

theorem SelectsColumns.ne_keyword (h : e.SelectsColumns s f p keyword) {k : Value}
    (hk : k ∈ e.otherKeywords s f p) : k ≠ .text keyword := by
  obtain ⟨name, rfl, hname⟩ := h.apart k hk
  exact fun heq => hname (Value.text.inj heq)

theorem SelectsColumns.parameter_eq (h : e.SelectsColumns s f p keyword)
    (hr : AddsFields keyword request request' params params') {k : Value}
    (hk : k ∈ e.otherKeywords s f p) : params'.parameter k = params.parameter k :=
  Entries.parameter_of_erase hr.others (h.ne_keyword hk)

theorem ReadsFields.parameter_eq (h : e.ReadsFields s f keyword)
    (hr : AddsFields keyword request request' params params') {k : Value}
    (hk : k ∈ e.scriptedKeywords s f) : params'.parameter k = params.parameter k :=
  Entries.parameter_of_erase hr.others (h.apart k hk)

theorem ReadsFields.steps_eq (h : e.ReadsFields s f keyword)
    (hr : AddsFields keyword request request' params params') : f.steps params' = f.steps params := by
  unfold FilterPipeline.steps
  split
  · next hnull =>
    rw [← FilterPipeline.stepsOf_erase (h.unfiltered hnull) params', hr.others,
      FilterPipeline.stepsOf_erase (h.unfiltered hnull) params]
  · next hnull =>
    rw [h.parameter_eq hr]
    unfold scriptedKeywords
    split
    · next heq => exact absurd heq hnull
    · simp

/-- **A request with fields selects them first**, and then does what it does without. -/
theorem ReadsFields.run_script (h : e.ReadsFields s f keyword)
    (hr : AddsFields keyword request request' params params')
    (hplan : s.fieldPlan (.ok (.text e.source.selfName)) params' = .ok steps)
    (hprepare : e.prepareWith params = .ok source) {σ : Type} (k : Capabilities σ) (x : σ) :
    (e.script params').run k x =
      (FieldStep.scriptOf steps).run k x >>= (e.script params).run k := by
  have hnone : s.fieldPlan (.ok (.text e.source.selfName)) params = .ok [] :=
    Selector.fieldPlan_of_none (h.named ▸ hr.without)
  have hinclusions : s.inclusionPlan params' = s.inclusionPlan params :=
    Selector.inclusionPlan_congr (h.parameter_eq hr (by simp [scriptedKeywords]))
  have hfilters : f.script e.source.supportsRelations params' =
      f.script e.source.supportsRelations params :=
    FilterPipeline.script_congr_of_steps (h.steps_eq hr) _
  have hsorter := sorterScript_congr (e := e)
    fun sorter hsorter => h.parameter_eq hr (by simp [scriptedKeywords, Option.mem_def.1 hsorter])
  obtain ⟨fault, hbase⟩ | hfull := Selector.script_adding hnone hplan hinclusions
  · have hscript : e.script params = .fail fault := by
      unfold script
      rw [h.selector]
      simp only [scriptIfMade, Option.map_some, Option.getD_some, hbase]
      rfl
    rw [prepareWith, hscript, Source.run_fail] at hprepare
    cases hprepare
  · unfold script
    rw [h.selector, h.filters, hsorter]
    simp only [scriptIfMade, scriptOf, Option.map_some, Option.getD_some, hfilters, hfull]
    exact Script.run_sequence_andThen ..

theorem SelectsColumns.readsFields (h : e.SelectsColumns s f p keyword) :
    e.ReadsFields s f keyword where
  selector := h.selector
  filters := h.filters
  named := h.named
  apart := fun _ hk => h.ne_keyword (List.mem_append_left _ hk)
  unfiltered := h.unfiltered

theorem SelectsColumns.run_script (h : e.SelectsColumns s f p keyword)
    (hr : AddsFields keyword request request' params params')
    (hplan : s.fieldPlan (.ok (.text e.source.selfName)) params' = .ok steps)
    (hprepare : e.prepareWith params = .ok source) {σ : Type} (k : Capabilities σ) (x : σ) :
    (e.script params').run k x =
      (FieldStep.scriptOf steps).run k x >>= (e.script params).run k :=
  h.readsFields.run_script hr hplan hprepare k x

theorem cursorPaginate_eq (hpagination : e.thePagination = .ok p)
    (hparams : Params.ofRequest request = .ok (.map params)) :
    e.cursorPaginate request = (do
      let source ← e.prepareWith params
      let path ← Params.pathOf request
      let state ← p.state params
      let columns ← source.columnsValue
      let name ← p.cursorName
      let page ← source.cursorPage state.perPage columns name state.cursor
      p.finish params ((path.map .text).getD .null) (.cursor page)) := by
  rw [cursorPaginate, page_of_params hpagination hparams]
  simp only [bind_assoc, pure_eq_ok, ok_bind]

/-- The page that is answered has the links of the request. -/
theorem exists_finish (p : Pagination) (params : Entries) (path : Value) (page : CursorPage) :
    ∃ links, p.finish params path (.cursor page) = .ok (.cursor { page with links := links }) :=
  p.exists_withLinks params path (.cursor page)

/-- **Selecting fields changes navigation only where it leaves out what cursors are made of.** If
a request has a page, and a request with fields of the source in addition has a plan for these, it has
a page of the same rows, narrowed to the fields, with the same cursors, exactly if these fields leave the
columns of cursors in the rows or the page has no cursor. If not it fails: in the rows of a table these
columns are not found. -/
theorem narrows_pages_iff (h : e.SelectsColumns s f p keyword)
    (hr : AddsFields keyword request request' params params')
    (hasks : (e.script params).Asks (· ≠ .select))
    (hplan : s.fieldPlan (.ok (.text e.source.selfName)) params' = .ok steps) {page : CursorPage}
    (hpage : e.cursorPaginate request = .ok (.cursor page)) :
    ∃ source names, e.prepareWith params = .ok source ∧ names.Nodup ∧
      (∀ name, name ∈ names ↔ Selects steps name) ∧
      ((∃ page', e.cursorPaginate request' = .ok (.cursor page') ∧
          page.items.NarrowedTo names (source.hides names) page'.items ∧
          page'.next = page.next ∧ page'.previous = page.previous) ↔
        source.KeepsPlaces names ∨ page.next = .null ∧ page.previous = .null) ∧
      (¬ (source.KeepsPlaces names ∨ page.next = .null ∧ page.previous = .null) →
        e.cursorPaginate request' = .error .noKey) := by
  rw [cursorPaginate_eq h.pagination hr.plain] at hpage
  obtain ⟨source, hsource, hpage⟩ := bind_eq_ok_iff.1 hpage
  obtain ⟨path, hpath, hpage⟩ := bind_eq_ok_iff.1 hpage
  obtain ⟨state, hstate, hpage⟩ := bind_eq_ok_iff.1 hpage
  obtain ⟨columns, hcolumns, hpage⟩ := bind_eq_ok_iff.1 hpage
  obtain ⟨name, hname, hpage⟩ := bind_eq_ok_iff.1 hpage
  obtain ⟨inner, hinner, hpage⟩ := bind_eq_ok_iff.1 hpage
  obtain ⟨links, hfinish⟩ := exists_finish p params ((path.map .text).getD .null) inner
  obtain rfl := Page.cursor.inj (Except.ok.inj (hfinish.symm.trans hpage))
  -- The source of the request with fields is that of the request without, with columns selected.
  have hsteps : AllSteps (IsColumnStep e.source.Owns) steps := by
    have hplanned := Selector.fieldPlan_planned columnStep_keeps h.columns h.named
      e.source.selfName params'
    rw [hplan] at hplanned
    cases hplanned with
    | plan _ hsteps => exact hsteps
  obtain ⟨hwhole, hdistinct, names, hnames, hnodup, hmem, hprepared⟩ := Source.run_selecting h.whole
    hasks hsource hsteps (h.run_script hr hplan hsource)
  obtain ⟨columns', hcolumns', -⟩ := Source.columnsValue_selecting (by
    rintro rfl
    cases hwhole) hnames
  have hnull : columns = .null := by
    unfold Source.columnsValue at hcolumns
    rw [hwhole] at hcolumns
    exact (Except.ok.inj hcolumns).symm
  obtain ⟨hkept, hlost⟩ := Source.cursorPage_selecting hwhole (hdistinct h.distinct) hnames hcolumns'
    (hnull ▸ hinner)
  have hrequest : e.cursorPaginate request' = (do
      let page ← (source.selecting names).cursorPage state.perPage columns' name state.cursor
      p.finish params' ((path.map .text).getD .null) (.cursor page)) := by
    have hstate' : p.state params' = .ok state := by
      rw [Pagination.state_congr fun k hk => h.parameter_eq hr (by simp [otherKeywords, hk]), hstate]
    have hprepared' : e.prepareWith params' = .ok (source.selecting names) := hprepared
    rw [cursorPaginate_eq h.pagination hr.asking, hprepared', ok_bind, hr.path, hpath, ok_bind,
      hstate', ok_bind, hcolumns', ok_bind, hname, ok_bind]
  have hrefused (hlost' : ¬ (source.KeepsPlaces names ∨ inner.next = .null ∧ inner.previous = .null)) :
      e.cursorPaginate request' = .error .noKey := by
    rw [hrequest, hlost hlost']
    rfl
  refine ⟨source, names, hsource, hnodup, hmem, ⟨fun ⟨page', hpage', _⟩ => ?_, fun hk => ?_⟩, hrefused⟩
  · by_contra hlost'
    cases (hrefused hlost').symm.trans hpage'
  · obtain ⟨page', hpage', hsame⟩ := hkept hk
    obtain ⟨links', hfinish'⟩ := exists_finish p params' ((path.map .text).getD .null) page'
    refine ⟨{ page' with links := links' }, ?_, hsame⟩
    rw [hrequest, hpage', ok_bind, hfinish']

/-- The columns of the lines of orders as fields. -/
def lineFields : Selector where
  fields := ["item_id", "position", "qty", "note"].map fun name => (name, .column (.text name))

/-- An endpoint over the table of the lines of orders, from which columns can be selected. -/
def ofLines : Endpoint where
  source := .query (Shop.all Shop.orderLines)
  config := []
  selector := some lineFields
  filters := some {}
  pagination := some {}

theorem ofLines_selectsColumns : ofLines.SelectsColumns lineFields {} {} "fields" where
  selector := rfl
  filters := rfl
  pagination := rfl
  named := rfl
  columns := by
    have howns : ∀ name ∈ ["item_id", "position", "qty", "note"],
        Query.Owns (Shop.all Shop.orderLines) name := by
      have hfind : ∀ name ∈ ["item_id", "position", "qty", "note"],
          ∃ c ∈ Shop.orderLineColumns, Shop.orderLines.column? name = some c := by decide +kernel
      exact fun name hname => (hfind name hname).imp fun c hc => ⟨hc.1, hc.2, nofun⟩
    refine List.forall_mem_map.2 fun name hname => ⟨name, rfl, howns name hname⟩
  whole := rfl
  distinct := nofun
  apart := by
    have hkeywords : ofLines.otherKeywords lineFields {} {} =
        ["include", "filter", "page", "cursor", "per-page"].map .text := rfl
    rw [hkeywords]
    exact texts_apart (by decide)
  unfiltered := nofun

/-- There are more than two lines. -/
theorem ofLines_cursorPaginate : ∃ page, ofLines.cursorPaginate (.map [(.text "per-page", .text "2")]) =
    .ok (.cursor page) ∧ page.next ≠ .null := by
  have hlisted : (Shop.all Shop.orderLines).IsListed Shop.orderLineRows :=
    (Shop.isListed_linesBy nofun : (Shop.linesBy []).IsListed Shop.orderLineRows)
  have htakes : (Shop.all Shop.orderLines).TakesPages 2 :=
    ⟨by decide +kernel, by decide +kernel, nofun⟩
  obtain ⟨answer, hget⟩ : ∃ answer, (Shop.all Shop.orderLines).get = .ok answer :=
    exists_of_isOk (by decide +kernel)
  obtain ⟨hpages, -⟩ := hlisted.pages (show 0 < 2 by decide) htakes hget
  obtain ⟨page, hpage, hshows⟩ := hpages.exists_first (.inr (by decide +kernel)) (.text "cursor")
  obtain ⟨links, hfinish⟩ := exists_finish {} [(.text "per-page", .text "2")] .null page
  refine ⟨{ page with links := links }, ?_, ?_⟩
  · have hprepared : ofLines.prepareWith [(.text "per-page", .text "2")] =
        .ok (.query (Shop.all Shop.orderLines)) := by with_unfolding_all rfl
    have hstate : Pagination.state {} [(.text "per-page", .text "2")] = .ok ⟨.int 2, none, .null⟩ := by
      with_unfolding_all rfl
    rw [cursorPaginate_eq rfl rfl, hprepared, ok_bind]
    show Pagination.state {} [(.text "per-page", .text "2")] >>= _ = _
    rw [hstate, ok_bind]
    show (Shop.all Shop.orderLines).cursorPage 2 (.text "cursor") .null >>= _ = _
    rw [show (2 : Int) = (2 : Nat) from rfl, hpage, ok_bind]
    exact hfinish
  · have hlength : (Query.Pages.listed (Shop.all Shop.orderLines) Shop.orderLineRows).length = 7 :=
      (TableRow.sortBy_perm ..).length_eq
    show page.next ≠ .null
    rw [hshows.next, Ne, Query.ofCursor?_eq_null_iff]
    unfold CursorPage.forwardCut
    rw [if_pos (by omega), Option.map_eq_none_iff, List.getLast?_eq_none_iff, ← List.length_eq_zero_iff,
      List.length_take]
    omega

/-- A page of lines with a next page has no counterpart without the key of the lines. -/
theorem narrows_pages_iff_lines :
    let params : Entries := [(.text "per-page", .text "2")]
    let params' : Entries := [(.text "fields", .text "note"), (.text "per-page", .text "2")]
    ∃ page, ofLines.SelectsColumns lineFields {} {} "fields" ∧
      AddsFields "fields" (.map params) (.map params') params params' ∧
      (ofLines.script params).Asks (· ≠ .select) ∧
      lineFields.fieldPlan (.ok (.text ofLines.source.selfName)) params' =
        .ok [.field "note" (Field.column (.text "note")).toValue] ∧
      ofLines.cursorPaginate (.map params) = .ok (.cursor page) ∧
      ofLines.cursorPaginate (.map params') = .error .noKey := by
  intro params params'
  have hadds : AddsFields "fields" (.map params) (.map params') params params' :=
    ⟨rfl, rfl, rfl, by with_unfolding_all rfl, by with_unfolding_all rfl⟩
  have hasks : (ofLines.script params).Asks (· ≠ .select) := by
    rw [show ofLines.script params = .done by with_unfolding_all rfl]
    exact nofun
  have hplan : lineFields.fieldPlan (.ok (.text ofLines.source.selfName)) params' =
      .ok [.field "note" (Field.column (.text "note")).toValue] := by with_unfolding_all rfl
  obtain ⟨page, hpage, hnext⟩ := ofLines_cursorPaginate
  obtain ⟨source, names, hsource, -, hnames, -, hrefused⟩ :=
    narrows_pages_iff ofLines_selectsColumns hadds hasks hplan hpage
  refine ⟨page, ofLines_selectsColumns, hadds, hasks, hplan, hpage, hrefused ?_⟩
  have hprepared : ofLines.prepareWith params = .ok (.query (Shop.all Shop.orderLines)) := by
    with_unfolding_all rfl
  obtain rfl := Except.ok.inj (hprepared.symm.trans hsource)
  rintro ((hmapped | rfl | hkept) | hbare)
  · cases hmapped
  · have hnone := (hnames "note").2 ⟨"note", List.mem_cons_self ..⟩
    cases hnone
  · obtain ⟨name, hname, heq⟩ := hkept (.text "item_id") (List.mem_cons_self ..)
    obtain rfl := Value.text.inj heq
    obtain ⟨label, hmem⟩ := (hnames _).1 hname
    have hfield := congrArg Field.ofValue? (FieldStep.field.inj (List.mem_singleton.1 hmem)).2
    rw [Field.ofValue?_toValue, Field.ofValue?_toValue] at hfield
    exact absurd (Value.text.inj (Field.column.inj (Option.some.inj hfield))) (by decide)
  · exact hnext hbare.1

end Endpoint

end Listing
