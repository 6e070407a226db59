import Listing.Endpoint
import Listing.Proofs.Request.Paging
import Listing.Proofs.Source.Pages

/-!
# Endpoints whose links can be followed

An endpoint over a collection is `Linked` if its links carry the parameters of the request and its
keywords are words, no two of them the same. What the request selects, filters and orders by depends
on the parameters under its keywords only (`Endpoint.prepareWith_congr`), so a link, which changes
one paging parameter, lists the same rows: `Lists.relinked`. The page of a request is the page of the
collection that it leaves, with the parameters of the request in its links
(`Lists.cursorPaginate_eq`, `Lists.paginate_eq`).
-/

namespace Listing

open Params (IsWord IsRead)

/-! ## Keywords -/

namespace Selector

theorem inclusionPlan_congr {s : Selector} {params params' : Entries}
    (h : params'.parameter s.settings.includeKeyword = params.parameter s.settings.includeKeyword) :
    s.inclusionPlan params' = s.inclusionPlan params := by
  unfold inclusionPlan
  rw [h]

theorem script_congr {s : Selector} {params params' : Entries}
    (hf : params'.parameter s.settings.fieldsKeyword = params.parameter s.settings.fieldsKeyword)
    (hi : params'.parameter s.settings.includeKeyword = params.parameter s.settings.includeKeyword)
    (sourceName : Except Error Value) : s.script sourceName params' = s.script sourceName params := by
  have hfields : s.fieldPlan sourceName params' = s.fieldPlan sourceName params := by
    unfold fieldPlan
    dsimp only
    rw [hf]
  unfold script
  rw [hfields, inclusionPlan_congr hi]

end Selector

namespace FilterPipeline

theorem script_congr_of_steps {p : FilterPipeline} {params params' : Entries}
    (h : p.steps params' = p.steps params) (relations : Bool) :
    p.script relations params' = p.script relations params := by
  unfold script
  rw [h]

theorem script_congr {p : FilterPipeline} {s : String} (hs : p.settings.keyword = .text s)
    {params params' : Entries} (h : params'.parameter (.text s) = params.parameter (.text s))
    (relations : Bool) : p.script relations params' = p.script relations params := by
  refine script_congr_of_steps ?_ relations
  unfold steps
  rw [hs]
  dsimp only
  rw [h]

end FilterPipeline

namespace Sorter

theorem script_congr {s : Sorter} {params params' : Entries}
    (h : params'.parameter s.settings.keyword = params.parameter s.settings.keyword) :
    s.script params' = s.script params := by
  unfold script
  rw [h]

end Sorter

namespace Endpoint

/-- The keywords of what the request selects, orders and filters by. -/
def scriptKeywords (e : Endpoint) (f : FilterPipeline) : List Value :=
  (e.selector.map fun s => [s.settings.fieldsKeyword, s.settings.includeKeyword]).getD [] ++
    (e.sorter.map fun s => [s.settings.keyword]).getD [] ++ [f.settings.keyword]

/-- The keywords of what the request says on pages. -/
def pagingKeywords (p : Pagination) : List Value :=
  (match p.settings.keyword with
    | .null => []
    | keyword => [keyword]) ++
    [p.settings.pageKeyword, p.settings.cursorKeyword, p.settings.perPageKeyword]

theorem sorterScript_congr {e : Endpoint} {params params' : Entries}
    (h : ∀ s ∈ e.sorter, params'.parameter s.settings.keyword = params.parameter s.settings.keyword) :
    scriptIfMade e.sorter (fun s => s.script params') =
      scriptIfMade e.sorter (fun s => s.script params) := by
  unfold scriptIfMade
  cases he : e.sorter with
  | none => rfl
  | some sorter => exact Sorter.script_congr (h sorter he)

/-- **A request is prepared by the parameters under its keywords.** -/
theorem prepareWith_congr {e : Endpoint} {f : FilterPipeline} (hf : e.theFilters = .ok f)
    {s : String} (hs : f.settings.keyword = .text s) {params params' : Entries}
    (h : ∀ k ∈ e.scriptKeywords f, params'.parameter k = params.parameter k) :
    e.prepareWith params' = e.prepareWith params := by
  have hselector : scriptIfMade e.selector
      (fun s => s.script (.ok (.text e.source.selfName)) params') =
      scriptIfMade e.selector (fun s => s.script (.ok (.text e.source.selfName)) params) := by
    unfold scriptIfMade
    cases he : e.selector with
    | none => rfl
    | some sel =>
      exact Selector.script_congr (h _ (by simp [scriptKeywords, he]))
        (h _ (by simp [scriptKeywords, he])) _
  have hsorter := sorterScript_congr (e := e)
    fun sorter hsorter => h _ (by simp [scriptKeywords, Option.mem_def.1 hsorter])
  have hfilters : f.script e.source.supportsRelations params' =
      f.script e.source.supportsRelations params :=
    FilterPipeline.script_congr hs (hs ▸ h _ (by simp [scriptKeywords])) _
  unfold prepareWith script
  rw [hselector, hsorter, hf, scriptOf, scriptOf, hfilters]

/-- **The page of a request is read from the source that it prepares.** -/
theorem page_of_params {e : Endpoint} {p : Pagination} {request : Value} {params : Entries}
    (hpagination : e.thePagination = .ok p) (hparams : Params.ofRequest request = .ok (.map params))
    (read : PageReader) : e.page read request = (do
      let source ← e.prepareWith params
      let path ← Params.pathOf request
      let state ← p.state params
      let columns ← source.columnsValue
      let page ← read p state source columns
      p.finish params ((path.map .text).getD .null) page) := by
  unfold page
  rw [hparams, ok_bind, hpagination, ok_bind]
  simp only [pure_eq_ok, ok_bind]
  refine bind_congr fun source => bind_congr fun path => bind_congr fun state => ?_
  unfold Source.columnsValue
  cases source.selectedColumns <;> rfl

/-- A request whose parameters are no map has no page. -/
theorem page_of_refused {e : Endpoint} {p : Pagination} {request v : Value}
    (hpagination : e.thePagination = .ok p) (hparams : Params.ofRequest request = .ok v)
    (hv : ∀ params, v ≠ .map params) (read : PageReader) :
    e.page read request = .error (.specification (.unsupportedRequest v.typeName)) := by
  unfold page
  rw [hparams, ok_bind, hpagination, ok_bind]
  dsimp only
  split
  · exact absurd rfl (hv _)
  · rfl

/-- **Two endpoints answer the same page** if the sources that they prepare are read alike. -/
theorem page_congr {e e' : Endpoint} {read : PageReader} {request : Value}
    (hpagination : e'.thePagination = e.thePagination)
    (h : ∀ p params, e.thePagination = .ok p → Params.ofRequest request = .ok (.map params) →
      Alike (fun s s' => s'.columnsValue = s.columnsValue ∧
        ∀ state columns, p.state params = .ok state → s.columnsValue = .ok columns →
          read p state s' columns = read p state s columns)
        (e.prepareWith params) (e'.prepareWith params)) :
    e'.page read request = e.page read request := by
  cases hp : e.thePagination with
  | error fault =>
    rw [page, page, hpagination, hp]
    simp only [error_bind]
  | ok p =>
    rw [hp] at hpagination
    cases hparams : Params.ofRequest request with
    | error fault =>
      rw [page, page, hparams]
      simp only [error_bind]
    | ok v =>
      by_cases hv : ∃ params, v = .map params
      · obtain ⟨params, rfl⟩ := hv
        rw [page_of_params hpagination hparams, page_of_params hp hparams]
        refine (h p params hp hparams).bind_eq fun s s' _ hs => bind_congr fun path => ?_
        obtain ⟨hcolumns, hread⟩ := hs
        rw [hcolumns]
        cases hstate : p.state params with
        | error fault => simp only [error_bind]
        | ok state =>
          cases hvalue : s.columnsValue with
          | error fault => simp only [ok_bind, error_bind]
          | ok columns => simp only [ok_bind, hread state columns hstate hvalue]
      · rw [not_exists] at hv
        rw [page_of_refused hpagination hparams hv, page_of_refused hp hparams hv]

/-- Does an endpoint over a collection write links that can be followed? -/
structure Linked (e : Endpoint) (c : Collection) (f : FilterPipeline) (p : Pagination) : Prop where
  source : e.source = .collection c
  /-- The columns of the collection have been selected one by one. -/
  settled : c.Settled
  filters : e.theFilters = .ok f
  pagination : e.thePagination = .ok p
  appends : p.settings.appends.truthy = true
  words : ∀ k ∈ e.scriptKeywords f ++ pagingKeywords p, ∃ s, k = .text s ∧ IsWord s
  distinct : (e.scriptKeywords f ++ pagingKeywords p).Pairwise (· ≠ ·)

variable {e : Endpoint} {c₀ : Collection} {f : FilterPipeline} {p : Pagination}

theorem Linked.isNamed (h : e.Linked c₀ f p) : p.IsNamed := by
  have hwords : ∀ k ∈ pagingKeywords p, ∃ s, k = .text s ∧ IsWord s := fun k hk =>
    h.words k (List.mem_append_right _ hk)
  have hdistinct := (List.pairwise_append.1 h.distinct).2.1
  have hends := (List.pairwise_append.1 hdistinct).2.1
  simp only [List.pairwise_cons, List.mem_cons, List.not_mem_nil, or_false, forall_eq_or_imp,
    forall_eq] at hends
  refine ⟨?_, hwords _ ?_, hwords _ ?_, hwords _ ?_, hends.1.1, hends.1.2, hends.2.1⟩
  · cases hk : p.settings.keyword with
    | null => exact .inl rfl
    | _ =>
      obtain ⟨s, hs, hword⟩ := hwords p.settings.keyword (by simp [pagingKeywords, hk])
      exact .inr ⟨s, hk ▸ hs, hword⟩
  all_goals simp [pagingKeywords]

theorem rootKey_mem {name : Value} (hname : name ∈ pagingKeywords p) :
    p.rootKey name ∈ pagingKeywords p := by
  unfold Pagination.rootKey
  split
  · exact hname
  · simp [pagingKeywords]

/-- **A link prepares the same source** as the request whose parameters it carries. -/
theorem Linked.prepareWith_relinked (h : e.Linked c₀ f p) {name text : String}
    (hname : .text name ∈ pagingKeywords p) {params params' : Entries}
    (hr : p.Relinked params name text params') : e.prepareWith params' = e.prepareWith params := by
  obtain ⟨s, hs, -⟩ := h.words f.settings.keyword (by simp [scriptKeywords])
  refine prepareWith_congr h.filters hs fun k hk => ?_
  obtain ⟨t, rfl, -⟩ := h.words k (List.mem_append_left _ hk)
  have hne := (List.pairwise_append.1 h.distinct).2.2 _ hk _ (rootKey_mem hname)
  rw [Entries.parameter_text, Entries.parameter_text, hr.apart t hne]

/-! ## What a request lists -/

/-- The parameters of a query string, none if they are no map. -/
def queryParams (query : String) : Entries :=
  match Params.ofQuery query with
  | .ok (.map params) => params
  | _ => []

/-- Does an endpoint list the rows `all` for a query string, which says how it pages? -/
structure Lists (e : Endpoint) (p : Pagination) (query : String) (params : Entries) (c : Collection)
    (state : PagingState) (all : List Value) : Prop where
  query : Params.ofQuery query = .ok (.map params)
  source : e.prepareWith params = .ok (.collection c)
  settled : c.Settled
  state : p.state params = .ok state
  rows : ∃ rows, c.listing = .ok rows ∧ c.project rows = .ok all

variable {query : String} {params : Entries} {c : Collection} {state : PagingState}
  {all : List Value}

theorem Lists.queryParams_eq (h : Lists e p query params c state all) :
    queryParams query = params := by
  rw [queryParams, h.query]

theorem Lists.isRead (h : Lists e p query params c state all) : IsRead params :=
  Params.isRead_of_ofQuery h.query

/-- What is prepared from a collection is a collection with settled columns. -/
theorem Linked.exists_collection (h : e.Linked c₀ f p) {params : Entries} {source : Source}
    (hs : e.prepareWith params = .ok source) : ∃ c, source = .collection c ∧ c.Settled := by
  unfold prepareWith at hs
  rw [h.source] at hs
  obtain ⟨c, hc, rfl⟩ := map_eq_ok_iff.1 hs
  exact ⟨c, rfl, Script.run_preserves (fun _ _ _ _ => Collection.ask_settled) hc h.settled⟩

/-- What a linked endpoint lists are plain rows. -/
theorem Linked.exists_get (h : e.Linked c₀ f p) {request : Value} {rows : Rows}
    (hget : e.get request = .ok rows) : ∃ all, rows = .plain all := by
  obtain ⟨source, hsource, hget⟩ := bind_eq_ok_iff.1 hget
  obtain ⟨params, -, hsource⟩ := bind_eq_ok_iff.1 hsource
  obtain ⟨c, rfl, -⟩ := h.exists_collection hsource
  obtain ⟨all, -, rfl⟩ := map_eq_ok_iff.1 hget
  exact ⟨all, rfl⟩

/-- A request that lists rows and has a page says how it pages. -/
theorem Linked.exists_lists (h : e.Linked c₀ f p) (hget : e.get (.text query) = .ok (.plain all))
    {read : PageReader} {page : Page} (hpage : e.page read (.text query) = .ok page) :
    ∃ params c state, Lists e p query params c state all := by
  unfold Endpoint.page at hpage
  obtain ⟨params, hparams, hpage⟩ := bind_eq_ok_iff.1 hpage
  obtain ⟨p', hp', hpage⟩ := bind_eq_ok_iff.1 hpage
  obtain rfl : p = p' := Except.ok.inj (h.pagination.symm.trans hp')
  cases params with
  | map es =>
    dsimp only [pure_eq_ok, ok_bind] at hpage
    obtain ⟨source, hsource, hpage⟩ := bind_eq_ok_iff.1 hpage
    obtain ⟨path, -, hpage⟩ := bind_eq_ok_iff.1 hpage
    obtain ⟨state, hstate, -⟩ := bind_eq_ok_iff.1 hpage
    obtain ⟨c, rfl, hsettled⟩ := h.exists_collection hsource
    have hrows : c.get = .ok all := by
      have hprepare : e.prepare (.text query) = .ok (.collection c) := by
        unfold prepare parameters
        rw [hparams]
        exact hsource
      unfold get at hget
      rw [hprepare, ok_bind] at hget
      obtain ⟨vs, hvs, heq⟩ := map_eq_ok_iff.1 hget
      rw [hvs, Rows.plain.inj heq]
    obtain ⟨rows, hlisting, hproject⟩ := bind_eq_ok_iff.1 hrows
    exact ⟨es, c, state, hparams, hsource, hsettled, hstate, rows, hlisting, hproject⟩
  | _ => cases hpage

/-- **A link lists the same rows** as the request whose parameters it carries. -/
theorem Lists.relinked (h : Lists e p query params c state all) (hl : e.Linked c₀ f p)
    {name text query' : String} {params' : Entries} {state' : PagingState}
    (hname : .text name ∈ pagingKeywords p)
    (hquery : Params.ofQuery query' = .ok (.map params'))
    (hr : p.Relinked params name text params') (hstate : p.state params' = .ok state') :
    Lists e p query' params' c state' all :=
  ⟨hquery, (hl.prepareWith_relinked hname hr).trans h.source, h.settled, hstate, h.rows⟩

/-! ## Pages of requests -/

theorem appends_nil {l : Links} (hl : l.query = []) {params : Entries} (hr : IsRead params) :
    l.appends [.map params] = .ok { l with query := params } := by
  have hmerge : Settings.merge (.map l.query :: [.map params]) = .ok params := by
    show Settings.mergeLayer [] (.map l.query) >>= _ = _
    rw [hl]
    show Except.ok (Settings.mergedEntries [] params) = _
    rw [Params.mergedEntries_nil hr.canonical]
  unfold Links.appends
  rw [hmerge]
  rfl

/-- The page of a request is the page of the source that it leaves, with its parameters in the
links. -/
theorem Lists.page_eq (h : Lists e p query params c state all) (hl : e.Linked c₀ f p)
    {read : PageReader} (page : Page)
    (hread : read p state (.collection c) ((c.selectedColumns.map Value.list).getD .null) = .ok page)
    (hq : page.links.query = []) :
    e.page read (.text query) = .ok (page.withLinks { page.links with query := params }) := by
  have hquery : Params.ofRequest (.text query) = .ok (.map params) := h.query
  have hpath : Params.pathOf (.text query) = .ok none := rfl
  have hcolumns : (Source.collection c).selectedColumns = .ok c.selectedColumns := rfl
  unfold Endpoint.page
  simp only [hquery, hl.pagination, h.source, h.state, hpath, hcolumns, ok_bind, pure_eq_ok, hread]
  show p.finish params .null page = _
  unfold Pagination.finish
  rw [if_pos hl.appends, appends_nil hq h.isRead]
  rfl

/-- The number of rows on the pages of a request. -/
def pageSize (state : PagingState) : Except Error Int :=
  Source.integerOr defaultPerPage state.perPage

/-- **A request has pages of at least one row**, if that holds of the standard size. -/
theorem Lists.exists_pageSize (h : Lists e p query params c state all) (hl : e.Linked c₀ f p)
    {d : Int} (hd : p.settings.standard = .int d) (hpos : 1 ≤ d) :
    ∃ n : Nat, 0 < n ∧ pageSize state = .ok (n : Int) := by
  unfold pageSize
  rcases Pagination.state_cases hl.isNamed h.state with ⟨hstate, -⟩ | ⟨-, -, rfl⟩
  · obtain ⟨size, hsize, hstate⟩ := bind_eq_ok_iff.1 hstate
    obtain ⟨page, -, hstate⟩ := bind_eq_ok_iff.1 hstate
    obtain ⟨cursor, -, hstate⟩ := bind_eq_ok_iff.1 hstate
    obtain rfl := Except.ok.inj hstate
    rcases Pagination.perPage_cases hsize with rfl | ⟨n, raw, rfl, hraw, hint, -⟩
    · obtain ⟨m, rfl⟩ := Int.eq_ofNat_of_zero_le (show 0 ≤ d by omega)
      refine ⟨m, by omega, ?_⟩
      rw [hd]
      exact Source.integerOr_natCast _ (by omega)
    · obtain ⟨s, hs, -⟩ := hl.isNamed.perPage
      rw [hs, Entries.parameter_text] at hraw
      obtain rfl := Except.ok.inj hraw
      have hcanonical : (Entries.get? (p.bucket params) (.text s)).getD .null = .null ∨
          Params.Canonical ((Entries.get? (p.bucket params) (.text s)).getD .null) := by
        cases hget : Entries.get? (p.bucket params) (.text s) with
        | none => exact .inl rfl
        | some v => exact .inr (Pagination.canonical_bucket h.isRead hget)
      obtain ⟨m, rfl⟩ := Int.eq_ofNat_of_zero_le (Pagination.integer?_nonneg hcanonical hint)
      rcases Nat.eq_zero_or_pos m with rfl | hm
      · exact ⟨15, by decide, rfl⟩
      · exact ⟨m, hm, Source.integerOr_natCast _ hm⟩
  · exact ⟨15, by decide, rfl⟩

/-- **The page of a request without a cursor** lists the first rows. -/
theorem Lists.cursorPaginate_null (h : Lists e p query params c state all) (hl : e.Linked c₀ f p)
    {name : Value} (hname : p.cursorName = .ok name) {n : Nat} (hn : pageSize state = .ok (n : Int))
    (hc : state.cursor = .null) :
    e.cursorPaginate (.text query) = .ok (.cursor { Collection.pageAt all n 0 name .null with
      links := { name := name, query := params } }) := by
  obtain ⟨rows, hrows, hall⟩ := h.rows
  refine h.page_eq hl (.cursor (Collection.pageAt all n 0 name .null)) ?_ rfl
  have hsize : Source.integerOr defaultPerPage state.perPage = .ok (n : Int) := hn
  simp only [hname, ok_bind, Source.cursorPage, hsize, Collection.selectAll_own h.settled, hc,
    Collection.cursorPage_null hrows hall, pure_eq_ok]

/-- **The page of a request at a cursor** lists the rows from its position on. -/
theorem Lists.cursorPaginate_token (h : Lists e p query params c state all) (hl : e.Linked c₀ f p)
    {name : Value} (hname : p.cursorName = .ok name) {n : Nat} (hn : pageSize state = .ok (n : Int))
    {token : String} (hc : state.cursor = .text token) {i : Nat}
    (htoken : Cursor.decode (.text token) = .ok (Collection.cursorAt i true)) :
    e.cursorPaginate (.text query) =
      .ok (.cursor { Collection.pageAt all n i name (Collection.cursorAt i true).toValue with
        links := { name := name, query := params } }) := by
  obtain ⟨rows, hrows, hall⟩ := h.rows
  refine h.page_eq hl
    (.cursor (Collection.pageAt all n i name (Collection.cursorAt i true).toValue)) ?_ rfl
  have hsize : Source.integerOr defaultPerPage state.perPage = .ok (n : Int) := hn
  simp only [hname, ok_bind, Source.cursorPage, hsize, Collection.selectAll_own h.settled, hc,
    Collection.cursorPage_token hrows hall n name htoken, pure_eq_ok]

/-- **A numbered page** lists the rows of its place in the grid. -/
theorem Lists.paginate_eq (h : Lists e p query params c state all) (hl : e.Linked c₀ f p)
    (hlen : all.length < 2 ^ 53) {name : Value} (hname : p.pageName = .ok name) {n : Nat}
    (hn : 0 < n) (hsize : pageSize state = .ok (n : Int)) {k : Nat}
    (hk : Source.integerOr 1 ((state.page.map Value.int).getD .null) = .ok ((k + 1 : Nat) : Int)) :
    e.paginate (.text query) =
      .ok (.numbered (Collection.gridPage all n k { name := name, query := params })) := by
  obtain ⟨rows, hrows, hall⟩ := h.rows
  refine h.page_eq hl (.numbered (Collection.gridPage all n k { name := name })) ?_ rfl
  have hsize : Source.integerOr defaultPerPage state.perPage = .ok (n : Int) := hsize
  simp only [hname, ok_bind, Source.paginate, hsize, hk, Collection.selectAll_own h.settled,
    Collection.paginate_eq hrows hall hlen hn, pure_eq_ok]

/-! ## An endpoint over numbers -/

/-- Rows with the identifiers below a number. -/
def numbers (n : Nat) : List Value := (List.range n).map fun i => .map [(.text "id", .int i)]

/-- The endpoint over these rows that pages by the settings, and by the built-in ones otherwise. -/
def ofNumbers (n : Nat) (s : PagingSettings) : Endpoint where
  source := .collection { rows := numbers n }
  config := []
  filters := some {}
  pagination := some ⟨s⟩

theorem linked_ofNumbers (n : Nat) {s : PagingSettings} (happends : s.appends.truthy = true)
    (hwords : ∀ k ∈ .text "filter" :: pagingKeywords ⟨s⟩, ∃ w, k = .text w ∧ IsWord w)
    (hdistinct : (.text "filter" :: pagingKeywords ⟨s⟩).Pairwise (· ≠ ·)) :
    (ofNumbers n s).Linked { rows := numbers n } {} ⟨s⟩ where
  source := rfl
  settled := fun _ h => by cases h
  filters := rfl
  pagination := rfl
  appends := happends
  words := hwords
  distinct := hdistinct

theorem linked_builtin (n : Nat) : (ofNumbers n {}).Linked { rows := numbers n } {} {} := by
  refine linked_ofNumbers n rfl ?_ ?_
  · intro k hk
    simp only [pagingKeywords, List.mem_cons, List.nil_append, List.not_mem_nil, or_false] at hk
    rcases hk with rfl | rfl | rfl | rfl <;> exact ⟨_, rfl, by decide +kernel⟩
  · simp [pagingKeywords]

/-- Settings with a keyword for all parameters, and a standard size of ten rows. -/
def tens : PagingSettings := { keyword := .text "pagination", standard := .int 10 }

theorem linked_tens (n : Nat) : (ofNumbers n tens).Linked { rows := numbers n } {} ⟨tens⟩ := by
  refine linked_ofNumbers n rfl ?_ ?_
  · intro k hk
    simp only [pagingKeywords, tens, List.mem_cons, List.cons_append, List.nil_append,
      List.not_mem_nil, or_false] at hk
    rcases hk with rfl | rfl | rfl | rfl | rfl <;> exact ⟨_, rfl, by decide +kernel⟩
  · simp [pagingKeywords, tens]

end Endpoint

/-! ## Following links -/

/-- The link to the next page. -/
def Page.nextUrl : Page → Except Error (Option String)
  | .numbered p => p.nextUrl
  | .cursor p => p.url p.next

/-- Do the links from a page on lead to a last page, through pages with these rows? -/
inductive Follows (read : Value → Except Error Page) : Page → List (List Value) → Prop
  | last {page : Page} {rows : List Value} (items : page.items = .plain rows)
      (link : page.nextUrl = .ok none) : Follows read page [rows]
  | next {page page' : Page} {rows : List Value} {blocks : List (List Value)} {url : String}
      (items : page.items = .plain rows) (link : page.nextUrl = .ok (some url))
      (answer : read (.text (Links.queryPart url)) = .ok page') (rest : Follows read page' blocks) :
      Follows read page (rows :: blocks)

end Listing
