import Listing.Proofs.Endpoint.Linked
import Listing.Proofs.Request.Columns
import Listing.Sample.Shop

/-!
# Tables and their rows in memory

An endpoint over a table of integers and texts may as well answer from the rows of the table in memory
(`Endpoint.inMemory`). What it offers has to be made of the columns of the table, and a request has to
be one that the columns can read, for pages that are not too big. Its script is made of calls on columns,
which a query and a collection take alike, so that they answer the same rows and the same pages, or fail
with the same fault: `Endpoint.inMemory_eq`.
-/

namespace Listing

/-! ## Sources -/

namespace Query.Mirrored

variable {db : Database} {t : Entity} {q : Query} {c : Collection}

/-- The same columns are selected, and selecting them again changes nothing. -/
theorem exists_columns (h : Mirrored db t q c) (ht : t.IsTable (db.content.rowsOf t.table)) :
    ∃ columns, (Source.query q).columnsValue = .ok columns ∧
      (Source.collection c).columnsValue = .ok columns ∧
      q.selectAll columns = .ok q ∧ c.selectAll columns = .ok c := by
  obtain ⟨names, hnames, hc, hq⟩ := h.selecting_eq
  have howns : ∀ name ∈ names, q.Owns name := fun name hname => h.owns ht (hnames name hname)
  obtain ⟨columns, hcolumns, htexts⟩ := Source.columnsValue_selecting (s := .query q) nofun howns
  obtain ⟨columns', hcolumns', htexts'⟩ :=
    Source.columnsValue_selecting (s := .collection c) nofun (fun _ _ => trivial)
  have hsame : columns' = columns := by
    rcases htexts with ⟨hnil, rfl⟩ | ⟨hne, rfl⟩ <;> rcases htexts' with ⟨hnil', rfl⟩ | ⟨hne', rfl⟩
    · rfl
    · exact absurd hnil hne'
    · exact absurd hnil' hne
    · rfl
  rw [show (Source.query q).selecting names = .query (q.selecting names) from rfl, hq] at hcolumns
  rw [show (Source.collection c).selecting names = .collection (c.selecting names) from rfl, hc,
    hsame] at hcolumns'
  refine ⟨columns, hcolumns, hcolumns', ?_, ?_⟩
  · refine Source.selectAll_texts (fun name hname => ?_) htexts
    rw [← hq, select_selecting howns (howns name hname), adding_of_mem hname]
  · refine Source.selectAll_texts (fun name hname => ?_) htexts
    rw [← hc, Collection.select_selecting, adding_of_mem hname]

end Query.Mirrored

/-- The parameters of the criteria that a source looks rows up by. -/
def Source.parameters : Source → List Parameter
  | .query q => q.criterion.parameters
  | _ => []

namespace Endpoint

variable {e : Endpoint} {db : Database} {t : Entity} {query : String}

/-! ## Endpoints over tables -/

/-- The endpoint that answers from the rows of a table in memory. -/
def inMemory (e : Endpoint) (db : Database) (t : Entity) : Endpoint :=
  { e with source := .collection { rows := (db.content.rowsOf t.table).map t.asMap } }

/-- Does an endpoint answer from a table, with fields, filters and sort attributes that are made of
its columns? -/
structure IsOver (e : Endpoint) (db : Database) (t : Entity) : Prop where
  source : e.source = .query (.of db t)
  selector : ∀ s, e.selector = some s → s.IsOn t.columns
  filters : ∀ f, e.theFilters = .ok f →
    f.filters.All fun filter => ∃ c ∈ t.columns, filter.Compares (.text c.name)
  orders : ∀ s, e.sorter = some s → ∀ k ∈ s.attributes, ∀ column direction,
    k.2.Lists column direction → ∃ c ∈ t.columns, column = .text c.name
  /-- The standard page size is no bigger than one that a request may say. -/
  standard : ∀ p, e.thePagination = .ok p → ∀ n,
    Source.integerOr defaultPerPage p.settings.standard = .ok n → 0 ≤ n ∧ n < 1000000000

/-- Can the columns of a table read what a query string says, does it say short numbers of pages, and
does the database take as many parameters? -/
structure Takes (e : Endpoint) (t : Entity) (query : String) : Prop where
  values : ∀ f, e.theFilters = .ok f → f.IsReadable t.columns (queryParams query)
  pages : ∀ p, e.thePagination = .ok p → p.IsShort (queryParams query)
  parameters : ∀ s, e.prepare (.text query) = .ok s →
    s.parameters.length + 2 ≤ Parameter.countLimit

variable {params : Entries}

theorem queryParams_of_ofQuery (h : Params.ofQuery query = .ok (.map params)) :
    queryParams query = params := by
  rw [queryParams, h]

theorem ofQuery_of_parameters (h : parameters (.text query) = .ok params) :
    Params.ofQuery query = .ok (.map params) := by
  obtain ⟨v, hv, h⟩ := bind_eq_ok_iff.1 h
  cases v with
  | map es => rw [← Except.ok.inj h, ← hv, Params.ofRequest]
  | _ => cases h

/-- A request asks the rows in memory for the same as the table. -/
theorem IsOver.script_eq (h : e.IsOver db t) (ht : t.IsTable (db.content.rowsOf t.table)) :
    (e.inMemory db t).script params = e.script params := by
  have hselector : scriptIfMade e.selector (fun s => s.script (.ok (.text "self")) params) =
      scriptIfMade e.selector (fun s => s.script (.ok (.text e.source.selfName)) params) := by
    cases hs : e.selector with
    | none => rfl
    | some s => exact Selector.script_eq (h.selector s hs) _ _ params
  have hrelations : e.source.supportsRelations = false := by
    rw [h.source]
    exact ht.bare
  unfold script
  rw [hrelations, ← hselector]
  rfl

/-- **A request asks for nothing but calls on columns.** -/
theorem IsOver.isOn_script (h : e.IsOver db t) (ht : t.IsTable (db.content.rowsOf t.table))
    (hquery : e.Takes t query) (hparams : Params.ofQuery query = .ok (.map params)) :
    (e.script params).IsOn t.columns := by
  have hread := Params.isRead_of_ofQuery hparams
  have hselector : (scriptIfMade e.selector
      fun s => s.script (.ok (.text e.source.selfName)) params).IsOn t.columns := by
    cases hs : e.selector with
    | none => exact .done
    | some s => exact Selector.isOn_script (h.selector s hs) _ params
  have hfilters : (scriptOf e.theFilters
      fun f => f.script e.source.supportsRelations params).IsOn t.columns := by
    have hvalues := hquery.values
    rw [queryParams_of_ofQuery hparams] at hvalues
    rw [h.source, show (Source.query (.of db t)).supportsRelations = false from ht.bare]
    cases hf : e.theFilters with
    | error fault => exact .fail fault
    | ok f => exact FilterPipeline.isOn_script (h.filters f hf) hread.canonical (hvalues f hf)
  have hsorter : (scriptIfMade e.sorter fun s => s.script params).IsOn t.columns := by
    cases hs : e.sorter with
    | none => exact .done
    | some s => exact Sorter.isOn_script (h.orders s hs) params
  exact .sequence (by simpa using ⟨hselector, hfilters, hsorter⟩)

/-- **What a request prepares from the rows in memory mirrors what it prepares from the table**, or
both fail with one fault. -/
theorem IsOver.prepareWith_alike (h : e.IsOver db t) (ht : t.IsTable (db.content.rowsOf t.table))
    (hquery : e.Takes t query) (hparams : Params.ofQuery query = .ok (.map params)) :
    Alike (fun s s' => ∃ q c, s = .query q ∧ s' = .collection c ∧ Query.Mirrored db t q c)
      (e.prepareWith params) ((e.inMemory db t).prepareWith params) := by
  have hrun := (Query.Mirrored.of_table db t).run_script ht (h.isOn_script ht hquery hparams)
  unfold prepareWith
  rw [h.script_eq ht, h.source]
  show Alike _ (Except.map Source.query _) (Except.map Source.collection _)
  revert hrun
  generalize (e.script params).run Query.capabilities _ = x
  generalize (e.script params).run Collection.capabilities _ = y
  rintro (hmirrored | fault)
  · exact .ok ⟨_, _, rfl, rfl, hmirrored⟩
  · exact .error fault

/-! ## Answers -/

/-- **The rows of a request** are the same in memory. -/
theorem IsOver.get_eq (h : e.IsOver db t) (ht : t.IsTable (db.content.rowsOf t.table))
    (hquery : e.Takes t query) : (e.inMemory db t).get (.text query) = e.get (.text query) := by
  have hprepare : ∀ e : Endpoint, e.prepare (.text query) =
      parameters (.text query) >>= e.prepareWith := fun _ => rfl
  rw [get, get, hprepare, hprepare]
  cases hparameters : parameters (.text query) with
  | error fault => simp only [error_bind]
  | ok params =>
    have halike := h.prepareWith_alike ht hquery (ofQuery_of_parameters hparameters)
    rw [ok_bind, ok_bind]
    generalize hsource : e.prepareWith params = x at halike
    revert halike
    generalize (e.inMemory db t).prepareWith params = y
    rintro (⟨q, c, rfl, rfl, hmirrored⟩ | fault)
    · have hcount := hquery.parameters (.query q) (by rw [hprepare, hparameters, ok_bind, hsource])
      exact (hmirrored.get_eq ht (Nat.le_of_add_right_le hcount)).symm
    · rfl

/-- **A page of a request** is the same in memory if it is read alike. -/
theorem IsOver.page_eq (h : e.IsOver db t) (ht : t.IsTable (db.content.rowsOf t.table))
    (hquery : e.Takes t query) (read : PageReader)
    (hread : ∀ p params state q c columns, e.thePagination = .ok p →
      Params.ofQuery query = .ok (.map params) → p.state params = .ok state →
      q.criterion.parameters.length + 2 ≤ Parameter.countLimit → Query.Mirrored db t q c →
      q.selectAll columns = .ok q → c.selectAll columns = .ok c →
      read p state (.collection c) columns = read p state (.query q) columns) :
    (e.inMemory db t).page read (.text query) = e.page read (.text query) := by
  refine page_congr rfl fun p params hpagination hparams => ?_
  refine (h.prepareWith_alike ht hquery hparams).mono ?_
  rintro _ _ hsource ⟨q, c, rfl, rfl, hmirrored⟩
  obtain ⟨columns, hcolumns, hcolumns', hselect, hselect'⟩ := hmirrored.exists_columns ht
  have hcount := hquery.parameters (.query q) (by
    rw [prepare, parameters, hparams]
    exact hsource)
  refine ⟨hcolumns'.trans hcolumns.symm, fun state value hstate hvalue => ?_⟩
  obtain rfl := Except.ok.inj (hcolumns.symm.trans hvalue)
  exact hread p params state q c columns hpagination hparams hstate hcount hmirrored hselect hselect'

/-- A page size and a page number are small. -/
theorem IsOver.exists_sizes (h : e.IsOver db t) (hquery : e.Takes t query) {p : Pagination}
    (hp : e.thePagination = .ok p) (hparams : Params.ofQuery query = .ok (.map params))
    {state : PagingState} (hstate : p.state params = .ok state) :
    (∀ size, Source.integerOr defaultPerPage state.perPage = .ok size →
      ∃ n : Nat, size = n ∧ n < 1000000000) ∧
    ∃ k : Nat, k < 1000000000 ∧
      Source.integerOr 1 ((state.page.map Value.int).getD .null) = .ok ((k + 1 : Nat) : Int) := by
  have hshort := hquery.pages p hp
  rw [queryParams_of_ofQuery hparams] at hshort
  obtain ⟨hpage, hsize⟩ := hshort.state (Params.isRead_of_ofQuery hparams) hstate
  constructor
  · intro size hok
    have hbounds : 0 ≤ size ∧ size < 1000000000 := by
      rcases hsize with hnull | hstandard | ⟨n, hn, hlow, hhigh⟩
      · rw [hnull] at hok
        obtain rfl := Except.ok.inj hok
        decide
      · rw [hstandard] at hok
        exact h.standard p hp size hok
      · rw [hn] at hok
        unfold Source.integerOr at hok
        split at hok
        · obtain rfl := Except.ok.inj hok
          exact ⟨hlow, hhigh⟩
        · obtain rfl := Except.ok.inj hok
          decide
    obtain ⟨n, rfl⟩ := Int.eq_ofNat_of_zero_le hbounds.1
    exact ⟨n, rfl, by have := hbounds.2; omega⟩
  · cases hnumber : state.page with
    | none => exact ⟨0, by decide, rfl⟩
    | some n =>
      obtain ⟨hlow, hhigh⟩ := hpage n hnumber
      obtain ⟨m, rfl⟩ := Int.eq_ofNat_of_zero_le (show 0 ≤ n by omega)
      obtain ⟨k, rfl⟩ : ∃ k, m = k + 1 := ⟨m - 1, by omega⟩
      exact ⟨k, by omega, Source.integerOr_natCast _ (Nat.succ_pos k)⟩

/-- Products of small numbers are integers that a database holds. -/
theorem mul_le_maxInteger {n k : Nat} (hn : n < 1000000000) (hk : k < 1000000000) :
    ((k * n : Nat) : Int) ≤ Parameter.maxInteger := by
  have hmax : ((1000000000 * 1000000000 : Nat) : Int) ≤ Parameter.maxInteger := by decide +kernel
  have hmul : k * n ≤ 1000000000 * 1000000000 := Nat.mul_le_mul hk.le hn.le
  omega

/-- **The numbered page of a request** is the same in memory. -/
theorem IsOver.paginate_eq (h : e.IsOver db t) (ht : t.IsTable (db.content.rowsOf t.table))
    (hquery : e.Takes t query) :
    (e.inMemory db t).paginate (.text query) = e.paginate (.text query) := by
  refine h.page_eq ht hquery _
    fun p params state q c columns hp hparams hstate hcount hmirrored hselect hselect' => ?_
  obtain ⟨hsizes, k, hk, hnumber⟩ := h.exists_sizes hquery hp hparams hstate
  unfold Source.paginate
  dsimp only
  cases hsize : Source.integerOr defaultPerPage state.perPage with
  | error fault => rfl
  | ok size =>
    obtain ⟨n, rfl, hn⟩ := hsizes size hsize
    have hmax : ((1000000000 : Nat) : Int) ≤ Parameter.maxInteger := by decide +kernel
    simp only [hnumber, hselect, hselect', ok_bind]
    refine bind_congr fun name => ?_
    rw [hmirrored.paginate_eq ht hcount (by omega) (mul_le_maxInteger hn hk)]

/-- **The page of a request without the number of all rows** is the same in memory. -/
theorem IsOver.simplePaginate_eq (h : e.IsOver db t) (ht : t.IsTable (db.content.rowsOf t.table))
    (hquery : e.Takes t query) :
    (e.inMemory db t).simplePaginate (.text query) = e.simplePaginate (.text query) := by
  refine h.page_eq ht hquery _
    fun p params state q c columns hp hparams hstate hcount hmirrored hselect hselect' => ?_
  obtain ⟨hsizes, k, hk, hnumber⟩ := h.exists_sizes hquery hp hparams hstate
  unfold Source.simplePaginate
  dsimp only
  cases hsize : Source.integerOr defaultPerPage state.perPage with
  | error fault => rfl
  | ok size =>
    obtain ⟨n, rfl, hn⟩ := hsizes size hsize
    have hmax : ((1000000000 : Nat) : Int) ≤ Parameter.maxInteger := by decide +kernel
    simp only [hnumber, hselect, hselect', ok_bind]
    refine bind_congr fun name => ?_
    rw [hmirrored.simplePaginate_eq ht hcount (by omega) (mul_le_maxInteger hn hk)]

/-- **A table and its rows in memory answer alike**, with the same rows in the same order and the same
pages, or with the same fault. -/
theorem inMemory_eq (h : e.IsOver db t) (ht : t.IsTable (db.content.rowsOf t.table))
    (hquery : e.Takes t query) :
    (e.inMemory db t).get (.text query) = e.get (.text query) ∧
      (e.inMemory db t).paginate (.text query) = e.paginate (.text query) ∧
      (e.inMemory db t).simplePaginate (.text query) = e.simplePaginate (.text query) :=
  ⟨h.get_eq ht hquery, h.paginate_eq ht hquery, h.simplePaginate_eq ht hquery⟩

/-- What requests can filter tags by. -/
def tagFilters : FilterPipeline where
  filters := [("weight", .exact (.text "weight")), ("name", .member (.text "name")),
    ("from", .compare (.text "id") (.text ">="))]

/-- An endpoint over the table of tags. -/
def ofTags : Endpoint where
  source := .query (.of Shop.database Shop.tags)
  config := []
  selector := some { fields := [("label", .column (.text "name"))] }
  filters := some tagFilters
  sorter := some { attributes := [("weight", .make (.text "weight") .null .null)] }
  pagination := some {}

theorem ofTags_isOver : ofTags.IsOver Shop.database Shop.tags where
  source := rfl
  selector := by
    rintro s ⟨⟩
    refine ⟨⟨"fields", rfl⟩, nofun, ?_, rfl⟩
    exact List.forall_mem_singleton.2 ⟨"name", rfl, Shop.texts "name", by simp [Shop.tags], rfl⟩
  filters := by
    rintro f ⟨⟩
    refine List.forall_mem_cons.2 ⟨⟨Shop.integers "weight", by simp [Shop.tags], .exact _⟩, ?_⟩
    refine List.forall_mem_cons.2 ⟨⟨Shop.texts "name", by simp [Shop.tags], .member _⟩, ?_⟩
    exact List.forall_mem_singleton.2 ⟨Shop.integers "id", by simp [Shop.tags], .compare _ _⟩
  orders := by
    rintro s ⟨⟩
    refine List.forall_mem_singleton.2 ?_
    rintro column direction ⟨descends, items, v, hitems, hv, hread⟩
    refine ⟨Shop.integers "weight", by simp [Shop.tags], ?_⟩
    cases descends <;>
    · obtain rfl := Except.ok.inj hitems
      obtain rfl := List.mem_singleton.1 hv
      exact (Prod.mk.inj (Except.ok.inj hread)).1.symm
  standard := by
    rintro p ⟨⟩ n h
    obtain rfl := Except.ok.inj h
    decide

theorem tags_isTable : Shop.tags.IsTable (Shop.database.content.rowsOf Shop.tags.table) where
  bare := rfl
  unmarked := rfl
  distinct := by decide
  simple := by simp [Shop.tags, Column.IsSimple, Shop.integers, Shop.texts]
  holds := by
    have hmax : Parameter.maxInteger = 9223372036854775807 := rfl
    show ∀ row ∈ Shop.tagRows, _
    simp [Shop.tagRows, Shop.row, Shop.tags, TableRow.get_cons, Shop.integers, Shop.texts, Column.Holds,
      hmax]

/-- A request for the labels of the tags that weigh three, on pages with one of them. -/
def threeTags : String := "fields=label&filter[weight]=3&per-page=1"

theorem ofTags_takes : ofTags.Takes Shop.tags threeTags where
  values := by
    intro f hf steps hsteps step hstep c _ _ s hs
    obtain rfl : tagFilters = f := Except.ok.inj hf
    have hread : ((tagFilters.steps (queryParams threeTags)).toOption.getD []).all (fun step =>
        (step.filter.operands step.value).all fun v => v.text?.all fun s =>
          (Number.readInteger? s).any fun n =>
            -Parameter.maxInteger - 1 ≤ n ∧ n ≤ Parameter.maxInteger) = true := by decide +kernel
    rw [hsteps] at hread
    have hs : (Number.readInteger? s).any _ = true :=
      List.all_eq_true.1 (List.all_eq_true.1 hread step hstep) _ hs
    obtain ⟨n, hn, hbounds⟩ := (Option.any_eq_true ..).1 hs
    exact fun _ => ⟨n, hn, of_decide_eq_true hbounds⟩
  pages := by
    intro p hp keyword hkeyword s hget
    obtain rfl : {} = p := Except.ok.inj hp
    rw [Pagination.bucket_flat rfl] at hget
    have hshort : [.text "page", .text "per-page"].all (fun keyword =>
        (Entries.get? (queryParams threeTags) keyword).all fun v => v.text?.all fun s =>
          s.length ≤ 9) = true := by decide +kernel
    have hs := List.all_eq_true.1 hshort keyword hkeyword
    rw [hget] at hs
    exact of_decide_eq_true hs
  parameters := by
    intro s hs
    have hcount : (ofTags.prepare (.text threeTags)).toOption.all (fun s =>
        s.parameters.length + 2 ≤ Parameter.countLimit) = true := by decide +kernel
    rw [hs] at hcount
    exact of_decide_eq_true hcount

/-- The tags that weigh three. -/
theorem inMemory_eq_tags : ofTags.IsOver Shop.database Shop.tags ∧
    Shop.tags.IsTable (Shop.database.content.rowsOf Shop.tags.table) ∧
    ofTags.Takes Shop.tags threeTags ∧
    (ofTags.inMemory Shop.database Shop.tags).paginate (.text threeTags) =
      ofTags.paginate (.text threeTags) :=
  ⟨ofTags_isOver, tags_isTable, ofTags_takes,
    (inMemory_eq ofTags_isOver tags_isTable ofTags_takes).2.1⟩

end Endpoint

end Listing
