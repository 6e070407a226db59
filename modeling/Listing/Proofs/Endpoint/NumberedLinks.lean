import Listing.Page.Inspection
import Listing.Proofs.Endpoint.Linked

/-!
# Following the links between numbered pages

The link to the next page leads to the page with the next number, of the same grid: it has as many
rows as the page before, and lists those after it. There is one exception, a request that says
nothing under the keyword of the pagination. Its page has fifteen rows, whereas the query of its
link says something under the keyword, so that the pages after it have the standard number of rows:
`Endpoint.paginate_links`.
-/

namespace Listing

open Params (IsWord IsRead)

namespace Endpoint

variable {e : Endpoint} {c₀ : Collection} {f : FilterPipeline} {p : Pagination} {query : String}
  {params : Entries} {c : Collection} {state : PagingState} {all : List Value}

/-- Does a query string say nothing under the keyword that holds the paging parameters? -/
def SaysNothing (p : Pagination) (query : String) : Prop :=
  p.settings.keyword ≠ .null ∧ p.bucket (queryParams query) = []

theorem pageName_eq (hl : e.Linked c₀ f p) : ∃ name, p.pageName = .ok name := by
  obtain ⟨s, hs, hword⟩ := hl.isNamed.page
  obtain ⟨t, ks, hname, -⟩ := Pagination.exists_namespaced hl.isNamed hword
  exact ⟨_, (congrArg p.namespaced hs).trans hname⟩

/-- A request is for a page from one on. -/
theorem Lists.exists_number (h : Lists e p query params c state all) (hl : e.Linked c₀ f p) :
    ∃ k : Nat, Source.integerOr 1 ((state.page.map Value.int).getD .null) =
      .ok ((k + 1 : Nat) : Int) := by
  rcases Pagination.state_cases hl.isNamed h.state with ⟨hstate, -⟩ | ⟨-, -, rfl⟩
  · obtain ⟨size, -, hstate⟩ := bind_eq_ok_iff.1 hstate
    obtain ⟨page, hpage, hstate⟩ := bind_eq_ok_iff.1 hstate
    obtain ⟨cursor, -, hstate⟩ := bind_eq_ok_iff.1 hstate
    obtain rfl := Except.ok.inj hstate
    unfold Pagination.page at hpage
    obtain ⟨raw, -, hpage⟩ := bind_eq_ok_iff.1 hpage
    obtain ⟨given, -, hpage⟩ := bind_eq_ok_iff.1 hpage
    cases given with
    | none =>
      obtain rfl := Except.ok.inj hpage
      exact ⟨0, rfl⟩
    | some n =>
      dsimp only at hpage
      split at hpage
      · cases hpage
      · obtain rfl := Except.ok.inj hpage
        obtain ⟨k, hk⟩ := Int.eq_ofNat_of_zero_le (show 0 ≤ n - 1 by omega)
        obtain rfl : n = ((k + 1 : Nat) : Int) := by omega
        exact ⟨k, Source.integerOr_natCast 1 (Nat.succ_pos k)⟩
  · exact ⟨0, rfl⟩

/-- **The query of a link to a page** lists the same rows, and is for the page with that number. -/
theorem Lists.exists_pageLink (h : Lists e p query params c state all) (hl : e.Linked c₀ f p)
    (hw : Params.entriesWritable params = true) {name : Value} (hname : p.pageName = .ok name)
    {k : Nat} (hk : k + 1 < integerLimit) {inner : PagingState}
    (hinner : p.stateOf (p.bucket params) = .ok inner) :
    ∃ url params' state', ({ name := name, query := params } : Links).url (.int (k + 1 : Nat)) =
        .ok url ∧
      Lists e p (Links.queryPart url) params' c state' all ∧
      Params.entriesWritable params' = true ∧ state'.perPage = inner.perPage ∧
      state'.page = some ((k + 1 : Nat) : Int) ∧ p.stateOf (p.bucket params') = .ok state' := by
  have hnamed := hl.isNamed
  obtain ⟨s, hs, hword⟩ := hnamed.page
  have hname' : p.namespaced (.text s) = .ok name := hs ▸ hname
  have htext : (Value.int (k + 1 : Nat)).asText = .ok (intText (k + 1 : Nat)) :=
    Json.asText_int (by omega)
  obtain ⟨url, params', hurl, hquery, hrelinked⟩ := Pagination.exists_link hnamed hword
    (l := { name := name, query := params }) hname' rfl h.isRead hw htext
  have hmem : Value.text s ∈ pagingKeywords p := by
    rw [← hs]
    simp [pagingKeywords]
  have hstate := Pagination.stateOf_relinked_page hnamed hs hk hrelinked hinner
  exact ⟨url, params', _, hurl,
    h.relinked hl hmem hquery hrelinked ((hrelinked.state hnamed).trans hstate),
    hrelinked.writable, rfl, rfl, hstate⟩

/-- The link to the next page of a numbered page. -/
theorem nextUrl_gridPage {n k : Nat} {l : Links} :
    Page.nextUrl (.numbered (Collection.gridPage all n k l)) =
      if (k + 1) * n < all.length then (l.url (.int (k + 1 + 1 : Nat))).map some else .ok none := by
  have hadd : (Value.int (k + 1 : Nat)).add (.int 1) = .ok (.int (k + 1 + 1 : Nat)) := rfl
  have hmax : max ((k + 1 + 1 : Nat) : Int) 1 = ((k + 1 + 1 : Nat) : Int) := by omega
  have hint : (Value.int (k + 1 + 1 : Nat)).toInt = .ok ((k + 1 + 1 : Nat) : Int) := rfl
  by_cases hlt : (k + 1) * n < all.length
  · simp only [Page.nextUrl, NumberedPage.nextUrl, Collection.gridPage, Value.truthy, hlt,
      decide_true, if_true, hadd, ok_bind, NumberedPage.url, hint, hmax]
    cases l.url (.int (k + 1 + 1 : Nat)) <;> rfl
  · simp [Page.nextUrl, NumberedPage.nextUrl, Collection.gridPage, Value.truthy, hlt]

/-- **A page of a request that says how it pages is followed by the next one of the grid.** -/
theorem Lists.exists_next (h : Lists e p query params c state all) (hl : e.Linked c₀ f p)
    (hlen : all.length < 2 ^ 53) {name : Value} (hname : p.pageName = .ok name) {inner : PagingState}
    (hinner : p.stateOf (p.bucket params) = .ok inner) {n : Nat} (hn : 0 < n)
    (hsize : pageSize inner = .ok (n : Int)) {k : Nat} (hk : k + 1 < 2 ^ 53)
    (hw : Params.entriesWritable params = true) :
    ∃ url params' state', ({ name := name, query := params } : Links).url (.int (k + 1 + 1 : Nat)) =
        .ok url ∧
      Lists e p (Links.queryPart url) params' c state' all ∧
      Params.entriesWritable params' = true ∧ p.stateOf (p.bucket params') = .ok state' ∧
      pageSize state' = .ok (n : Int) ∧
      e.paginate (.text (Links.queryPart url)) =
        .ok (.numbered (Collection.gridPage all n (k + 1) { name := name, query := params' })) := by
  have hlimit : 2 ^ 63 < integerLimit := by decide +kernel
  obtain ⟨url, params', state', hurl, hlists, hw', hperPage, hpage, hstate'⟩ :=
    h.exists_pageLink hl hw hname (show k + 1 + 1 < integerLimit by omega) hinner
  have hsize' : pageSize state' = .ok (n : Int) := by
    rw [pageSize, hperPage]
    exact hsize
  refine ⟨url, params', state', hurl, hlists, hw', hstate', hsize', ?_⟩
  refine hlists.paginate_eq hl hlen hname hn hsize' ?_
  rw [hpage]
  exact Source.integerOr_natCast 1 (Nat.succ_pos _)

/-- **From a page on the links lead through the rows that are left.** -/
theorem Lists.exists_follows_numbered (hl : e.Linked c₀ f p) (hlen : all.length < 2 ^ 53)
    {name : Value} (hname : p.pageName = .ok name) {n : Nat} (hn : 0 < n) (k : Nat)
    (h : Lists e p query params c state all) (hw : Params.entriesWritable params = true)
    {inner : PagingState} (hinner : p.stateOf (p.bucket params) = .ok inner)
    (hsize : pageSize inner = .ok (n : Int)) :
    ∃ blocks, Follows e.paginate (.numbered (Collection.gridPage all n k
      { name := name, query := params })) blocks ∧ blocks.flatten = all.drop (k * n) := by
  induction hm : all.length - k * n using Nat.strongRecOn generalizing query params state inner k with
  | ind m ih =>
    have hsucc : (k + 1) * n = k * n + n := Nat.succ_mul k n
    by_cases hlt : (k + 1) * n < all.length
    · have hk : k + 1 < 2 ^ 53 :=
        Nat.lt_of_le_of_lt (Nat.le_mul_of_pos_right (k + 1) hn) (by omega)
      obtain ⟨url, params', state', hurl, hlists, hw', hstate', hsize', hpage⟩ :=
        h.exists_next hl hlen hname hinner hn hsize hk hw
      obtain ⟨blocks, hfollows, hblocks⟩ :=
        ih (all.length - (k + 1) * n) (by omega) (k + 1) hlists hw' hstate' hsize' rfl
      refine ⟨_, .next rfl ?_ hpage hfollows, ?_⟩
      · rw [nextUrl_gridPage, if_pos hlt, hurl]
        rfl
      · rw [List.flatten_cons, hblocks, hsucc, ← List.drop_drop, List.take_append_drop]
    · refine ⟨_, .last rfl ?_, ?_⟩
      · rw [nextUrl_gridPage, if_neg hlt]
      · rw [List.flatten_singleton, List.take_of_length_le]
        rw [List.length_drop]
        omega

/-- **Numbered links stay on one grid.** A request has page `k + 1` of a grid with `n` rows a page,
and its link leads to page `k + 2` of the grid with `n'` rows a page, where `n'` is `n` unless the
request says nothing under the keyword of the pagination. So the links from the first page on list
every row once. -/
theorem paginate_links (hl : e.Linked c₀ f p) {d : Nat} (hd : p.settings.standard = .int d)
    (hpos : 1 ≤ d) (hget : e.get (.text query) = .ok (.plain all)) (hlen : all.length < 2 ^ 53)
    {page : Page} (hpage : e.paginate (.text query) = .ok page) :
    ∃ n n' k : Nat, ∃ l : Links, page = .numbered (Collection.gridPage all n k l) ∧ 0 < n ∧
      (SaysNothing p query → k = 0 ∧ n = 15 ∧ n' = d) ∧ (¬ SaysNothing p query → n' = n) ∧
      (∀ url, page.nextUrl = .ok (some url) → ∃ l', e.paginate (.text (Links.queryPart url)) =
        .ok (.numbered (Collection.gridPage all n' (k + 1) l'))) ∧
      (k = 0 → n' = n → (∃ link, page.nextUrl = .ok link) →
        ∃ blocks, Follows e.paginate page blocks ∧ blocks.flatten = all) := by
  obtain ⟨params, c, state, h⟩ := hl.exists_lists hget hpage
  obtain ⟨name, hname⟩ := pageName_eq hl
  obtain ⟨n, hn, hsize⟩ := h.exists_pageSize hl hd (by omega)
  obtain ⟨k, hk⟩ := h.exists_number hl
  have hfirst := h.paginate_eq hl hlen hname hn hsize hk
  obtain rfl := Except.ok.inj (hpage.symm.trans hfirst)
  -- What the links keep is what the bucket says, and a missing one says what an empty one says.
  have hbucket : ∃ inner n', p.stateOf (p.bucket params) = .ok inner ∧ 0 < n' ∧
      pageSize inner = .ok ((n' : Nat) : Int) ∧ (SaysNothing p query → k = 0 ∧ n = 15 ∧ n' = d) ∧
      (¬ SaysNothing p query → n' = n) := by
    rcases Pagination.state_cases hl.isNamed h.state with ⟨hstate, hsays⟩ | ⟨hne, hnil, rfl⟩
    · refine ⟨state, n, hstate, hn, hsize, fun hmissing => ?_, fun _ => rfl⟩
      rcases hsays with hflat | hsays
      · exact absurd hflat hmissing.1
      · exact absurd (h.queryParams_eq ▸ hmissing.2) hsays
    · have hmissing : SaysNothing p query := ⟨hne, h.queryParams_eq.symm ▸ hnil⟩
      have hn15 : (15 : Int) = n := Except.ok.inj hsize
      have hk1 : (1 : Int) = (k + 1 : Nat) := Except.ok.inj hk
      refine ⟨_, d, hnil ▸ Pagination.stateOf_nil hl.isNamed, hpos, ?_, fun _ => ?_,
        fun h => absurd hmissing h⟩
      · rw [pageSize, hd]
        exact Source.integerOr_natCast _ hpos
      · exact ⟨by omega, by omega, rfl⟩
  obtain ⟨inner, n', hinner, hn', hsize', hmissing, hsame⟩ := hbucket
  refine ⟨n, n', k, _, rfl, hn, hmissing, hsame, ?_, ?_⟩
  · intro url hurl
    rw [nextUrl_gridPage] at hurl
    split at hurl
    · next hlt =>
      obtain ⟨link, hlink, heq⟩ := map_eq_ok_iff.1 hurl
      obtain rfl := Option.some.inj heq
      have hk' : k + 1 < 2 ^ 53 :=
        Nat.lt_of_le_of_lt (Nat.le_mul_of_pos_right (k + 1) hn) (by omega)
      obtain ⟨url', params', state', hurl', -, -, -, -, hnext⟩ :=
        h.exists_next hl hlen hname hinner hn' hsize' hk' (Links.writable_of_url hlink)
      obtain rfl := Except.ok.inj (hlink.symm.trans hurl')
      exact ⟨_, hnext⟩
    · cases hurl
  · rintro rfl rfl ⟨link, hlink⟩
    rw [nextUrl_gridPage] at hlink
    split at hlink
    · obtain ⟨url, hurl, -⟩ := map_eq_ok_iff.1 hlink
      simpa using h.exists_follows_numbered hl hlen hname hn 0 (Links.writable_of_url hurl) hinner hsize'
    · next hlt =>
      refine ⟨_, .last rfl ?_, ?_⟩
      · rw [nextUrl_gridPage, if_neg hlt]
      · rw [List.flatten_singleton, Nat.zero_mul, List.drop_zero, List.take_of_length_le (by omega)]

/-- A request of which two numbered pages hold three rows. -/
theorem paginate_links_three : ∃ all page blocks,
    (ofNumbers 3 {}).get (.text "per-page=2") = .ok (.plain all) ∧ all.length = 3 ∧
    (ofNumbers 3 {}).paginate (.text "per-page=2") = .ok page ∧
    Follows (ofNumbers 3 {}).paginate page blocks ∧ blocks.flatten = all := by
  have hlength : (((ofNumbers 3 {}).get (.text "per-page=2")).map Rows.length).toOption = some 3 := by
    decide +kernel
  obtain ⟨rows, hget⟩ : ∃ rows, (ofNumbers 3 {}).get (.text "per-page=2") = .ok rows :=
    exists_of_isOk (by decide +kernel)
  obtain ⟨all, rfl⟩ := (linked_builtin 3).exists_get hget
  have hlen : all.length = 3 := by
    rw [hget] at hlength
    exact Option.some.inj hlength
  obtain ⟨page, hpage⟩ : ∃ page, (ofNumbers 3 {}).paginate (.text "per-page=2") = .ok page :=
    exists_of_isOk (by decide +kernel)
  obtain ⟨n, n', k, l, heq, -, -, hsame, -, hfollows⟩ := paginate_links (linked_builtin 3) (d := 15)
    rfl (by decide) hget (by rw [hlen]; decide) hpage
  have hfirst : ((ofNumbers 3 {}).paginate (.text "per-page=2") >>= fun page =>
      page.inspect "current_page" [] >>= Value.toInt).toOption = some 1 := by decide +kernel
  have hk : k = 0 := by
    rw [hpage, heq] at hfirst
    have hk : ((k + 1 : Nat) : Int) = 1 := Option.some.inj hfirst
    omega
  have hlink : ((ofNumbers 3 {}).paginate (.text "per-page=2") >>= Page.nextUrl).isOk = true := by
    decide +kernel
  rw [hpage] at hlink
  obtain ⟨blocks, hblocks⟩ := hfollows hk (hsame fun h => h.1 rfl) (exists_of_isOk hlink)
  exact ⟨all, page, blocks, hget, hlen, hpage, hblocks⟩

/-- **A request that says nothing leaves the grid.** Its page has fifteen rows out of thirty, and its
link leads to a page of ten. -/
theorem paginate_nothing_links : (ofNumbers 30 tens).Linked { rows := numbers 30 } {} ⟨tens⟩ ∧
    (do
      let page ← (ofNumbers 30 tens).paginate (.text "")
      let link ← page.nextUrl
      let next ← (ofNumbers 30 tens).paginate (.text (Links.queryPart (link.getD "")))
      return (page.items.length, link, next.items.length)).toOption =
        some (15, some "/?pagination%5Bpage%5D=2", 10) :=
  ⟨linked_tens 30, by decide +kernel⟩

end Endpoint

end Listing
