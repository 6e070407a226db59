import Listing.Proofs.Endpoint.Linked

/-!
# Following the links between cursors

`Follows read page blocks` says that the links from `page` on can be followed up to a page without a
next one, and that the pages on the way hold the rows `blocks`. From the first page of a request the
links to the next cursor lead through all rows, as long as the parameters of the request can be
written: `Endpoint.follows_cursors_iff`. A request whose parameters cannot be written has links of
which every one fails.
-/

namespace Listing

open Params (IsWord IsRead)

namespace Endpoint

variable {e : Endpoint} {c₀ : Collection} {f : FilterPipeline} {p : Pagination} {query : String}
  {params : Entries} {c : Collection} {state : PagingState} {all : List Value}

/-- **The query of a link to a cursor** lists the same rows, from the position of the cursor on. -/
theorem Lists.exists_cursorLink (h : Lists e p query params c state all) (hl : e.Linked c₀ f p)
    (hw : Params.entriesWritable params = true) {name : Value} (hname : p.cursorName = .ok name)
    {i : Nat} (hi : i < integerLimit) :
    ∃ token url params' state', (Collection.cursorAt i true).encode = .ok token ∧
      Cursor.decode (.text token) = .ok (Collection.cursorAt i true) ∧
      ({ name := name, query := params } : Links).url (.text token) = .ok url ∧
      Lists e p (Links.queryPart url) params' c state' all ∧
      Params.entriesWritable params' = true ∧ state'.cursor = .text token := by
  obtain ⟨token, hencode, htoken, hdecode⟩ :=
    Cursor.exists_token (Collection.writable_cursorAt hi true)
  have hnamed := hl.isNamed
  obtain ⟨s, hs, hword⟩ := hnamed.cursor
  have hname' : p.namespaced (.text s) = .ok name := hs ▸ hname
  obtain ⟨url, params', hurl, hquery, hrelinked⟩ := Pagination.exists_link hnamed hword
    (l := { name := name, query := params }) hname' rfl h.isRead hw (v := .text token) rfl
  have hmem : Value.text s ∈ pagingKeywords p := by
    rw [← hs]
    simp [pagingKeywords]
  have hstate : ∃ state', p.state params' = .ok state' ∧ state'.cursor = .text token := by
    rw [hrelinked.state hnamed]
    rcases Pagination.state_cases hnamed h.state with ⟨hstate, -⟩ | ⟨-, hnil, -⟩
    · exact ⟨_, Pagination.stateOf_relinked_cursor hnamed hs hrelinked hstate htoken.not_blank, rfl⟩
    · have hstate := Pagination.stateOf_nil hnamed
      rw [← hnil] at hstate
      exact ⟨_, Pagination.stateOf_relinked_cursor hnamed hs hrelinked hstate htoken.not_blank, rfl⟩
  obtain ⟨state', hstate', hcursor⟩ := hstate
  exact ⟨token, url, params', state', hencode, hdecode, hurl,
    h.relinked hl hmem hquery hrelinked hstate', hrelinked.writable, hcursor⟩

/-- The link to the next page of a page at a cursor. -/
theorem nextUrl_pageAt {n i : Nat} {name cursor : Value} {l : Links} :
    Page.nextUrl (.cursor { Collection.pageAt all n i name cursor with links := l }) =
      if i + n < all.length then
        ((Collection.cursorAt (i + n : Nat) true).encode >>= fun token => l.url (.text token)).map some
      else .ok none := by
  by_cases hlt : i + n < all.length
  · simp only [Page.nextUrl, Collection.pageAt, if_pos hlt, Cursor.toValue, CursorPage.url,
      CursorPage.token, Collection.cursorAt]
    cases Cursor.encode ⟨[(.text "offset", .int (i + n : Nat))], true⟩ with
    | error x => rfl
    | ok token =>
      simp only [ok_bind, pure_eq_ok]
      cases l.url (.text token) <;> rfl
  · simp only [Page.nextUrl, Collection.pageAt, if_neg hlt, CursorPage.url]
    rfl

/-- **From a page on the links lead through the rows that are left.** -/
theorem Lists.exists_follows (hl : e.Linked c₀ f p) {d : Int} (hd : p.settings.standard = .int d)
    (hpos : 1 ≤ d) (hlen : all.length < integerLimit) {name : Value}
    (hname : p.cursorName = .ok name) {n : Nat} (hn : 0 < n) (i : Nat) (cursor : Value)
    (h : Lists e p query params c state all) (hw : Params.entriesWritable params = true) :
    ∃ blocks, Follows e.cursorPaginate (.cursor { Collection.pageAt all n i name cursor with
      links := { name := name, query := params } }) blocks ∧ blocks.flatten = all.drop i := by
  induction hm : all.length - i using Nat.strongRecOn generalizing query params state n i cursor with
  | ind m ih =>
    by_cases hlt : i + n < all.length
    · obtain ⟨token, url, params', state', hencode, hdecode, hurl, hlists, hw', hcursor⟩ :=
        h.exists_cursorLink hl hw hname (i := i + n) (by omega)
      obtain ⟨n', hn', hsize⟩ := hlists.exists_pageSize hl hd hpos
      obtain ⟨blocks, hfollows, hblocks⟩ := ih (all.length - (i + n)) (by omega) hn' (i + n)
        (Collection.cursorAt (i + n : Nat) true).toValue hlists hw' rfl
      refine ⟨_, .next rfl ?_ (hlists.cursorPaginate_token hl hname hsize hcursor hdecode) hfollows,
        ?_⟩
      · rw [nextUrl_pageAt, if_pos hlt, hencode, ok_bind, hurl]
        rfl
      · rw [List.flatten_cons, hblocks, ← List.drop_drop, List.take_append_drop]
    · refine ⟨_, .last rfl ?_, ?_⟩
      · rw [nextUrl_pageAt, if_neg hlt]
      · rw [List.flatten_singleton, List.take_of_length_le]
        rw [List.length_drop]
        omega

/-- Does a query string name no cursor, or an empty one? -/
def NoCursor (p : Pagination) (query : String) : Prop :=
  ∀ state, p.state (queryParams query) = .ok state → state.cursor.isEmpty = true

theorem Lists.cursor_eq_null (h : Lists e p query params c state all) (hl : e.Linked c₀ f p)
    (hcursor : NoCursor p query) : state.cursor = .null := by
  have hempty := hcursor state (h.queryParams_eq.symm ▸ h.state)
  rcases Pagination.state_cases hl.isNamed h.state with ⟨hstate, -⟩ | ⟨-, -, rfl⟩
  · obtain ⟨size, -, hstate⟩ := bind_eq_ok_iff.1 hstate
    obtain ⟨page, -, hstate⟩ := bind_eq_ok_iff.1 hstate
    obtain ⟨cursor, -, hstate⟩ := bind_eq_ok_iff.1 hstate
    obtain rfl := Except.ok.inj hstate
    dsimp only at hempty ⊢
    split at hempty
    · rw [if_pos ‹_›]
    · next hne => exact absurd hempty hne
  · rfl

theorem cursorName_eq (hl : e.Linked c₀ f p) : ∃ name, p.cursorName = .ok name := by
  obtain ⟨s, hs, hword⟩ := hl.isNamed.cursor
  obtain ⟨t, ks, hname, -⟩ := Pagination.exists_namespaced hl.isNamed hword
  exact ⟨_, (congrArg p.namespaced hs).trans hname⟩

/-- **Following the links from the first page of a request lists every row once**, exactly if the
parameters of the request can be written or there is one page only. A link to a next page fails
otherwise. -/
theorem follows_cursors_iff (hl : e.Linked c₀ f p) {d : Int} (hd : p.settings.standard = .int d)
    (hpos : 1 ≤ d) (hget : e.get (.text query) = .ok (.plain all)) (hlen : all.length < 2 ^ 63)
    {page : Page} (hpage : e.cursorPaginate (.text query) = .ok page) (hcursor : NoCursor p query) :
    ((∃ blocks, Follows e.cursorPaginate page blocks ∧ blocks.flatten = all) ↔
      Params.entriesWritable (queryParams query) = true ∨ page.nextUrl = .ok none) ∧
    (Params.entriesWritable (queryParams query) = false →
      page.nextUrl = .ok none ∨ page.nextUrl = .error .badValue) := by
  obtain ⟨params, c, state, h⟩ := hl.exists_lists hget hpage
  obtain ⟨name, hname⟩ := cursorName_eq hl
  obtain ⟨n, hn, hsize⟩ := h.exists_pageSize hl hd hpos
  have hfirst := h.cursorPaginate_null hl hname hsize (h.cursor_eq_null hl hcursor)
  obtain rfl := Except.ok.inj (hpage.symm.trans hfirst)
  have hlimit : 2 ^ 63 < integerLimit := by decide +kernel
  rw [h.queryParams_eq]
  refine ⟨⟨?_, ?_⟩, ?_⟩
  · rintro ⟨blocks, hfollows, -⟩
    cases hfollows with
    | last _ hnone => exact .inr hnone
    | next _ hlink _ _ =>
      rw [nextUrl_pageAt] at hlink
      split at hlink
      · obtain ⟨url, hurl, -⟩ := map_eq_ok_iff.1 hlink
        obtain ⟨token, -, hurl⟩ := bind_eq_ok_iff.1 hurl
        exact .inl (Links.writable_of_url hurl)
      · cases hlink
  · rintro (hw | hnone)
    · simpa using h.exists_follows hl hd hpos (by omega) hname hn 0 .null hw
    · refine ⟨_, .last rfl hnone, ?_⟩
      rw [nextUrl_pageAt] at hnone
      split at hnone
      · obtain ⟨url, -, heq⟩ := map_eq_ok_iff.1 hnone
        cases heq
      · next hlt =>
        rw [List.flatten_singleton, List.drop_zero, List.take_of_length_le (by omega)]
  · intro hw
    rw [nextUrl_pageAt]
    split
    · next hlt =>
      obtain ⟨token, hencode, -⟩ := Cursor.exists_token
        (Collection.writable_cursorAt (show 0 + n < integerLimit by omega) true)
      rw [hencode, ok_bind, Links.url_unwritable hw]
      exact .inr rfl
    · exact .inl rfl

/-- A request of which two pages hold three rows. -/
theorem follows_cursors_three : ∃ all page blocks,
    (ofNumbers 3 {}).get (.text "per-page=2&tag[]=a") = .ok (.plain all) ∧ all.length = 3 ∧
    (ofNumbers 3 {}).cursorPaginate (.text "per-page=2&tag[]=a") = .ok page ∧
    Follows (ofNumbers 3 {}).cursorPaginate page blocks ∧ blocks.flatten = all := by
  have hlength : (((ofNumbers 3 {}).get (.text "per-page=2&tag[]=a")).map Rows.length).toOption =
      some 3 := by decide +kernel
  obtain ⟨rows, hget⟩ : ∃ rows, (ofNumbers 3 {}).get (.text "per-page=2&tag[]=a") = .ok rows :=
    exists_of_isOk (by decide +kernel)
  obtain ⟨all, rfl⟩ := (linked_builtin 3).exists_get hget
  have hlen : all.length = 3 := by
    rw [hget] at hlength
    exact Option.some.inj hlength
  obtain ⟨page, hpage⟩ : ∃ page, (ofNumbers 3 {}).cursorPaginate (.text "per-page=2&tag[]=a") =
      .ok page := exists_of_isOk (by decide +kernel)
  have hcursor : NoCursor {} "per-page=2&tag[]=a" := by
    intro state hstate
    have hnone : ((Pagination.state {} (queryParams "per-page=2&tag[]=a")).map
        fun state => state.cursor.isEmpty).toOption = some true := by decide +kernel
    rw [hstate] at hnone
    exact Option.some.inj hnone
  obtain ⟨blocks, hfollows, hblocks⟩ := (follows_cursors_iff (linked_builtin 3) rfl (by decide) hget
    (by rw [hlen]; decide) hpage hcursor).1.2 (.inl (by decide +kernel))
  exact ⟨all, page, blocks, hget, hlen, hpage, hfollows, hblocks⟩

end Endpoint

end Listing
