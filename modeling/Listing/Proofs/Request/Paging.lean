import Listing.Proofs.Number.Compare
import Listing.Proofs.Number.Digits
import Listing.Proofs.Page.Links
import Listing.Request.Paging

/-!
# Paging parameters in links

A pagination reads its parameters from a map, its `bucket`: the whole request, or what stands under
its keyword. A link to another page sets one parameter of the bucket anew and keeps everything else:
`Relinked` says so of two requests, and `Pagination.exists_link` that the query of a link is related
to the request whose parameters the link carries. So the page size stays the same from link to link
(`stateOf_relinked`), except that a request whose bucket is missing has no page size of its own.
-/

namespace Listing

open Params (IsWord IsRead)

theorem Entries.parameter_text (params : Entries) (s : String) :
    params.parameter (.text s) = .ok ((Entries.get? params (.text s)).getD .null) := rfl

namespace Pagination

/-! ## Buckets -/

/-- Are the keywords words, and those of the bucket distinct? -/
structure IsNamed (p : Pagination) : Prop where
  keyword : p.settings.keyword = .null ∨ ∃ s, p.settings.keyword = .text s ∧ IsWord s
  page : ∃ s, p.settings.pageKeyword = .text s ∧ IsWord s
  cursor : ∃ s, p.settings.cursorKeyword = .text s ∧ IsWord s
  perPage : ∃ s, p.settings.perPageKeyword = .text s ∧ IsWord s
  page_ne_cursor : p.settings.pageKeyword ≠ p.settings.cursorKeyword
  page_ne_perPage : p.settings.pageKeyword ≠ p.settings.perPageKeyword
  cursor_ne_perPage : p.settings.cursorKeyword ≠ p.settings.perPageKeyword

/-- The map that holds the paging parameters of a request. -/
def bucket (p : Pagination) (params : Entries) : Entries :=
  match p.settings.keyword with
  | .null => params
  | keyword => Params.child params keyword

/-- The key of a request under which a link to a page changes something. -/
def rootKey (p : Pagination) (name : Value) : Value :=
  match p.settings.keyword with
  | .null => name
  | keyword => keyword

theorem bucket_flat {p : Pagination} (h : p.settings.keyword = .null) (params : Entries) :
    p.bucket params = params := by
  rw [bucket, h]

theorem bucket_namespaced {p : Pagination} {s : String} (h : p.settings.keyword = .text s)
    (params : Entries) : p.bucket params = Params.child params (.text s) := by
  rw [bucket, h]

theorem state_flat {p : Pagination} (h : p.settings.keyword = .null) (params : Entries) :
    p.state params = p.stateOf params := by
  rw [state, h]

theorem state_namespaced {p : Pagination} {s : String} (h : p.settings.keyword = .text s)
    (params : Entries) : p.state params =
      (let inner := (Entries.get? params (.text s)).getD .null
       if inner.isEmpty then .ok {}
       else
        match inner with
        | .map es => p.stateOf es
        | _ => .error (.query (.notAList s "pagination parameters"))) := by
  unfold state
  rw [h]
  simp only [Entries.parameter_text, ok_bind, pure_eq_ok]
  rfl

/-- A request says how it pages, or its bucket is missing. -/
theorem state_cases {p : Pagination} (hp : p.IsNamed) {params : Entries} {state : PagingState}
    (h : p.state params = .ok state) :
    p.stateOf (p.bucket params) = .ok state ∧
        (p.settings.keyword = .null ∨ p.bucket params ≠ []) ∨
      p.settings.keyword ≠ .null ∧ p.bucket params = [] ∧ state = {} := by
  rcases hp.keyword with hk | ⟨s, hk, -⟩
  · rw [state_flat hk] at h
    exact .inl ⟨(bucket_flat hk params).symm ▸ h, .inl hk⟩
  · rw [state_namespaced hk] at h
    rw [bucket_namespaced hk, hk]
    unfold Params.child
    cases hget : Entries.get? params (.text s) with
    | none =>
      rw [hget] at h
      exact .inr ⟨by simp, rfl, (Except.ok.inj h).symm⟩
    | some inner =>
      rw [hget] at h
      dsimp only [Option.getD_some] at h
      split at h
      · next hempty =>
        refine .inr ⟨by simp, ?_, (Except.ok.inj h).symm⟩
        cases inner with
        | map es => simpa [Value.isEmpty] using hempty
        | _ => rfl
      · next hempty =>
        cases inner with
        | map es => exact .inl ⟨h, .inr (by simpa [Value.isEmpty] using hempty)⟩
        | _ => cases h

theorem state_of_bucket {p : Pagination} (hp : p.IsNamed) {params : Entries}
    (h : p.bucket params ≠ []) : p.state params = p.stateOf (p.bucket params) := by
  rcases hp.keyword with hk | ⟨s, hk, -⟩
  · rw [state_flat hk, bucket_flat hk]
  · rw [bucket_namespaced hk] at h ⊢
    rw [state_namespaced hk]
    unfold Params.child at h ⊢
    cases hget : Entries.get? params (.text s) with
    | none =>
      rw [hget] at h
      exact absurd rfl h
    | some inner =>
      rw [hget] at h
      cases inner with
      | map es =>
        have hes : es.isEmpty = false := by simpa using h
        simp [Value.isEmpty, hes]
      | _ => exact absurd rfl h

/-! ## The page size of a request -/

theorem canonical_bucket {p : Pagination} {params : Entries} (h : IsRead params) {k v : Value}
    (hv : (p.bucket params).get? k = some v) : Params.Canonical v := by
  unfold bucket at hv
  split at hv
  · exact h.canonical.canonical_get? hv
  · rcases h.canonical.child_cases p.settings.keyword with hnil | hmap
    · rw [hnil] at hv
      cases hv
    · obtain ⟨l, hl, -⟩ := Entries.mem_of_get?_eq_some hv
      exact (Params.canonicalBranches_iff.1 hmap.2.2.2 _ hl).2

/-- An integer of a request is written in digits. -/
theorem exists_digits_of_integer? {keyword raw : Value} (hraw : raw = .null ∨ Params.Canonical raw)
    {n : Int} (h : integer? keyword raw = .ok (some n)) :
    ∃ s, raw = .text s ∧ s.toList.all Text.isDigit = true ∧ Number.readInteger? s = some n := by
  rcases hraw with rfl | hraw
  · cases h
  · cases raw with
    | text s =>
      unfold integer? at h
      dsimp only at h
      split at h
      · next htoken =>
        obtain ⟨m, hm, heq⟩ := map_eq_ok_iff.1 h
        obtain rfl := Option.some.inj heq
        rw [Value.isIntegerToken, Bool.and_eq_true] at htoken
        refine ⟨s, rfl, List.all_eq_true.2 fun c hc =>
          Text.isDigit_of_isAsciiDigit (List.all_eq_true.1 htoken.2 c hc), ?_⟩
        rw [Value.toInt] at hm
        cases hread : Number.readInteger? s with
        | none =>
          rw [hread] at hm
          cases hm
        | some i =>
          rw [hread] at hm
          rw [Except.ok.inj hm]
      · cases h
    | list vs => cases h
    | map es => cases h
    | _ => exact absurd hraw id

/-- A request holds no negative integer. -/
theorem integer?_nonneg {keyword raw : Value} (hraw : raw = .null ∨ Params.Canonical raw) {n : Int}
    (h : integer? keyword raw = .ok (some n)) : 0 ≤ n := by
  obtain ⟨s, -, hdigits, hread⟩ := exists_digits_of_integer? hraw h
  exact Number.readInteger?_nonneg hdigits hread

/-- A text of at most nine characters holds an integer below a thousand million. -/
theorem integer?_lt {keyword raw : Value} (hraw : raw = .null ∨ Params.Canonical raw)
    (hshort : ∀ s, raw = .text s → s.length ≤ 9) {n : Int}
    (h : integer? keyword raw = .ok (some n)) : n < 1000000000 := by
  obtain ⟨s, hs, hdigits, hread⟩ := exists_digits_of_integer? hraw h
  have hlt := Number.readInteger?_lt hdigits hread
  have hpow : Nat.pow 10 s.length ≤ Nat.pow 10 9 := Nat.pow_le_pow_right (by decide) (hshort s hs)
  have hlimit : Nat.pow 10 9 = 1000000000 := by decide
  omega

/-- The number of rows on the pages of a size that a request says. -/
theorem perPage_cases {p : Pagination} {params : Entries} {v : Value}
    (h : p.perPage params = .ok v) :
    v = p.settings.standard ∨ ∃ n raw, v = .int n ∧
      params.parameter p.settings.perPageKeyword = .ok raw ∧
      integer? p.settings.perPageKeyword raw = .ok (some n) ∧
      (Value.int n).less? p.settings.least = .ok false := by
  unfold perPage at h
  obtain ⟨raw, hraw, h⟩ := bind_eq_ok_iff.1 h
  obtain ⟨given, hgiven, h⟩ := bind_eq_ok_iff.1 h
  cases given with
  | none => exact .inl (Except.ok.inj h).symm
  | some n =>
    obtain ⟨below, hbelow, h⟩ := bind_eq_ok_iff.1 h
    cases below with
    | true => cases h
    | false =>
      obtain ⟨above, -, h⟩ := bind_eq_ok_iff.1 h
      cases above with
      | true => cases h
      | false => exact .inr ⟨n, raw, (Except.ok.inj h).symm, hraw, hgiven, hbelow⟩

/-! ## Requests for small pages -/

/-- Are the texts of the page number and the page size of at most nine characters? -/
def IsShort (p : Pagination) (params : Entries) : Prop :=
  ∀ keyword ∈ [p.settings.pageKeyword, p.settings.perPageKeyword], ∀ s,
    Entries.get? (p.bucket params) keyword = some (.text s) → s.length ≤ 9

theorem parameter_eq_ok {params : Entries} {k v : Value} (h : params.parameter k = .ok v) :
    v = (Entries.get? params k).getD .null := by
  unfold Entries.parameter at h
  split at h
  · exact (Except.ok.inj h).symm
  · cases h

theorem stateOf_of_state {p : Pagination} {params : Entries} {state : PagingState}
    (h : p.state params = .ok state) : p.stateOf (p.bucket params) = .ok state ∨ state = {} := by
  by_cases hflat : p.settings.keyword = .null
  · rw [state_flat hflat] at h
    exact .inl ((bucket_flat hflat params).symm ▸ h)
  have hbucket : p.bucket params = Params.child params p.settings.keyword := by
    unfold bucket
    split
    · exact absurd ‹_› hflat
    · rfl
  unfold Pagination.state at h
  split at h
  · exact absurd ‹_› hflat
  obtain ⟨inner, hinner, h⟩ := bind_eq_ok_iff.1 h
  have hget := parameter_eq_ok hinner
  split at h
  · exact .inr (Except.ok.inj h).symm
  rw [hbucket, Params.child]
  cases hchild : Entries.get? params p.settings.keyword with
  | none =>
    rw [hchild] at hget
    obtain rfl : inner = .null := hget
    exact absurd h bind_error_ne_ok
  | some v =>
    rw [hchild] at hget
    obtain rfl : inner = v := hget
    cases inner with
    | map es => exact .inl h
    | _ => exact absurd h bind_error_ne_ok

/-- The integers that a request says of pages are no negative ones, and small. -/
theorem IsShort.bounds {p : Pagination} {params : Entries} (hshort : p.IsShort params)
    (hr : IsRead params) {keyword raw : Value}
    (hkeyword : keyword ∈ [p.settings.pageKeyword, p.settings.perPageKeyword])
    (hraw : (p.bucket params).parameter keyword = .ok raw) {n : Int}
    (h : integer? keyword raw = .ok (some n)) : 0 ≤ n ∧ n < 1000000000 := by
  have hget := parameter_eq_ok hraw
  have hcanonical : raw = .null ∨ Params.Canonical raw := by
    cases hfound : Entries.get? (p.bucket params) keyword with
    | none =>
      rw [hfound] at hget
      exact .inl hget
    | some v =>
      rw [hfound] at hget
      exact .inr (hget ▸ canonical_bucket hr hfound)
  refine ⟨integer?_nonneg hcanonical h, integer?_lt hcanonical (fun s hs => ?_) h⟩
  refine hshort keyword hkeyword s ?_
  cases hfound : Entries.get? (p.bucket params) keyword with
  | none =>
    rw [hfound, hs] at hget
    cases hget
  | some v =>
    rw [hfound, hs] at hget
    exact congrArg some hget.symm

/-- **A request for small pages** has a page number below a thousand million, and its page size is
the standard one or as small. -/
theorem IsShort.state {p : Pagination} {params : Entries} (hshort : p.IsShort params)
    (hr : IsRead params) {state : PagingState} (h : p.state params = .ok state) :
    (∀ n, state.page = some n → 1 ≤ n ∧ n < 1000000000) ∧
      (state.perPage = .null ∨ state.perPage = p.settings.standard ∨
        ∃ n : Int, state.perPage = .int n ∧ 0 ≤ n ∧ n < 1000000000) := by
  rcases stateOf_of_state h with h | rfl
  · obtain ⟨size, hsize, h⟩ := bind_eq_ok_iff.1 h
    obtain ⟨page, hpage, h⟩ := bind_eq_ok_iff.1 h
    obtain ⟨cursor, -, h⟩ := bind_eq_ok_iff.1 h
    obtain rfl := Except.ok.inj h
    refine ⟨fun n hn => ?_, .inr ?_⟩
    · obtain rfl : page = some n := hn
      unfold Pagination.page at hpage
      obtain ⟨raw, hraw, hpage⟩ := bind_eq_ok_iff.1 hpage
      obtain ⟨given, hgiven, hpage⟩ := bind_eq_ok_iff.1 hpage
      cases given with
      | none => cases hpage
      | some m =>
        dsimp only at hpage
        split at hpage
        · cases hpage
        · obtain rfl := Option.some.inj (Except.ok.inj hpage)
          exact ⟨by omega, (hshort.bounds hr (by simp) hraw hgiven).2⟩
    · rcases perPage_cases hsize with hstandard | ⟨n, raw, hn, hraw, hgiven, -⟩
      · exact .inl hstandard
      · exact .inr ⟨n, hn, hshort.bounds hr (by simp) hraw hgiven⟩
  · exact ⟨nofun, .inl rfl⟩

/-! ## Links -/

/-- Does one request differ from another one by the text of a paging parameter only? -/
structure Relinked (p : Pagination) (params : Entries) (name text : String) (params' : Entries) :
    Prop where
  read : IsRead params'
  writable : Params.entriesWritable params' = true
  new : (p.bucket params').get? (.text name) = some (.text text)
  others : ∀ l, l ≠ name →
    (p.bucket params').get? (.text l) = (p.bucket params).get? (.text l)
  apart : ∀ l, .text l ≠ p.rootKey (.text name) →
    Entries.get? params' (.text l) = Entries.get? params (.text l)

section Resetting

variable {p : Pagination} {params : Entries} {s name : String}

/-- A link writes a paging parameter of its own in the place of the former one. -/
theorem relinked_flat (hk : p.settings.keyword = .null) (hname : IsWord name) (hr : IsRead params)
    (hw : Params.entriesWritable params = true) (text : String) :
    p.Relinked params name text
      (Params.listifiedEntries (Params.reset params (.text name) [] text)) := by
  obtain ⟨-, hread, hwritable⟩ := Params.ofPairs_reset hr hw hname (List.forall_mem_nil _)
    (show 0 < Params.depthLimit by decide) text
  refine ⟨hread, hwritable, ?_, fun l hl => ?_, fun l hl => ?_⟩
  · rw [bucket_flat hk]
    exact Params.get?_reset_self params name text
  · rw [bucket_flat hk, bucket_flat hk]
    exact Params.get?_reset_of_ne hr hw hname (List.forall_mem_nil _) text (Value.isName_text l)
      fun he => hl (Value.text.inj he)
  · refine Params.get?_reset_of_ne hr hw hname (List.forall_mem_nil _) text (Value.isName_text l)
      fun he => hl ?_
    rw [rootKey, hk, he]

theorem isKey_of_mem_word (hname : IsWord name) :
    ∀ k ∈ [Value.text name], Params.IsKey k ∧ k.hasText = true :=
  List.forall_mem_singleton.2 ⟨Params.isKey_text hname, rfl⟩

/-- A link writes a paging parameter in the place of the former one under the keyword of all of them. -/
theorem relinked_namespaced (hk : p.settings.keyword = .text s) (hs : IsWord s) (hname : IsWord name)
    (hr : IsRead params) (hw : Params.entriesWritable params = true) (text : String) :
    p.Relinked params name text
      (Params.listifiedEntries (Params.reset params (.text s) [.text name] text)) := by
  have hkeys := isKey_of_mem_word hname
  obtain ⟨-, hread, hwritable⟩ :=
    Params.ofPairs_reset hr hw hs hkeys (by simp [Params.depthLimit]) text
  obtain ⟨bucket, hget, hnew, hothers⟩ := Params.exists_get?_reset hr.canonical hw hs hname text
  have hchild : p.bucket (Params.listifiedEntries
      (Params.reset params (.text s) [.text name] text)) = bucket := by
    rw [bucket_namespaced hk, Params.child, hget]
  refine ⟨hread, hwritable, hchild ▸ hnew, fun l hl => ?_, fun l hl => ?_⟩
  · rw [hchild, bucket_namespaced hk, hothers _ (Value.isName_text l)
      fun he => hl (Value.text.inj he)]
    exact Params.get?_child_unlisted hr.canonical _ l
  · refine Params.get?_reset_of_ne hr hw hs (fun k hk => (hkeys k hk).1) text
      (Value.isName_text l) fun he => hl ?_
    rw [rootKey, hk, he]

end Resetting

/-- The name of a paging parameter in links, as a path. -/
theorem exists_namespaced {p : Pagination} (hp : p.IsNamed) {name : String} (hname : IsWord name) :
    ∃ s ks, p.namespaced (.text name) = .ok (.text (Params.nameOf (.text s) ks)) ∧ IsWord s ∧
      (∀ k ∈ ks, Params.IsKey k ∧ k.hasText = true) ∧ ks.length < Params.depthLimit ∧
      ∀ {params : Entries}, IsRead params → Params.entriesWritable params = true → ∀ text : String,
        p.Relinked params name text (Params.listifiedEntries (Params.reset params (.text s) ks text)) := by
  rcases hp.keyword with hk | ⟨s, hk, hs⟩
  · refine ⟨name, [], ?_, hname, by simp, by simp [Params.depthLimit], relinked_flat hk hname⟩
    rw [namespaced, hk]
    rfl
  · refine ⟨s, [.text name], ?_, hs, isKey_of_mem_word hname, by simp [Params.depthLimit],
      relinked_namespaced hk hs hname⟩
    rw [namespaced, hk]
    show Except.ok _ = _
    congr 2

/-- **The query of a link says what the request says**, but for the parameter that names the page. -/
theorem exists_link {p : Pagination} (hp : p.IsNamed) {name : String} (hname : IsWord name)
    {l : Links} (hl : p.namespaced (.text name) = .ok l.name) (hpath : l.path = .text "/")
    (hr : IsRead l.query) (hw : Params.entriesWritable l.query = true) {v : Value} {text : String}
    (hv : v.asText = .ok text) :
    ∃ url params', l.url v = .ok url ∧
      Params.ofQuery (Links.queryPart url) = .ok (.map params') ∧
      p.Relinked l.query name text params' := by
  obtain ⟨s, ks, hn, hs, hks, hlen, hrelinked⟩ := exists_namespaced hp hname
  have hn' : l.name = .text (Params.nameOf (.text s) ks) := Except.ok.inj (hl.symm.trans hn)
  obtain ⟨url, hurl, hquery⟩ := Links.exists_url hs hks hlen hn' hpath (by decide) hr hw hv
  exact ⟨url, _, hurl, hquery, hrelinked hr hw text⟩

theorem Relinked.state {p : Pagination} (hp : p.IsNamed) {params params' : Entries}
    {name text : String} (h : p.Relinked params name text params') :
    p.state params' = p.stateOf (p.bucket params') := by
  refine state_of_bucket hp fun he => ?_
  have := h.new
  rw [he] at this
  cases this

theorem Relinked.parameter {p : Pagination} {params params' : Entries} {name text : String}
    (h : p.Relinked params name text params') {l : String} (hl : l ≠ name) :
    (p.bucket params').parameter (.text l) = (p.bucket params).parameter (.text l) := by
  rw [Entries.parameter_text, Entries.parameter_text, h.others l hl]

theorem Relinked.perPage {p : Pagination} (hp : p.IsNamed) {params params' : Entries}
    {name text : String} (h : p.Relinked params name text params')
    (hname : .text name ≠ p.settings.perPageKeyword) :
    p.perPage (p.bucket params') = p.perPage (p.bucket params) := by
  obtain ⟨s, hs, -⟩ := hp.perPage
  unfold Pagination.perPage
  dsimp only
  rw [hs, h.parameter fun he => hname (by rw [hs, he])]

/-- **A link to a cursor keeps the page size** and the page number. -/
theorem stateOf_relinked_cursor {p : Pagination} (hp : p.IsNamed) {params params' : Entries}
    {name token : String} (hname : p.settings.cursorKeyword = .text name)
    (h : p.Relinked params name token params') {state : PagingState}
    (hstate : p.stateOf (p.bucket params) = .ok state)
    (htoken : (Value.text token).isEmpty = false) :
    p.stateOf (p.bucket params') = .ok { state with cursor := .text token } := by
  have hperPage := h.perPage hp fun he => hp.cursor_ne_perPage (hname.trans he)
  obtain ⟨t, ht, -⟩ := hp.page
  have hpage : p.page (p.bucket params') = p.page (p.bucket params) := by
    unfold page
    dsimp only
    rw [ht, h.parameter fun he => hp.page_ne_cursor (by rw [hname, ht, he])]
  have hcursor : (p.bucket params').parameter (.text name) = .ok (.text token) := by
    rw [Entries.parameter_text, h.new]
    rfl
  unfold stateOf at hstate ⊢
  rw [hperPage, hpage, hname, hcursor]
  obtain ⟨size, hsize, hstate⟩ := bind_eq_ok_iff.1 hstate
  obtain ⟨number, hnumber, hstate⟩ := bind_eq_ok_iff.1 hstate
  obtain ⟨cursor, -, hstate⟩ := bind_eq_ok_iff.1 hstate
  obtain rfl := Except.ok.inj hstate
  simp [hsize, hnumber, htoken]

/-- **A link to a page number keeps the page size** and the cursor. -/
theorem stateOf_relinked_page {p : Pagination} (hp : p.IsNamed) {params params' : Entries}
    {name : String} (hname : p.settings.pageKeyword = .text name) {k : Nat}
    (hk : k + 1 < integerLimit) (h : p.Relinked params name (intText (k + 1 : Nat)) params')
    {state : PagingState} (hstate : p.stateOf (p.bucket params) = .ok state) :
    p.stateOf (p.bucket params') = .ok { state with page := some (k + 1 : Nat) } := by
  have hperPage := h.perPage hp fun he => hp.page_ne_perPage (hname.trans he)
  obtain ⟨t, ht, -⟩ := hp.cursor
  have ht' : t ≠ name := fun he => hp.page_ne_cursor (by rw [hname, ht, he])
  have hraw : (p.bucket params').parameter (.text name) = .ok (.text (intText (k + 1 : Nat))) := by
    rw [Entries.parameter_text, h.new]
    rfl
  have htoken : (Value.text (intText (k + 1 : Nat))).isIntegerToken = true := by
    rw [Value.isIntegerToken, intText_natCast, natText_toList, Bool.and_eq_true]
    constructor
    · simpa using Text.natDigits_ne_nil (k + 1)
    · rw [List.all_eq_true]
      exact fun c hc => Text.isAsciiDigit_of_mem_natDigits hc
  have hint : (Value.text (intText (k + 1 : Nat))).toInt = .ok ((k + 1 : Nat) : Int) := by
    rw [Value.toInt, Number.readInteger?_intText (by omega)]
    rfl
  have hpage : p.page (p.bucket params') = .ok (some ((k + 1 : Nat) : Int)) := by
    unfold page
    dsimp only
    rw [hname, hraw]
    simp only [ok_bind, integer?, htoken, if_true, hint, ok_map]
    rw [if_neg (by omega)]
    rfl
  unfold stateOf at hstate ⊢
  rw [hperPage, hpage, ht, h.parameter ht']
  rw [ht] at hstate
  obtain ⟨size, hsize, hstate⟩ := bind_eq_ok_iff.1 hstate
  obtain ⟨number, -, hstate⟩ := bind_eq_ok_iff.1 hstate
  obtain ⟨cursor, hcursor, hstate⟩ := bind_eq_ok_iff.1 hstate
  obtain rfl := Except.ok.inj hstate
  simp [hsize, hcursor]

/-- The state of a bucket that holds nothing. -/
theorem stateOf_nil {p : Pagination} (hp : p.IsNamed) :
    p.stateOf [] = .ok { perPage := p.settings.standard } := by
  obtain ⟨s, hs, -⟩ := hp.perPage
  obtain ⟨t, ht, -⟩ := hp.page
  obtain ⟨u, hu, -⟩ := hp.cursor
  unfold stateOf perPage page
  rw [hs, ht, hu]
  rfl

end Pagination

end Listing
