import Listing.Proofs.Params.Link

/-!
# The query of a link

A link writes the parameters that it carries and the one that names the page. Read as a query string,
what it writes after the question mark is the carried parameters with that one set anew:
`Links.exists_url`. A link whose parameters cannot be written fails (`Links.url_unwritable`).
-/

namespace Listing

namespace Links

/-- What a link writes after its first question mark. -/
def queryPart (url : String) : String := ((Text.cutFirst '?' url).map Prod.snd).getD ""

theorem queryPart_append {path : String} (h : '?' ∉ path.toList) (query : String) :
    queryPart (path ++ "?" ++ query) = query := by
  have hs : path ++ "?" ++ query = String.ofList (path.toList ++ '?' :: query.toList) := by
    apply String.toList_injective
    simp
  rw [queryPart, hs, Text.cutFirst_append h]
  simp

/-- A query string with no question mark in front is read by its pairs. -/
theorem ofQuery_render (ps : List (String × String)) :
    Params.ofQuery (QueryString.render ps) = Params.ofPairs (Params.textPairs ps) := by
  have hdrop : (QueryString.render ps).toList.dropWhile (· == '?') =
      (QueryString.render ps).toList := by
    have hmem : '?' ∉ (QueryString.render ps).toList := by
      rw [QueryString.render, String.toList_ofList]
      exact QueryString.not_mem_renderChars (by decide) (by decide) (by decide) ps
    cases hcs : (QueryString.render ps).toList with
    | nil => rfl
    | cons c cs =>
      have hc : (c == '?') = false := by
        rw [beq_eq_false_iff_ne]
        rintro rfl
        exact hmem (hcs ▸ List.mem_cons_self ..)
      rw [List.dropWhile_cons, hc]
      rfl
  rw [Params.ofQuery, hdrop, String.ofList_toList, Params.pairsOf, QueryString.parse_render]
  rfl

theorem carried_eq {l : Links} {name : String} (h : l.name = .text name) :
    l.carried = (Params.flatten l.query).filter fun p => p.1 ≠ name := by
  rw [carried, h]
  congr 1
  funext p
  by_cases hp : p.1 = name
  · have he : (Value.text p.1).equal (.text name) = true := by rw [Value.equal_text, hp]
    rw [he, decide_eq_false (by simpa using hp)]
    rfl
  · have he : (Value.text p.1).equal (.text name) = false := by
      rw [← Bool.not_eq_true, Value.equal_text]
      exact fun h => hp (Value.text.inj h)
    rw [he, decide_eq_true hp]
    rfl

/-- A link to a page, if the parameters that it carries can be written. -/
theorem url_eq {l : Links} {name path : String} (hn : l.name = .text name)
    (hp : l.path = .text path) (hw : Params.entriesWritable l.query = true) {v : Value} {t : String}
    (hv : v.asText = .ok t) :
    l.url v = .ok (path ++ "?" ++ QueryString.render (l.carried ++ [(name, t)])) := by
  have hpath : l.path.asText = .ok path := by rw [hp]; rfl
  have hname : l.nameChars = .ok (Percent.encode name) := by
    rw [nameChars, hn]
    rfl
  unfold url
  simp only [hw, Bool.not_true, Bool.false_eq_true, if_false, hv, hname, hpath, ok_bind,
    pure_eq_ok, QueryString.render, QueryString.renderChars, List.map_append]
  rfl

/-- A link whose parameters cannot be written is none. -/
theorem url_unwritable {l : Links} (hw : Params.entriesWritable l.query = false) (v : Value) :
    l.url v = .error .badValue := by
  unfold url
  rw [hw]
  rfl

theorem writable_of_url {l : Links} {v : Value} {url : String} (h : l.url v = .ok url) :
    Params.entriesWritable l.query = true := by
  cases hw : Params.entriesWritable l.query with
  | true => rfl
  | false =>
    rw [url_unwritable hw] at h
    cases h

/-- A link is read as the places that it carries, with the one that names the page. -/
theorem exists_url_pairs {l : Links} {path name : String} (hn : l.name = .text name)
    (hp : l.path = .text path) (hq : '?' ∉ path.toList) (hw : Params.entriesWritable l.query = true)
    {v : Value} {t : String} (hv : v.asText = .ok t) :
    ∃ url, l.url v = .ok url ∧ Params.ofQuery (queryPart url) = Params.ofPairs (Params.textPairs
      ((Params.flatten l.query).filter (fun p => p.1 ≠ name) ++ [(name, t)])) := by
  refine ⟨_, url_eq hn hp hw hv, ?_⟩
  rw [queryPart_append hq, ofQuery_render, carried_eq hn]

/-- **A link is read as the parameters that it carries, with the one that names the page set anew.** -/
theorem exists_url {l : Links} {path s : String} {ks : List Value} (hs : Params.IsWord s)
    (hks : ∀ k ∈ ks, Params.IsKey k ∧ k.hasText = true) (hlen : ks.length < Params.depthLimit)
    (hn : l.name = .text (Params.nameOf (.text s) ks)) (hp : l.path = .text path)
    (hq : '?' ∉ path.toList) (hr : Params.IsRead l.query)
    (hw : Params.entriesWritable l.query = true) {v : Value} {t : String} (hv : v.asText = .ok t) :
    ∃ url, l.url v = .ok url ∧ Params.ofQuery (queryPart url) =
      .ok (.map (Params.listifiedEntries (Params.reset l.query (.text s) ks t))) := by
  obtain ⟨url, hurl, hquery⟩ := exists_url_pairs hn hp hq hw hv
  exact ⟨url, hurl, hquery.trans (Params.ofPairs_reset hr hw hs hks hlen t).1⟩

end Links

end Listing
