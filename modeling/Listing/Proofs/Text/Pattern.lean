import Listing.Text.Pattern
import Mathlib.Data.List.Infix

/-!
# Patterns that hold a text

The pattern of the texts that hold a given one is written with backslashes where characters of the text
would mean something else, and is read back as these characters between two runs of any
(`Text.parts_containing`). So a text fits it exactly if the given one is a part of it without gaps
(`Text.matchesParts_containing`).
-/

namespace Listing.Text

/-! ## Reading patterns -/

/-- A character that is no backslash stands for what it does, whatever is behind it. -/
theorem parts_cons {c : Char} (hc : c ≠ '\\') (cs : List Char) :
    parts (c :: cs) = .ofChar c :: parts cs := by
  cases cs with
  | nil => simp [parts, hc]
  | cons d cs => rw [parts, if_neg hc]

/-- A character after a backslash stands for itself. -/
theorem parts_backslash (c : Char) (cs : List Char) : parts ('\\' :: c :: cs) = .exactly c :: parts cs := by
  rw [parts, if_pos rfl]

/-- **A character that is escaped where it has to be** stands for itself. -/
theorem parts_escapeChar (c : Char) (cs : List Char) :
    parts (escapeChar c ++ cs) = .exactly c :: parts cs := by
  unfold escapeChar
  split
  · exact parts_backslash c cs
  · next hplain =>
    simp only [Bool.or_eq_true, decide_eq_true_eq, not_or] at hplain
    obtain ⟨⟨hbackslash, hrun⟩, hany⟩ := hplain
    rw [List.singleton_append, parts_cons hbackslash, Part.ofChar, if_neg hrun, if_neg hany]

theorem parts_flatMap_escapeChar (cs ds : List Char) :
    parts (cs.flatMap escapeChar ++ ds) = cs.map .exactly ++ parts ds := by
  induction cs with
  | nil => rfl
  | cons c cs ih =>
    rw [List.flatMap_cons, List.append_assoc, parts_escapeChar, ih, List.map_cons, List.cons_append]

/-- **The pattern of the texts that hold a text** is read as its characters between two runs. -/
theorem parts_containing (s : String) :
    parts (containing s).toList = .anyRun :: (s.toList.map .exactly ++ [.anyRun]) := by
  rw [containing, String.toList_ofList, List.cons_append, parts_cons (by decide), parts_flatMap_escapeChar]
  rfl

/-! ## Fitting patterns -/

variable {same : Char → Char → Bool}

theorem matchesParts_run (ds : List Char) : matchesParts same [.anyRun] ds = true := by
  induction ds with
  | nil => simp [matchesParts]
  | cons d ds ih => rw [matchesParts, ih, Bool.or_true]

/-- A text fits a run before other parts if the rest of it, from some place on, fits these. -/
theorem matchesParts_anyRun {ps : List Part} {ds : List Char} :
    matchesParts same (.anyRun :: ps) ds = true ↔ ∃ rest, rest <:+ ds ∧ matchesParts same ps rest = true := by
  induction ds with
  | nil => simp [matchesParts]
  | cons d ds ih =>
    rw [matchesParts, Bool.or_eq_true, ih]
    constructor
    · rintro (h | ⟨rest, hrest, h⟩)
      · exact ⟨_, List.suffix_rfl, h⟩
      · exact ⟨rest, hrest.trans (List.suffix_cons d ds), h⟩
    · rintro ⟨rest, hrest, h⟩
      rcases List.suffix_cons_iff.1 hrest with rfl | hrest
      · exact .inl h
      · exact .inr ⟨rest, hrest, h⟩

/-- A text fits characters before a run if it begins with them. -/
theorem matchesParts_exactly {cs ds : List Char} :
    matchesParts (· == ·) (cs.map .exactly ++ [.anyRun]) ds = true ↔ cs <+: ds := by
  induction cs generalizing ds with
  | nil => simp [matchesParts_run]
  | cons c cs ih =>
    rw [List.map_cons, List.cons_append]
    cases ds with
    | nil => simp [matchesParts]
    | cons d ds => rw [matchesParts, Bool.and_eq_true, beq_iff_eq, ih, List.cons_prefix_cons]

/-- **A text fits the pattern of the texts that hold another one** if the other one is a part of it. -/
theorem matchesParts_containing {s : String} {ds : List Char} :
    matchesParts (· == ·) (parts (containing s).toList) ds = true ↔ s.toList <:+: ds := by
  rw [parts_containing, matchesParts_anyRun, List.infix_iff_prefix_suffix]
  simp only [matchesParts_exactly]
  exact exists_congr fun rest => and_comm

end Listing.Text
