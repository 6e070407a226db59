import Listing.Proofs.Number.Compare
import Listing.Proofs.Number.Quotient
import Mathlib.Order.Bounds.Basic

/-!
# Counted pages

A page that comes with the number of all rows knows the number of the last page, or is not made at
all. Whether that number is the least one that holds all rows, and whether the page knows rightly if
there are rows after it, hangs on the rounding of one quotient: `NumberedPage.counted_cases`. Both hold
for fewer than `2 ^ 53` rows, and not always from there on.
-/

namespace Listing

/-- The number of pages is the least possible one exactly if rounding keeps it. -/
theorem isLeast_pages_iff {total perPage last : Nat} (hp : 0 < perPage)
    (hlast : last = max (Number.ceilingOf total perPage) 1 ↔ Number.KeepsCeiling total perPage) :
    IsLeast {n | 1 ≤ n ∧ total ≤ n * perPage} last ↔ Number.KeepsCeiling total perPage :=
  ⟨fun h => hlast.1 (h.unique (isLeast_pages total hp)),
    fun h => hlast.2 h ▸ isLeast_pages total hp⟩

/-- The pages that have another one after them are those with rows after them exactly if rounding
keeps the number of pages. -/
theorem lt_last_iff {total perPage last : Nat} (hp : 0 < perPage) (hone : 1 ≤ last)
    (hlast : last = max (Number.ceilingOf total perPage) 1 ↔ Number.KeepsCeiling total perPage) :
    (∀ page : Nat, 0 < page → (page < last ↔ page * perPage < total)) ↔
      Number.KeepsCeiling total perPage := by
  rw [← hlast]
  constructor
  · intro h
    have hpages : ∀ page : Nat, 0 < page →
        (page < last ↔ page < max (Number.ceilingOf total perPage) 1) :=
      fun page hpage => (h page hpage).trans (lt_pages_iff total hp hpage).symm
    -- Each of the two numbers is no page before the other one.
    have hle := (hpages last hone).not.1 (Nat.lt_irrefl _)
    have hge := (hpages _ (Nat.le_max_right ..)).not.2 (Nat.lt_irrefl _)
    omega
  · rintro rfl page hpage
    exact lt_pages_iff total hp hpage

namespace NumberedPage

variable (items : Rows) (links : Links)

/-- A page is made exactly if its number of pages is. -/
theorem counted_eq (total perPage : Nat) (current : Int) :
    counted items (.int total) (.int perPage) (.int current) links =
      (lastPage total perPage).map fun last =>
        ⟨items, .int perPage, .int current, .bool (decide (current < last)),
          some ⟨.int total, last⟩, links⟩ := by
  unfold counted lastPageOf
  simp only [Value.integer?]
  cases lastPage total perPage with
  | error e => rfl
  | ok last =>
    rw [ok_bind, Value.less?_int]
    rfl

/-- **What a counted page knows of the last page.** A page is refused exactly where the quotient of the
two numbers is rounded to infinity. Otherwise it is made, for every number of the page, and knows the
least number of pages that hold all rows, and whether there are rows after the page, exactly if
rounding keeps the ceiling of the quotient; for fewer than `2 ^ 53` rows it does. -/
theorem counted_cases (total : Nat) {perPage : Nat} (hp : 0 < perPage) :
    (Binary64.overflowBound * perPage ≤ total → ∀ current : Int,
      counted items (.int total) (.int perPage) (.int current) links = .error .overflow) ∧
    (total < Binary64.overflowBound * perPage → ∃ last : Nat,
      (∀ current : Int, counted items (.int total) (.int perPage) (.int current) links =
        .ok ⟨items, .int perPage, .int current, .bool (decide (current < last)),
          some ⟨.int total, last⟩, links⟩) ∧
      (IsLeast {n | 1 ≤ n ∧ total ≤ n * perPage} last ↔ Number.KeepsCeiling total perPage) ∧
      ((∀ page : Nat, 0 < page → (page < last ↔ page * perPage < total)) ↔
        Number.KeepsCeiling total perPage)) ∧
    (total < 2 ^ 53 →
      total < Binary64.overflowBound * perPage ∧ Number.KeepsCeiling total perPage) := by
  obtain ⟨hnone, hsome⟩ := lastPage_cases total hp
  refine ⟨fun h current => ?refused, fun h => ?made, fun h => ?few⟩
  case refused =>
    rw [counted_eq, hnone h]
    rfl
  case made =>
    obtain ⟨last, hlast, hone, hiff⟩ := hsome h
    refine ⟨last, fun current => ?_, isLeast_pages_iff hp hiff, lt_last_iff hp hone hiff⟩
    rw [counted_eq, hlast]
    rfl
  case few => exact ⟨lt_overflowBound_mul h hp, Number.keepsCeiling_of_lt h hp⟩

/-- Seven rows on pages of three fill three pages. -/
theorem counted_cases_seven : ∃ last : Nat,
    (∀ current : Int, counted (.plain []) (.int 7) (.int 3) (.int current)
        { name := .text "page" } =
      .ok ⟨.plain [], .int 3, .int current, .bool (decide (current < last)), some ⟨.int 7, last⟩,
        { name := .text "page" }⟩) ∧
      IsLeast {n | 1 ≤ n ∧ 7 ≤ n * 3} last := by
  obtain ⟨-, hmade, hfew⟩ :=
    counted_cases (.plain []) { name := .text "page" } 7 (show 0 < 3 by decide)
  obtain ⟨hbound, hkeeps⟩ := hfew (by decide)
  obtain ⟨last, hlast, hleast, -⟩ := hmade hbound
  exact ⟨last, hlast, hleast.2 hkeeps⟩

/-- Two pages are counted as one. -/
example : ¬ Number.KeepsCeiling (2 ^ 53 + 1) (2 ^ 53) ∧
    Number.quotientCeiling? (2 ^ 53 + 1) (2 ^ 53) = some 1 := by decide +kernel

end NumberedPage

end Listing
