import Listing.Proofs.Number.Quotient
import Listing.Proofs.Relational.CursorPages
import Listing.Proofs.Source.Window

/-!
# Numbered pages of a query

A numbered page of a query holds its block of the rows (`Query.Lists.exists_paginate`), and the pages
up to the last one hold all rows, every one once (`Query.Lists.exists_numberedPages`).
-/

namespace Listing

namespace Query

variable {q : Query} {rows : List TableRow} {n : Nat}

/-- The number of the last page. -/
def lastNumber (rows : List TableRow) (n : Nat) : Nat := max (Number.ceilingOf rows.length n) 1

/-- **A numbered page** holds its block of the rows. -/
theorem Lists.exists_paginate (h : q.Lists rows) (hn : 0 < n) (hlimit : (n : Int) ≤ Parameter.maxInteger)
    (hcount : q.criterion.parameters.length + 2 ≤ Parameter.countLimit)
    (hrows : rows.length < 2 ^ 53) {k : Nat} (hk : k < lastNumber rows n) (name : Value) :
    ∃ p, q.paginate n (k + 1 : Nat) name = .ok p ∧
      p.items.identities = (((TableRow.sortBy q.sorting rows).map q.identity).drop (k * n)).take n ∧
      p.count.map PageCount.last = some (lastNumber rows n : Int) := by
  have hnumber : q.count = .ok rows.length := h.count_eq (by omega)
  have hoffset : (((k + 1 : Nat) : Int) - 1) * (n : Int) = ((k * n : Nat) : Int) := by simp
  have hlt : k * n ≤ rows.length := by
    rcases Nat.eq_zero_or_pos k with rfl | hpos
    · omega
    · exact Nat.le_of_lt ((lt_pages_iff rows.length hn hpos).1 hk)
  have hmax : (2 : Int) ^ 53 ≤ Parameter.maxInteger := by decide +kernel
  have hoffset_taken : ((k * n : Nat) : Int) ≤ Parameter.maxInteger := by omega
  obtain ⟨store, hstore⟩ := h.exists_fetch (isTaken_bounds hlimit hoffset_taken) hcount
  rw [cut_natCast] at hstore
  have hlast : lastPageOf (.int (rows.length : Nat)) (.int n) = .ok (lastNumber rows n : Nat) :=
    lastPage_eq hrows hn
  unfold paginate NumberedPage.counted
  simp only [hnumber, ok_bind, hoffset, hstore, hlast, pure_eq_ok, Value.less?_int]
  refine ⟨_, rfl, ?_, rfl⟩
  rw [identities_answer, List.map_take, List.map_drop]

/-- Are the pages all numbered pages, from the first to the last one? -/
def NumberedPages (q : Query) (n : Nat) (name : Value) (pages : List NumberedPage) : Prop :=
  List.Forall₂ (fun k p => q.paginate n (k + 1 : Nat) name = .ok p ∧
    p.count.map PageCount.last = some (pages.length : Int)) (List.range pages.length) pages

/-- **The numbered pages hold all rows**, every one once. -/
theorem Lists.exists_numberedPages (h : q.Lists rows) (hn : 0 < n)
    (hlimit : (n : Int) ≤ Parameter.maxInteger)
    (hcount : q.criterion.parameters.length + 2 ≤ Parameter.countLimit)
    (hrows : rows.length < 2 ^ 53) (name : Value) :
    ∃ pages, q.NumberedPages n name pages ∧
      pages.flatMap (·.items.identities) = (TableRow.sortBy q.sorting rows).map q.identity := by
  have hpages : ∀ m ≤ lastNumber rows n, ∃ pages : List NumberedPage, pages.length = m ∧
      List.Forall₂ (fun k p => q.paginate n (k + 1 : Nat) name = .ok p ∧
        p.count.map PageCount.last = some (lastNumber rows n : Int)) (List.range m) pages ∧
      pages.flatMap (·.items.identities) =
        ((TableRow.sortBy q.sorting rows).map q.identity).take (m * n) := by
    intro m
    induction m with
    | zero => exact fun _ => ⟨[], rfl, .nil, by simp⟩
    | succ m ih =>
      intro hm
      obtain ⟨pages, hlength, hpages, hidentities⟩ := ih (by omega)
      obtain ⟨p, hp, hitems, hlast⟩ := h.exists_paginate hn hlimit hcount hrows hm name
      refine ⟨pages ++ [p], by simp [hlength], ?_, ?_⟩
      · rw [List.range_succ]
        exact List.rel_append hpages (.cons ⟨hp, hlast⟩ .nil)
      · rw [List.flatMap_append, hidentities, List.flatMap_singleton, hitems, Nat.add_mul,
          Nat.one_mul, List.take_add]
  obtain ⟨pages, hlength, hforall, hidentities⟩ := hpages _ (Nat.le_refl _)
  have hceiling := (Number.ceilingOf_le_iff (a := rows.length) (n := lastNumber rows n) hn).1
    (Nat.le_max_left ..)
  refine ⟨pages, by rwa [NumberedPages, hlength],
    hidentities.trans (List.take_of_length_le ?_)⟩
  rw [List.length_map, (TableRow.sortBy_perm q.sorting rows).length_eq]
  exact hceiling

end Query

end Listing
