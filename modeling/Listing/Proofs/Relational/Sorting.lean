import Mathlib.Data.List.Pairwise

/-!
# Sorting by a comparison

For a comparison that is transitive and oriented, sorting commutes with leaving items out
(`filter_mergeSort`), and sorting the other way round gives the reversed list, as long as no two
items compare as equal (`mergeSort_flip`).

Items that tie keep their order, and that order and the comparison tell what a sorted list is
(`eq_of_ties`). So sorting by two comparisons one after the other is sorting by both
(`mergeSort_compareLex`), and the reversed list can be sorted the other way round instead
(`reverse_mergeSort`).
-/

namespace Listing

open Std

variable {α : Type} {cmp : α → α → Ordering}

/-- Does an item come before another one, or tie with it? -/
def atMost (cmp : α → α → Ordering) (a b : α) : Bool := cmp a b != .gt

theorem atMost_iff {a b : α} : atMost cmp a b = true ↔ (cmp a b).isLE = true := by
  unfold atMost
  cases cmp a b <;> decide

theorem atMost_trans [TransCmp cmp] (a b c : α) (h₁ : atMost cmp a b = true)
    (h₂ : atMost cmp b c = true) : atMost cmp a c = true := by
  rw [atMost_iff] at h₁ h₂ ⊢
  exact TransCmp.isLE_trans h₁ h₂

theorem atMost_total [TransCmp cmp] (a b : α) : (atMost cmp a b || atMost cmp b a) = true := by
  unfold atMost
  rw [show cmp b a = (cmp a b).swap from OrientedCmp.eq_swap]
  cases cmp a b <;> decide

/-- The part of a list before the items that an item is not after ends at one place. -/
theorem append_eq_append_of_all {p : α → Bool} {as bs cs ds : List α}
    (ha : ∀ a ∈ as, p a = false) (hb : ∀ b ∈ bs, p b = true) (hc : ∀ c ∈ cs, p c = false)
    (hd : ∀ d ∈ ds, p d = true) (h : as ++ bs = cs ++ ds) : as = cs ∧ bs = ds := by
  have hdrop : ∀ {xs ys : List α}, (∀ x ∈ xs, p x = false) → (∀ y ∈ ys, p y = true) →
      (xs ++ ys).filter p = ys ∧ (xs ++ ys).filter (fun x => !p x) = xs := by
    intro xs ys hx hy
    rw [List.filter_append, List.filter_append, List.filter_eq_nil_iff.2 (by simpa using hx),
      List.filter_eq_self.2 hy, List.filter_eq_self.2 (by simpa using hx),
      List.filter_eq_nil_iff.2 (by simpa using hy), List.append_nil, List.nil_append]
    exact ⟨rfl, rfl⟩
  have hl := hdrop ha hb
  rw [h] at hl
  exact ⟨hl.2.symm.trans (hdrop hc hd).2, hl.1.symm.trans (hdrop hc hd).1⟩

/-- **Sorting commutes with leaving items out.** -/
theorem filter_mergeSort [TransCmp cmp] (p : α → Bool) (l : List α) :
    (l.mergeSort (atMost cmp)).filter p = (l.filter p).mergeSort (atMost cmp) := by
  induction l with
  | nil => simp
  | cons a l ih =>
    obtain ⟨bs, cs, hcons, hsort, hbs⟩ :=
      @List.mergeSort_cons α (atMost cmp) atMost_trans atMost_total a l
    have hfilter : (bs ++ cs).filter p = (l.filter p).mergeSort (atMost cmp) := by rw [← hsort, ih]
    rw [hcons, List.filter_append, List.filter_cons, List.filter_cons]
    cases hp : p a with
    | false => simpa [List.filter_append] using hfilter
    | true =>
      obtain ⟨bs', cs', hcons', hsort', hbs'⟩ :=
        @List.mergeSort_cons α (atMost cmp) atMost_trans atMost_total a (l.filter p)
      have hsorted : ∀ {xs ys zs : List α}, (a :: xs).mergeSort (atMost cmp) = ys ++ a :: zs →
          ∀ z ∈ zs, atMost cmp a z = true := by
        intro xs ys zs h z hz
        have hpair := @List.pairwise_mergeSort α (atMost cmp) atMost_trans atMost_total (a :: xs)
        rw [h, List.pairwise_append, List.pairwise_cons] at hpair
        exact hpair.2.1.1 z hz
      obtain ⟨hb, hc⟩ := @append_eq_append_of_all α (atMost cmp a) bs' cs' (bs.filter p)
        (cs.filter p)
        (fun b hb => by simpa using hbs' b hb) (hsorted hcons')
        (fun b hb => by simpa using hbs b (List.mem_filter.1 hb).1)
        (fun c hc => hsorted hcons c (List.mem_filter.1 hc).1)
        (by rw [← hsort', ← hfilter, List.filter_append])
      simp only [if_true]
      rw [hcons', hb, hc]

/-- **Sorting the other way round reverses** a list without ties. -/
theorem mergeSort_flip [TransCmp cmp] {l : List α} (h : l.Pairwise fun a b => cmp a b ≠ .eq) :
    l.mergeSort (atMost fun a b => cmp b a) = (l.mergeSort (atMost cmp)).reverse := by
  have hsymm : Std.Symm fun a b => cmp a b ≠ .eq :=
    ⟨fun a b hne heq => hne (OrientedCmp.eq_comm.1 heq)⟩
  have hflip : TransCmp fun a b => cmp b a := TransCmp.opposite
  refine @List.Perm.eq_of_pairwise α (fun a b => atMost (fun a b => cmp b a) a b) _ _ ?_
    (List.pairwise_mergeSort atMost_trans atMost_total l) ?_ ?_
  · intro a b ha hb h₁ h₂
    by_contra hab
    refine h.forall (List.mem_mergeSort.1 ha) (List.mem_mergeSort.1 (List.mem_reverse.1 hb)) hab ?_
    rw [atMost_iff] at h₁ h₂
    exact OrientedCmp.isLE_antisymm h₂ h₁
  · rw [List.pairwise_reverse]
    exact @List.pairwise_mergeSort α (atMost cmp) atMost_trans atMost_total l
  · exact (List.mergeSort_perm l _).trans
      ((List.reverse_perm _).trans (List.mergeSort_perm l _)).symm

/-! ## Ties -/

/-- Do two items compare as equal? -/
def ties (cmp : α → α → Ordering) (a b : α) : Bool := cmp a b == .eq

theorem ties_of_eq {a b : α} (h : cmp a b = .eq) : ties cmp a b = true := by
  rw [ties, h]
  rfl

theorem ties_self [TransCmp cmp] (a : α) : ties cmp a a = true := ties_of_eq ReflCmp.compare_self

theorem atMost_self [TransCmp cmp] (a : α) : atMost cmp a a = true := by
  rw [atMost_iff, show cmp a a = .eq from ReflCmp.compare_self]
  rfl

/-- **Items that tie keep their order.** -/
theorem filter_ties_mergeSort [TransCmp cmp] (a : α) (l : List α) :
    (l.mergeSort (atMost cmp)).filter (ties cmp a) = l.filter (ties cmp a) := by
  rw [filter_mergeSort]
  refine List.mergeSort_of_pairwise (List.pairwise_of_forall_mem_list fun b hb c hc => ?_)
  have hb : cmp a b = .eq := beq_iff_eq.1 (List.mem_filter.1 hb).2
  have hc : cmp a c = .eq := beq_iff_eq.1 (List.mem_filter.1 hc).2
  rw [atMost, TransCmp.eq_trans (OrientedCmp.eq_symm hb) hc]
  rfl

theorem exists_cons_of_filter {p : α → Bool} {a : α} {xs ys : List α} (ha : p a = true)
    (h : (a :: xs).filter p = ys.filter p) : ∃ b ys', ys = b :: ys' ∧ a ∈ ys := by
  have hmem : a ∈ ys.filter p := by
    rw [← h]
    exact List.mem_filter.2 ⟨List.mem_cons_self .., ha⟩
  have hmem := (List.mem_filter.1 hmem).1
  obtain ⟨b, ys', rfl⟩ := List.exists_cons_of_ne_nil (List.ne_nil_of_mem hmem)
  exact ⟨b, ys', rfl, hmem⟩

/-- **A sorted list is told by the order in which it has the items that tie.** -/
theorem eq_of_ties [TransCmp cmp] {xs ys : List α} (hx : xs.Pairwise fun a b => atMost cmp a b = true)
    (hy : ys.Pairwise fun a b => atMost cmp a b = true)
    (h : ∀ a, xs.filter (ties cmp a) = ys.filter (ties cmp a)) : xs = ys := by
  induction xs generalizing ys with
  | nil =>
    cases ys with
    | nil => rfl
    | cons b ys =>
      have hb := h b
      rw [List.filter_nil, List.filter_cons, if_pos (ties_self b)] at hb
      cases hb
  | cons a xs ih =>
    obtain ⟨b, ys, rfl, ha⟩ := exists_cons_of_filter (ties_self a) (h a)
    obtain ⟨-, -, -, hb⟩ := exists_cons_of_filter (ties_self b) (h b).symm
    rw [List.pairwise_cons] at hx hy
    -- Either head is at most the other one, so they tie, and the first items that tie with them are they.
    have hab : atMost cmp a b = true := by
      rcases List.mem_cons.1 hb with rfl | hb
      · exact atMost_self _
      · exact hx.1 b hb
    have hba : atMost cmp b a = true := by
      rcases List.mem_cons.1 ha with rfl | ha
      · exact atMost_self _
      · exact hy.1 a ha
    have htie : cmp a b = .eq :=
      OrientedCmp.isLE_antisymm (atMost_iff.1 hab) (atMost_iff.1 hba)
    have hheads := h a
    rw [List.filter_cons_of_pos (ties_self a), List.filter_cons_of_pos (ties_of_eq htie)] at hheads
    obtain ⟨rfl, hrest⟩ := List.cons.inj hheads
    congr 1
    refine ih hx.2 hy.2 fun c => ?_
    have hc := h c
    rw [List.filter_cons, List.filter_cons] at hc
    split at hc
    · exact (List.cons.inj hc).2
    · exact hc

variable {cmp' : α → α → Ordering}

theorem ties_compareLex (a b : α) :
    ties (compareLex cmp cmp') a b = (ties cmp a b && ties cmp' a b) := by
  unfold ties compareLex
  cases cmp a b <;> cases cmp' a b <;> rfl

/-- **Sorting by two comparisons** is sorting by the second one and then by the first one. -/
theorem mergeSort_compareLex [TransCmp cmp] [TransCmp cmp'] (l : List α) :
    l.mergeSort (atMost (compareLex cmp cmp')) =
      (l.mergeSort (atMost cmp')).mergeSort (atMost cmp) := by
  refine eq_of_ties (List.pairwise_mergeSort atMost_trans atMost_total l) ?sorted fun a => ?ties
  case sorted =>
    rw [List.pairwise_iff_forall_sublist]
    intro a b hab
    have hle := List.pairwise_iff_forall_sublist.1
      (List.pairwise_mergeSort atMost_trans atMost_total (l.mergeSort (atMost cmp'))) hab
    rw [atMost, compareLex]
    cases hcmp : cmp a b with
    | lt => rfl
    | gt =>
      rw [atMost, hcmp] at hle
      cases hle
    | eq =>
      have hfilter := hab.filter (ties cmp a)
      rw [filter_ties_mergeSort, List.filter_cons_of_pos (ties_self a),
        List.filter_cons_of_pos (ties_of_eq hcmp), List.filter_nil] at hfilter
      exact List.pairwise_iff_forall_sublist.1
        (List.pairwise_mergeSort atMost_trans atMost_total l) (hfilter.trans List.filter_sublist)
  case ties =>
    have hfirst : ∀ xs : List α, xs.filter (ties (compareLex cmp cmp') a) =
        (xs.filter (ties cmp a)).filter (ties cmp' a) := fun xs => by
      rw [List.filter_filter]
      exact List.filter_congr fun b _ => by rw [ties_compareLex, Bool.and_comm]
    have hsecond : ∀ xs : List α, (xs.filter (ties cmp a)).filter (ties cmp' a) =
        (xs.filter (ties cmp' a)).filter (ties cmp a) := fun xs => by
      rw [List.filter_filter, List.filter_filter]
      exact List.filter_congr fun b _ => Bool.and_comm ..
    rw [filter_ties_mergeSort, hfirst, hfirst, filter_ties_mergeSort, hsecond, hsecond,
      filter_ties_mergeSort]

/-- **The reversed list can be sorted the other way round.** -/
theorem reverse_mergeSort [TransCmp cmp] (l : List α) :
    (l.reverse.mergeSort (atMost cmp)).reverse = l.mergeSort (atMost fun a b => cmp b a) := by
  have hflip : TransCmp fun a b => cmp b a := TransCmp.opposite
  refine eq_of_ties ?_ (List.pairwise_mergeSort atMost_trans atMost_total l) fun a => ?_
  · rw [List.pairwise_reverse]
    exact List.pairwise_mergeSort (@atMost_trans _ cmp _) (@atMost_total _ cmp _) l.reverse
  · have hties : ties (fun a b => cmp b a) a = ties cmp a := by
      funext b
      rw [ties, ties, show cmp b a = (cmp a b).swap from OrientedCmp.eq_swap]
      cases cmp a b <;> rfl
    rw [filter_ties_mergeSort, hties, List.filter_reverse, filter_ties_mergeSort,
      List.filter_reverse, List.reverse_reverse]

end Listing
