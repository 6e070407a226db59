import Listing.Proofs.Number.Compare
import Listing.Proofs.Outcome
import Listing.Source.Sorting
import Listing.Value.Kind

/-!
# Values that one total order compares

Not all values compare, and not all that do are in one order. `Value.Comparable` says that there is a
total order by which any two of some values compare. Null compares with nothing, and as a key of sorting
it is the lowest value: `Value.order`. So where the values that are not null are comparable, the keys are
in one order, which is that order (`Value.Comparable.exists_order`), and they can be sorted
(`Value.haveOrder_of_keyOrder?`).
-/

namespace Listing

open Std

namespace Value

/-- Is there a total order by which all these values compare? -/
def Comparable (vs : List Value) : Prop :=
  ∃ cmp : Value → Value → Ordering, TransCmp cmp ∧ ∀ v ∈ vs, ∀ w ∈ vs,
    v.compare? w = .ok (some (cmp v w)) ∧ v.equal? w = .ok (cmp v w == .eq)

/-- An order of values with null as the lowest one. -/
def nullFirst (cmp : Value → Value → Ordering) (v w : Value) : Ordering :=
  if v.isNull then if w.isNull then .eq else .lt
  else if w.isNull then .gt else cmp v w

/-- The order of two values: null is the lowest one, and others are in order as they compare. Values
that do not compare are level with each other. -/
def order : Value → Value → Ordering :=
  nullFirst fun v w => match v.compare? w with
    | .ok (some o) => o
    | _ => .eq

theorem isNull_iff {v : Value} : v.isNull = true ↔ v = .null := by
  cases v <;> simp [isNull]

instance (cmp : Value → Value → Ordering) [TransCmp cmp] : TransCmp (nullFirst cmp) where
  eq_swap := by
    intro v w
    simp only [nullFirst]
    cases v.isNull <;> cases w.isNull
    case false.false => exact @OrientedCmp.eq_swap _ cmp _ _ _
    all_goals rfl
  isLE_trans := by
    intro u v w huv hvw
    simp only [nullFirst] at huv hvw ⊢
    generalize u.isNull = i at *
    generalize v.isNull = j at *
    generalize w.isNull = k at *
    cases i <;> cases j <;> cases k
    case false.false.false => exact @TransCmp.isLE_trans _ cmp _ _ _ _ huv hvw
    all_goals first | rfl | cases huv | cases hvw

/-- Null is below what is not null. -/
theorem nullFirst_null {cmp : Value → Value → Ordering} {v : Value} (h : v.isNull = false) :
    nullFirst cmp .null v = .lt ∧ nullFirst cmp v .null = .gt := by
  simp only [nullFirst, h]
  exact ⟨rfl, rfl⟩

/-- Keys that are not null are level where they are equal, and otherwise in order as they compare. -/
theorem keyOrder?_of_not_null {v w : Value} (hv : v.isNull = false) (hw : w.isNull = false) :
    keyOrder? v w = (do if ← v.equal? w then return some .eq else v.compare? w) := by
  unfold keyOrder?
  split
  · cases hv
  · cases hv
  · cases hw
  · rfl

variable {vs : List Value}

/-- **Keys of comparable values are in one order**, null being the lowest one. -/
theorem Comparable.exists_order (h : Comparable (vs.filter fun v => !v.isNull)) :
    ∃ cmp : Value → Value → Ordering, TransCmp cmp ∧ ∀ v ∈ vs, ∀ w ∈ vs,
      order v w = cmp v w ∧ keyOrder? v w = .ok (some (cmp v w)) := by
  obtain ⟨cmp, htrans, hcmp⟩ := h
  refine ⟨nullFirst cmp, inferInstance, fun v hv w hw => ?_⟩
  cases hvnull : v.isNull with
  | true =>
    obtain rfl := isNull_iff.1 hvnull
    cases hwnull : w.isNull with
    | true =>
      obtain rfl := isNull_iff.1 hwnull
      exact ⟨rfl, rfl⟩
    | false =>
      have hkey : keyOrder? .null w = .ok (some .lt) := by
        cases w <;> first | rfl | cases hwnull
      rw [order, (nullFirst_null hwnull).1, (nullFirst_null hwnull).1]
      exact ⟨rfl, hkey⟩
  | false =>
    cases hwnull : w.isNull with
    | true =>
      obtain rfl := isNull_iff.1 hwnull
      have hkey : keyOrder? v .null = .ok (some .gt) := by
        cases v <;> first | rfl | cases hvnull
      rw [order, (nullFirst_null hvnull).2, (nullFirst_null hvnull).2]
      exact ⟨rfl, hkey⟩
    | false =>
      obtain ⟨hcompare, hequal⟩ := hcmp v (List.mem_filter.2 ⟨hv, by rw [hvnull]; rfl⟩) w
        (List.mem_filter.2 ⟨hw, by rw [hwnull]; rfl⟩)
      rw [keyOrder?_of_not_null hvnull hwnull, hequal, ok_bind, hcompare]
      simp only [order, nullFirst, hvnull, hwnull, hcompare, Bool.false_eq_true, if_false]
      exact ⟨trivial, by cases cmp v w <;> rfl⟩

theorem allInOrder_of_forall (h : ∀ v ∈ vs, ∀ w ∈ vs, inOrder v w = true) : allInOrder vs = true := by
  induction vs with
  | nil => rfl
  | cons v vs ih =>
    have hv : ∀ w ∈ v :: vs, inOrder v w = true := h v (List.mem_cons_self ..)
    have hw : ∀ w ∈ vs, inOrder w v = true := fun w hw =>
      h w (List.mem_cons_of_mem _ hw) v (List.mem_cons_self ..)
    have hrest : allInOrder vs = true := ih fun u hu w hw =>
      h u (List.mem_cons_of_mem _ hu) w (List.mem_cons_of_mem _ hw)
    have hall : (vs.all fun w => inOrder v w && inOrder w v) = true :=
      List.all_eq_true.2 fun w hmem => by rw [hv w (List.mem_cons_of_mem _ hmem), hw w hmem]; rfl
    rw [allInOrder, hv v (List.mem_cons_self ..), hall, hrest]
    rfl

/-- **Keys in one order can be sorted.** -/
theorem haveOrder_of_keyOrder? {cmp : Value → Value → Ordering}
    (h : ∀ v ∈ vs, ∀ w ∈ vs, keyOrder? v w = .ok (some (cmp v w))) : haveOrder vs = true := by
  have hall : allInOrder vs = true := allInOrder_of_forall fun v hv w hw => by
    rw [inOrder, h v hv w hw]
  rw [haveOrder, hall, Bool.or_true]

/-! ## Kinds of comparable values -/

/-- Integers are comparable. -/
theorem comparable_of_int (h : ∀ v ∈ vs, ∃ n, v = .int n) : Comparable vs := by
  refine ⟨compareOn fun v => v.integer?.getD 0, inferInstance, fun v hv w hw => ?_⟩
  obtain ⟨m, rfl⟩ := h v hv
  obtain ⟨n, rfl⟩ := h w hw
  exact ⟨compare?_int m n, equal?_int m n⟩

/-- Texts are equal where their order says so. -/
theorem equal?_of_texts (s t : String) :
    (Value.text s).equal? (.text t) = .ok (Ord.compare s t == .eq) := by
  rw [equal?_text, Except.ok.injEq, Bool.eq_iff_iff, equal_text, beq_iff_eq,
    LawfulEqCmp.compare_eq_iff_eq, Value.text.injEq]

/-- Texts are comparable. -/
theorem comparable_of_text (h : ∀ v ∈ vs, ∃ s, v = .text s) : Comparable vs := by
  refine ⟨compareOn toText, inferInstance, fun v hv w hw => ?_⟩
  obtain ⟨s, rfl⟩ := h v hv
  obtain ⟨t, rfl⟩ := h w hw
  exact ⟨rfl, equal?_of_texts s t⟩

end Value

end Listing
