import Listing.Proofs.Number.Exact
import Mathlib.Order.WithBot

/-!
# Numbers of all kinds in one order

Truth values, integers, binary numbers and decimals are rational numbers or one of two infinities, unless
they are no number at all: `Value.extended?`. Two of them are in the order of what they are, whatever their
kinds (`Value.compare?_of_extended`), and equal where they are the same (`Value.equal?_of_extended`).
-/

namespace Listing

/-- A rational number or one of two infinities. -/
abbrev Extended := WithBot (WithTop ℚ)

/-- What a number is among the rational numbers and the two infinities. -/
def Number.extended? : Number → Option Extended
  | .exact x => some (x.value : WithTop ℚ)
  | .infinite negative => some (if negative then ⊥ else ⊤)
  | .nan => none

/-- The number that a value is, unless it is none. -/
def Value.extended? (v : Value) : Option Extended := v.number?.bind Number.extended?

theorem Value.extended?_int (n : Int) : (Value.int n).extended? = some ((n : ℚ) : WithTop ℚ) :=
  congrArg (fun q : ℚ => some ((q : WithTop ℚ) : Extended)) (Exact.value_ofInt n)

/-! ## Order -/

theorem Extended.compare_coe (x y : ℚ) :
    Ord.compare ((x : WithTop ℚ) : Extended) (y : WithTop ℚ) = Ord.compare x y := by
  rcases lt_trichotomy x y with h | rfl | h
  · rw [compare_lt_iff_lt.2 h, compare_lt_iff_lt]
    exact_mod_cast h
  · rw [compare_eq_iff_eq.2 rfl, compare_eq_iff_eq.2 rfl]
  · rw [compare_gt_iff_gt.2 h, compare_gt_iff_gt]
    exact_mod_cast h

theorem Extended.compare_infinity_coe (negative : Bool) (x : ℚ) :
    Ord.compare (if negative then (⊥ : Extended) else ⊤) (x : WithTop ℚ) =
      if negative then .lt else .gt := by
  cases negative with
  | true => exact compare_lt_iff_lt.2 (WithBot.bot_lt_coe _)
  | false => exact compare_gt_iff_gt.2 (WithBot.coe_lt_coe.2 (WithTop.coe_lt_top x))

theorem Extended.compare_coe_infinity (x : ℚ) (negative : Bool) :
    Ord.compare ((x : WithTop ℚ) : Extended) (if negative then ⊥ else ⊤) =
      if negative then .gt else .lt := by
  cases negative with
  | true => exact compare_gt_iff_gt.2 (WithBot.bot_lt_coe _)
  | false => exact compare_lt_iff_lt.2 (WithBot.coe_lt_coe.2 (WithTop.coe_lt_top x))

/-- **Numbers compare as what they are.** -/
theorem Number.compare?_of_extended {a b : Number} {x y : Extended} (ha : a.extended? = some x)
    (hb : b.extended? = some y) : a.compare? b = some (Ord.compare x y) := by
  cases a with
  | nan => cases ha
  | exact e =>
    obtain rfl := Option.some.inj ha
    cases b with
    | nan => cases hb
    | exact f =>
      obtain rfl := Option.some.inj hb
      rw [Number.compare?, Exact.compare_eq, Extended.compare_coe]
    | infinite n =>
      obtain rfl := Option.some.inj hb
      rw [Number.compare?, Extended.compare_coe_infinity]
  | infinite m =>
    obtain rfl := Option.some.inj ha
    cases b with
    | nan => cases hb
    | exact f =>
      obtain rfl := Option.some.inj hb
      rw [Number.compare?, Extended.compare_infinity_coe]
    | infinite n =>
      obtain rfl := Option.some.inj hb
      cases m <;> cases n <;> rfl

namespace Value

variable {v w : Value} {x y : Extended}

/-- What is a number among the rational numbers and the infinities is some number, and does not signal. -/
theorem number?_of_extended (h : v.extended? = some x) :
    ∃ a : Number, v.number? = some a ∧ a.extended? = some x ∧ v.signals = false := by
  obtain ⟨a, ha, hx⟩ := Option.bind_eq_some_iff.1 h
  refine ⟨a, ha, hx, ?_⟩
  cases v with
  | decimal d =>
    cases d with
    | nan negative signaling payload =>
      obtain rfl := Option.some.inj ha
      cases hx
    | _ => rfl
  | _ => rfl

/-- **Numbers of any two kinds are in the order of what they are.** -/
theorem compare?_of_extended (hv : v.extended? = some x) (hw : w.extended? = some y) :
    v.compare? w = .ok (some (Ord.compare x y)) := by
  obtain ⟨a, ha, hx, -⟩ := number?_of_extended hv
  obtain ⟨b, hb, hy, -⟩ := number?_of_extended hw
  have hdefined : undefinedOrder v w = false := by
    unfold undefinedOrder
    dsimp only
    rw [ha, hb]
    cases a with
    | nan => cases hx
    | _ =>
      cases b with
      | nan => cases hy
      | _ => exact Bool.and_false _
  have hnumbers : v.compare? w = compareNumbers v w := by
    unfold compare?
    split <;> first | rfl | cases ha
  rw [hnumbers, compareNumbers, ha, hb]
  dsimp only
  rw [hdefined, if_neg Bool.false_ne_true, Number.compare?_of_extended hx hy]

/-- **Numbers of any two kinds are equal where they are the same.** -/
theorem equal?_of_extended (hv : v.extended? = some x) (hw : w.extended? = some y) :
    v.equal? w = .ok (Ord.compare x y == .eq) := by
  obtain ⟨a, ha, hx, hquiet⟩ := number?_of_extended hv
  obtain ⟨b, hb, hy, hquiet'⟩ := number?_of_extended hw
  have hnumbers : v.equal? w = equalNumbers? v w := by
    unfold equal?
    split <;> first | rfl | cases ha
  rw [hnumbers, equalNumbers?, ha, hb]
  dsimp only
  rw [hquiet, hquiet', Bool.or_self, if_neg Bool.false_ne_true, Number.equal,
    Number.compare?_of_extended hx hy]
  rfl

end Value

end Listing
