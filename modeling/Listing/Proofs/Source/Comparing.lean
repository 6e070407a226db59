import Listing.Proofs.Filter
import Listing.Proofs.Number.Extended
import Listing.Proofs.Number.Plain
import Listing.Proofs.Relational.InMemory
import Listing.Proofs.Source.Conjunction

/-!
# Comparing numbers with a text

A comparison asks how the numbers of rows stand to a number in a request, which is a text. A decimal in a
row has the text read as a decimal, and an integer has it read as an integer, so that numbers are compared
with numbers, unless a row holds an integer and the text has a point: then the integer is compared as a
text (`Predicate.compares_plain`). What a comparison keeps is said by `Filter.passing_compare`.
-/

namespace Listing

namespace Comparison

variable {c : Comparison} {v w : Value} {x y : Extended}

/-- The relation of an operator that is always there. -/
def Relates : Comparison → Extended → Extended → Prop
  | .equal, x, y => x = y
  | .unequal, x, y => x ≠ y
  | .less, x, y => x < y
  | .atMost, x, y => x ≤ y
  | .greater, x, y => y < x
  | .atLeast, x, y => y ≤ x
  | .multipleOf, _, _ | .startsWith, _, _ => False

instance : (c : Comparison) → (x y : Extended) → Decidable (c.Relates x y)
  | .equal, x, y => inferInstanceAs (Decidable (x = y))
  | .unequal, x, y => inferInstanceAs (Decidable (x ≠ y))
  | .less, x, y => inferInstanceAs (Decidable (x < y))
  | .atMost, x, y => inferInstanceAs (Decidable (x ≤ y))
  | .greater, x, y => inferInstanceAs (Decidable (y < x))
  | .atLeast, x, y => inferInstanceAs (Decidable (y ≤ x))
  | .multipleOf, _, _ | .startsWith, _, _ => inferInstanceAs (Decidable False)

/-- The order of two numbers says whether the relation holds. -/
theorem ofOrder_compare (c : Comparison) (x y : Extended) :
    c.ofOrder (Ord.compare x y) = decide (c.Relates x y) := by
  rw [Bool.eq_iff_iff, decide_eq_true_iff]
  rcases lt_trichotomy x y with h | rfl | h
  · rw [compare_lt_iff_lt.2 h]
    cases c <;> simp [ofOrder, Relates, h, h.ne, h.le, h.not_gt, h.not_ge]
  · rw [compare_eq_iff_eq.2 rfl]
    cases c <;> simp [ofOrder, Relates]
  · rw [compare_gt_iff_gt.2 h]
    cases c <;> simp [ofOrder, Relates, h, h.ne', h.le, h.not_gt, h.not_ge]

/-- **A comparison holds between numbers where its relation does.** -/
theorem holds?_of_extended (hc : c.IsBuiltin) (hv : v.extended? = some x) (hw : w.extended? = some y) :
    c.holds? v w = .ok (decide (c.Relates x y)) := by
  rw [holds?_of_order hc (Value.compare?_of_extended hv hw) (Value.equal?_of_extended hv hw),
    ofOrder_compare]

/-- Texts are compared as texts. -/
theorem holds?_text (hc : c.IsBuiltin) (s t : String) :
    c.holds? (.text s) (.text t) = .ok (c.ofOrder (Ord.compare s t)) :=
  holds?_of_order hc rfl (Value.equal?_of_texts s t)

end Comparison

namespace Value

/-- Is it an integer, a decimal that is a number, or null? -/
def IsNumeric : Value → Prop
  | .null | .int _ => True
  | .decimal d => (Value.decimal d).extended?.isSome = true
  | _ => False

/-- Does the value stand in the relation of a comparison to a number? Null does not. -/
def stands (v : Value) (c : Comparison) (y : Extended) : Bool :=
  v.extended?.any fun x => decide (c.Relates x y)

/-- Is the value compared as a text with a number that is written so? -/
def isComparedAsText (v : Value) (p : Plain) : Bool := v.integer?.isSome && p.fraction.isSome

end Value

/-- What a comparison answers for a value of a row and a number that is written plainly. -/
def Comparison.answer (c : Comparison) (p : Plain) (v : Value) : Bool :=
  if v.isComparedAsText p then c.ofOrder (Ord.compare v.toText p.text)
  else v.stands c (p.value : WithTop ℚ)

namespace Predicate

variable {c : Comparison} {p : Plain} {d : Decimal} {x : Extended}

/-- **A decimal is compared as a number.** -/
theorem compares_decimal (hc : c.IsBuiltin) (hp : p.text.length ≤ Number.maxDigits)
    (hx : (Value.decimal d).extended? = some x) :
    compares c (.decimal d) (.text p.text) = .ok (decide (c.Relates x (p.value : WithTop ℚ))) := by
  have hcomparable : comparable (.decimal d) (.text p.text) =
      .ok (.decimal d, .decimal (.finite p.negative p.coefficient p.exponent)) := by
    unfold comparable Value.coercedLike Coercion.textLike
    rw [p.ofText?_text hp]
    rfl
  show comparable (.decimal d) (.text p.text) >>= _ = _
  rw [hcomparable, p.value_eq]
  exact Comparison.holds?_of_extended hc hx rfl

/-- **An integer is compared as a number with a number without a point.** -/
theorem compares_int (hc : c.IsBuiltin) (hp : p.text.length ≤ Number.maxDigits)
    (hwhole : p.fraction = none) (n : Int) : compares c (.int n) (.text p.text) =
      .ok (decide (c.Relates ((n : ℚ) : WithTop ℚ) (p.value : WithTop ℚ))) := by
  have hcomparable : comparable (.int n) (.text p.text) = .ok (.int n, .int p.integer) := by
    unfold comparable Value.coercedLike Coercion.textLike
    rw [p.readInteger?_text hp, hwhole]
    rfl
  show comparable (.int n) (.text p.text) >>= _ = _
  rw [hcomparable, p.value_of_whole hwhole]
  exact Comparison.holds?_of_extended hc (Value.extended?_int n) (Value.extended?_int p.integer)

/-- **An integer is compared as a text with a number with a point.** -/
theorem compares_int_fraction (hc : c.IsBuiltin) (hp : p.text.length ≤ Number.maxDigits)
    (hfraction : p.fraction.isSome = true) (n : Int) : compares c (.int n) (.text p.text) =
      (Value.int n).asText.map fun s => c.ofOrder (Ord.compare s p.text) := by
  have hcomparable : comparable (.int n) (.text p.text) =
      (Value.int n).asText.map fun s => (.text s, .text p.text) := by
    unfold comparable Value.coercedLike Coercion.textLike
    rw [p.readInteger?_text hp, hfraction]
    cases (Value.int n).asText <;> rfl
  show comparable (.int n) (.text p.text) >>= _ = _
  rw [hcomparable]
  cases (Value.int n).asText with
  | error e => rfl
  | ok s => exact Comparison.holds?_text hc s p.text

/-- **What a comparison asks of a row.** Integers are compared with a number that has a point as texts, so
that they need to have one. -/
theorem compares_plain (hc : c.IsBuiltin) (hp : p.text.length ≤ Number.maxDigits) {v : Value}
    (hv : v.IsNumeric) : compares c v (.text p.text) =
      if v.isComparedAsText p && !v.hasText then .error .badValue else .ok (c.answer p v) := by
  cases v with
  | null => rfl
  | int n =>
    cases hf : p.fraction with
    | none =>
      have hnumber : (Value.int n).isComparedAsText p = false := by
        rw [Value.isComparedAsText, hf]
        rfl
      rw [compares_int hc hp hf, Comparison.answer, hnumber]
      simp [Value.stands, Value.extended?_int]
    | some ds =>
      have htext : (Value.int n).isComparedAsText p = true := by
        rw [Value.isComparedAsText, hf]
        rfl
      rw [compares_int_fraction hc hp (by rw [hf]; rfl), Comparison.answer, htext, Value.asText]
      cases (Value.int n).hasText <;> rfl
  | decimal d =>
    obtain ⟨x, hx⟩ := Option.isSome_iff_exists.1 (show _ = true from hv)
    rw [compares_decimal hc hp hx, Comparison.answer]
    simp [Value.isComparedAsText, Value.integer?, Value.stands, hx]
  | _ => exact absurd hv id

end Predicate

namespace Filter

open Collection (capabilities)

variable {c : Collection} {operator : Value} {comparison : Comparison}

/-- A comparison filter adds the condition that its operator stands for. -/
theorem run_compare (hfound : c.operators.find? operator = .ok (some comparison))
    {v : Value} (hscalar : v.isScalar = true) (column : String) (name : Value) :
    ((Filter.compare (.text column) operator).script false name v).run capabilities c =
      .ok (c.filtered (.compare (.text column) comparison v)) := by
  have hcall : callOn (.compare (.text column) operator) (.text column) name v =
      .ok (.compare (.text column) operator v) := by
    rw [callOn, scalar, if_pos hscalar]
    rfl
  show (scriptOn _ _ name v).run capabilities c = _
  rw [run_scriptOn, hcall, ok_bind, Call.compare, Call.run_ask _ _ rfl]
  show c.compare _ operator v = _
  rw [Collection.compare, hfound]
  rfl

/-- **What a comparison with a number keeps.** Of the rows that pass the conditions of a collection these
are the ones whose number stands in the relation, if no integer meets a number with a point. Then less
keeps, with a number, every number that is not above it. Integers that meet a number with a point are
compared as texts, and one that has no text cannot be compared. -/
theorem passing_compare (hfound : c.operators.find? operator = .ok (some comparison))
    (hbuiltin : comparison.IsBuiltin) (column : String) (name : Value) {p : Plain}
    (hp : p.text.length ≤ Number.maxDigits) :
    ∃ f d, Filter.compare? c.operators (.text column) operator = .ok f ∧
      (f.script (Source.collection c).supportsRelations name (.text p.text)).run capabilities c = .ok d ∧
      d.rows = c.rows ∧ d.columns = c.columns ∧ d.orders = c.orders ∧
      ∀ {rows : List Value}, c.passing = .ok rows → (∀ row ∈ rows, (row.under column).IsNumeric) →
        (d.passing = if rows.any fun row =>
            (row.under column).isComparedAsText p && !(row.under column).hasText then .error .badValue
          else .ok (rows.filter fun row => comparison.answer p (row.under column))) ∧
        ((∀ row ∈ rows, (row.under column).isComparedAsText p = false) →
          d.passing = .ok (rows.filter fun row =>
            (row.under column).stands comparison (p.value : WithTop ℚ)) ∧
          ∀ {kept : List Value}, d.passing = .ok kept → comparison = .less →
            ∀ row ∈ rows, ∀ row' ∈ kept, ∀ {x y : Extended}, (row.under column).extended? = some x →
              (row'.under column).extended? = some y → x ≤ y → row ∈ kept) := by
  have hfilter : Filter.compare? c.operators (.text column) operator =
      .ok (.compare (.text column) operator) := by
    rw [compare?, hfound]
    rfl
  refine ⟨_, _, hfilter, run_compare hfound rfl column name, rfl, rfl, rfl, fun {rows} hrows hnumeric => ?_⟩
  have hholds : ∀ row ∈ rows, (Predicate.compare (.text column) comparison (.text p.text)).holds row =
      if (row.under column).isComparedAsText p && !(row.under column).hasText then .error .badValue
      else .ok (comparison.answer p (row.under column)) := fun row hrow => by
    rw [Predicate.holds, Value.readAttribute_text, ok_bind]
    exact Predicate.compares_plain hbuiltin hp (hnumeric row hrow)
  have hnumbers (hnone : ∀ row ∈ rows, (row.under column).isComparedAsText p = false) :
      (c.filtered (.compare (.text column) comparison (.text p.text))).passing =
        .ok (rows.filter fun row => (row.under column).stands comparison (p.value : WithTop ℚ)) :=
    (Collection.passing_filtered_iff hrows).2 fun row hrow => by
      rw [hholds row hrow, Comparison.answer, hnone row hrow]
      rfl
  refine ⟨?_, fun hnone => ⟨hnumbers hnone, fun {kept} hkept hless row hrow row' hrow' x y hx hy hle => ?_⟩⟩
  · split
    · next hany =>
      rw [List.any_eq_true] at hany
      obtain ⟨row, hrow, htext⟩ := hany
      rw [Collection.passing_filtered hrows]
      refine filterM_eq_error (fun row hrow => ?_) ⟨row, hrow, by rw [hholds row hrow, if_pos htext]⟩
      rw [hholds row hrow]
      split
      · exact .inr rfl
      · exact .inl ⟨_, rfl⟩
    · next hany =>
      rw [Bool.not_eq_true, List.any_eq_false] at hany
      exact (Collection.passing_filtered_iff hrows).2 fun row hrow => by
        rw [hholds row hrow, if_neg (hany row hrow)]
  · subst hless
    obtain rfl := Except.ok.inj ((hnumbers hnone).symm.trans hkept)
    obtain ⟨-, hstands⟩ := List.mem_filter.1 hrow'
    rw [Value.stands, hy] at hstands
    have hlt : y < (p.value : WithTop ℚ) := of_decide_eq_true hstands
    refine List.mem_filter.2 ⟨hrow, ?_⟩
    rw [Value.stands, hx]
    exact decide_eq_true (lt_of_le_of_lt hle hlt)

/-- A row with an amount. -/
def amount (v : Value) : Value := .map [(.text "amount", v)]

/-- Two integers and a decimal. -/
def amounts : Collection where
  rows := [amount (.int 10), amount (.int 9), amount (.decimal (.finite false 525 (-2)))]

/-- Five and a half. -/
def fiveAndHalf : Plain where
  sign := none
  whole := ['5']
  fraction := some ['5']
  whole_ne_nil := by decide
  whole_digits := List.forall_mem_singleton.2 rfl
  fraction_digits := fun _ h => by
    obtain rfl := Option.mem_some.1 h
    exact List.forall_mem_singleton.2 rfl

/-- Less than five and a half are, of the integers, the one whose text is, and the decimal. -/
theorem passing_amounts :
    ∃ f d, Filter.compare? .builtin (.text "amount") (.text "<") = .ok f ∧
      (f.script (Source.collection amounts).supportsRelations (.text "below") (.text "5.5")).run
        capabilities amounts = .ok d ∧
      d.passing = .ok [amount (.int 10), amount (.decimal (.finite false 525 (-2)))] := by
  have hfound : amounts.operators.find? (.text "<") = .ok (some .less) := rfl
  have hrows : amounts.passing = .ok amounts.rows := rfl
  have hunder : ∀ v, (amount v).under "amount" = v := fun v => by with_unfolding_all rfl
  have hnumeric : ∀ row ∈ amounts.rows, (row.under "amount").IsNumeric := by
    simp only [amounts, List.forall_mem_cons, hunder]
    exact ⟨trivial, trivial, rfl, nofun⟩
  obtain ⟨f, d, hf, hd, -, -, -, hpassing⟩ :=
    passing_compare hfound ⟨nofun, nofun⟩ "amount" (.text "below") (p := fiveAndHalf) (by decide +kernel)
  have htexts : ∀ row ∈ amounts.rows,
      ¬((row.under "amount").isComparedAsText fiveAndHalf && !(row.under "amount").hasText) = true := by
    simp only [amounts, List.forall_mem_cons, hunder]
    exact ⟨by decide +kernel, by decide +kernel, by decide +kernel, nofun⟩
  have hten : Comparison.less.answer fiveAndHalf (.int 10) = true := by decide +kernel
  have hnine : Comparison.less.answer fiveAndHalf (.int 9) = false := by decide +kernel
  have hdecimal : Comparison.less.answer fiveAndHalf (.decimal (.finite false 525 (-2))) = true := by
    decide +kernel
  refine ⟨f, d, hf, hd, (hpassing hrows hnumeric).1.trans ?_⟩
  rw [if_neg (by rw [Bool.not_eq_true, List.any_eq_false]; exact htexts)]
  simp only [amounts, List.filter_cons, List.filter_nil, hunder, hten, hnine, hdecimal, if_true,
    Bool.false_eq_true, if_false]

end Filter

end Listing
