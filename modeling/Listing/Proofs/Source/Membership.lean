import Listing.Proofs.Relational.Narrowing
import Listing.Proofs.Source.Conjunction
import Listing.Proofs.Value.Comparable

/-!
# Membership as a union of equalities

A list of values keeps the rows that one of its members keeps alone: `Collection.passing_member`. So
neither the order of the members matters nor how often they are listed. The members are compared one
after the other up to the first that is equal or cannot be compared (`Predicate.holds_member`).

Null as a value to compare with keeps no row. As a member it is not told apart from the text `None`
(`Value.asMember`), and keeps the rows that hold this text.
-/

namespace Listing

/-- The value that a member of a list is compared as. -/
def Value.asMember : Value → Value
  | .null => .text "None"
  | v => v

namespace Predicate

variable {current v w : Value}

/-- The text of null is read as a value of no other kind. -/
theorem textLike_none (sample : Value) : Coercion.textLike sample "None" = .text "None" := by
  have hunread : ∀ {α : Type} {read : Option α} (ofRead : α → Value), read = none →
      (read.map ofRead).getD (.text "None") = .text "None" := by
    rintro _ _ _ rfl
    rfl
  cases sample with
  | int n => exact hunread .int (show Number.readInteger? "None" = none by decide +kernel)
  | binary x => exact hunread .binary (show Number.readBinary? "None" = none by decide +kernel)
  | decimal d => exact hunread .decimal (show Decimal.ofText? "None" = none by decide +kernel)
  | moment m => exact hunread .moment (show Coercion.moment? "None" = none by decide +kernel)
  | date d => exact hunread .date (show Date.ofText? "None" = none by decide +kernel)
  | _ => rfl

/-- Values of two kinds compare by their texts. -/
theorem comparable_of_kind_ne (hv : Value.coercedLike current v = w) (hw : isPlainNumber w = false)
    (hkind : current.typeName ≠ w.typeName) : comparable current v = do
      return (.text (← current.asText), .text (← w.asText)) := by
  unfold comparable
  dsimp only
  rw [hv, hw, Bool.and_false, if_neg Bool.false_ne_true, if_neg hkind]

/-- **Null is compared with a value as the text `None` is.** -/
theorem comparable_null (h : current.isNull = false) :
    (comparable current .null >>= fun p => p.1.equal? p.2) =
      comparable current (.text "None") >>= fun p => p.1.equal? p.2 := by
  have hnull : Value.coercedLike current .null = .null := rfl
  have htext : Value.coercedLike current (.text "None") = .text "None" := textLike_none current
  by_cases hkinds : current.typeName ≠ "NoneType" ∧ current.typeName ≠ "str"
  · rw [comparable_of_kind_ne hnull rfl hkinds.1, comparable_of_kind_ne htext rfl hkinds.2]
    cases current.asText <;> rfl
  cases current with
  | null => cases h
  | text s => rfl
  | object kind =>
    -- no object has one of these two kinds, but the name of its kind may be any text
    have hkind : kind = "NoneType" ∨ kind = "str" := by
      by_contra hne
      exact hkinds (not_or.1 hne)
    rcases hkind with rfl | rfl <;> with_unfolding_all rfl
  | finished form parts => exact absurd (by cases form <;> simp [Value.typeName, Form.typeName]) hkinds
  | _ => exact absurd (by simp [Value.typeName]) hkinds

/-- A value that is not null compares with a member as it does with that value alone. -/
theorem compares_asMember (h : current.isNull = false) (v : Value) :
    compares .equal current v.asMember = comparable current v >>= fun p => p.1.equal? p.2 := by
  have hcompares : ∀ w : Value, w.isNull = false →
      compares .equal current w = comparable current w >>= fun p => p.1.equal? p.2 := by
    intro w hw
    unfold compares
    split
    · cases h
    · cases hw
    · rfl
  cases v with
  | null => rw [comparable_null h, Value.asMember, hcompares _ rfl]
  | _ => exact hcompares _ rfl

theorem equalsOne_eq_anyM (h : current.isNull = false) (vs : List Value) :
    equalsOne current vs = vs.anyM fun v => compares .equal current v.asMember := by
  induction vs with
  | nil => rfl
  | cons v vs ih =>
    rw [equalsOne, List.anyM_cons, compares_asMember h, bind_assoc, ih]

/-- **A row is asked for the members one after the other**, up to the first that it holds or that it
cannot be compared with. -/
theorem holds_member (row : Value) (name : String) (vs : List Value) :
    (member (.text name) vs).holds row =
      vs.anyM fun v => (compare (.text name) .equal v.asMember).holds row := by
  have hequal : ∀ v : Value, (compare (.text name) .equal v).holds row =
      compares .equal (row.under name) v := fun v => by
    rw [holds, Value.readAttribute_text, ok_bind]
  simp only [hequal]
  rw [holds, Value.readAttribute_text, ok_bind]
  split
  · next hnull =>
    rw [hnull, anyM_eq_ok (p := fun _ => false) fun v _ => by rw [compares]]
    exact congrArg Except.ok (List.any_eq_false.2 fun v _ => Bool.false_ne_true).symm
  · next hnull =>
    refine equalsOne_eq_anyM ?_ vs
    rw [← Bool.not_eq_true, Value.isNull_iff]
    exact hnull

end Predicate

namespace Collection

/-- **A list of values keeps what one of its members keeps.** The rows that are kept for a list of values
are, whatever the order of the values and however often they are listed, those that are kept for one of
them by equality alone, where null stands for the text `None`. For a row the values are asked one after
the other, up to the first that it equals or cannot be compared with. -/
theorem passing_member (c : Collection) (hequal : c.operators.find? (.text "=") = .ok (some .equal))
    (name : String) (vs : List Value) :
    (∀ ws, c.ask .member [.value (.text name), .value (.list ws)] =
      .ok (c.filtered (.member (.text name) ws))) ∧
    (∀ v, c.ask .compare [.value (.text name), .value (.text "="), .value v] =
      .ok (c.filtered (.compare (.text name) .equal v))) ∧
    (∀ row, (Predicate.member (.text name) vs).holds row =
      vs.anyM fun v => (Predicate.compare (.text name) .equal v.asMember).holds row) ∧
    ∀ {rows : List Value} {keeps : Value → Value → Bool}, c.passing = .ok rows →
      (∀ v ∈ vs, (c.filtered (.compare (.text name) .equal v.asMember)).passing =
        .ok (rows.filter (keeps v))) →
      ∀ ws, (∀ v, v ∈ ws ↔ v ∈ vs) → (c.filtered (.member (.text name) ws)).passing =
        .ok (rows.filter fun row => vs.any fun v => keeps v row) := by
  refine ⟨fun ws => rfl, fun v => ?_, fun row => Predicate.holds_member row name vs,
    fun {rows keeps} hrows hkeeps ws hws => (passing_filtered_iff hrows).2 fun row hrow => ?_⟩
  · show c.compare _ _ _ = _
    rw [compare, hequal]
    rfl
  · have hanswers : ∀ v ∈ ws, (Predicate.compare (.text name) .equal v.asMember).holds row =
        .ok (keeps v row) := fun v hv =>
      (passing_filtered_iff hrows).1 (hkeeps v ((hws v).1 hv)) row hrow
    have hsame : (ws.any fun v => keeps v row) = vs.any fun v => keeps v row := by
      rw [Bool.eq_iff_iff, List.any_eq_true, List.any_eq_true]
      exact exists_congr fun v => and_congr_left fun _ => hws v
    rw [Predicate.holds_member, anyM_eq_ok hanswers, hsame]

/-- A row with an answer. -/
def answer (v : Value) : Value := .map [(.text "answer", v)]

/-- Answers that are texts, a number and missing. -/
def answers : Collection where
  rows := [answer (.text "None"), answer (.decimal (.finite false 10 (-1))), answer .null,
    answer (.text "1")]

/-- Null and the text `1` keep the text `None`, the number and the text `1`. -/
theorem passing_member_answers :
    answers.operators.find? (.text "=") = .ok (some .equal) ∧
    answers.passing = .ok answers.rows ∧
    (∀ v ∈ [Value.null, .text "1"],
      (answers.filtered (.compare (.text "answer") .equal v.asMember)).passing =
        .ok (answers.rows.filter fun row =>
          Predicate.keeps row [.compare (.text "answer") .equal v.asMember])) ∧
    (answers.filtered (.member (.text "answer") [.text "1", .null, .text "1"])).passing =
      .ok [answer (.text "None"), answer (.decimal (.finite false 10 (-1))), answer (.text "1")] := by
  have hrows : answers.passing = .ok answers.rows := rfl
  have hkeeps : ∀ v ∈ [Value.null, .text "1"],
      (answers.filtered (.compare (.text "answer") .equal v.asMember)).passing =
        .ok (answers.rows.filter fun row =>
          Predicate.keeps row [.compare (.text "answer") .equal v.asMember]) := by
    simp only [List.forall_mem_cons, List.not_mem_nil, false_implies, implies_true, and_true]
    exact ⟨by with_unfolding_all rfl, by with_unfolding_all rfl⟩
  obtain ⟨-, -, -, hunion⟩ := passing_member answers rfl "answer" [.null, .text "1"]
  refine ⟨rfl, hrows, hkeeps, (hunion hrows hkeeps _ fun v => ?_).trans ?_⟩
  · simp only [List.mem_cons, List.not_mem_nil, or_false]
    constructor
    · rintro (rfl | rfl | rfl) <;> simp
    · rintro (rfl | rfl) <;> simp
  · with_unfolding_all rfl

end Collection

end Listing
