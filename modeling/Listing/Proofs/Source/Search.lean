import Listing.Proofs.Filter
import Listing.Proofs.Relational.Narrowing
import Listing.Proofs.Source.Conjunction
import Listing.Proofs.Text.Pattern
import Listing.Proofs.Value.Comparable
import Listing.Source

/-!
# Searching a collection

A search keeps the rows that hold a text under one of some attributes: the value there is not null, and
the text is a part without gaps of the text of the value (`Value.shows`). Whatever characters the two
texts have, nothing in them means anything else (`Filter.passing_search`).
-/

namespace Listing

/-- Does a row hold a text in a column? Its value there is not null, and the text is a part of
the text of the value. -/
def Value.shows (row : Value) (column s : String) : Bool :=
  !(row.under column).isNull && decide (s.toList <:+: (row.under column).toText.toList)

namespace Predicate

variable {row : Value} {column s : String}

/-- The condition that a row holds a text in a column. -/
def containing (column s : String) : Predicate :=
  .like (.text column) (Text.parts (Text.containing s).toList) ⟨false, false⟩

theorem fits_containing (s t : String) :
    fits (Text.parts (Text.containing s).toList) false t = decide (s.toList <:+: t.toList) := by
  rw [Bool.eq_iff_iff, decide_eq_true_iff]
  exact Text.matchesParts_containing

/-- **The condition holds for the rows that hold the text.** -/
theorem holds_containing (h : (row.under column).hasText = true) :
    (containing column s).holds row = .ok (row.shows column s) := by
  rw [containing, holds, Value.readAttribute_text, ok_bind, Value.shows]
  split
  · next heq =>
    rw [heq]
    rfl
  · next hne =>
    have hnull : (row.under column).isNull = false := by
      rw [← Bool.not_eq_true, Value.isNull_iff]
      exact hne
    rw [Value.asText, if_pos h, ok_bind, fits_containing, hnull]
    exact congrArg Except.ok (Bool.bne_false _)

/-- One of several conditions holds where one of the answers is yes. -/
theorem oneHolds_of_holds {α : Type} {condition : α → Predicate} {answer : α → Bool} {as : List α}
    (h : ∀ a ∈ as, (condition a).holds row = .ok (answer a)) :
    oneHolds row (as.map fun a => [condition a]) = .ok (as.any answer) := by
  induction as with
  | nil => rfl
  | cons a as ih =>
    have hall : allHold row [condition a] = .ok (answer a) := by
      rw [allHold, h a (List.mem_cons_self ..), ok_bind]
      cases answer a <;> rfl
    rw [List.map_cons, oneHolds, hall, ok_bind, List.any_cons,
      ih fun a ha => h a (List.mem_cons_of_mem _ ha)]
    cases answer a <;> rfl

end Predicate

namespace Collection

variable {c : Collection}

/-- Branches that each add one condition keep the rows for which one of these holds. -/
theorem any_of_filtered {α : Type} {branch : α → Given Collection} {condition : α → Predicate}
    {as : List α} (h : ∀ a ∈ as, (branch a).run c.blank = .ok (c.blank.filtered (condition a)))
    (hne : as ≠ []) :
    c.any (as.map branch) = .ok (c.filtered (.any (as.map fun a => [condition a]))) := by
  have hgroups : ((as.map branch).mapM fun b => do return (← b.run c.blank).predicates) =
      Except.ok (ε := Error) (as.map fun a => [condition a]) := by
    rw [mapM_eq_ok_iff, List.forall₂_map_left_iff, List.forall₂_map_right_iff, List.forall₂_same]
    intro a ha
    rw [h a ha]
    rfl
  have hsome : (as.map fun a => [condition a]).isEmpty = false := by
    rw [List.isEmpty_eq_false_iff]
    exact fun hnil => hne (List.map_eq_nil_iff.1 hnil)
  rw [any, hgroups, ok_bind, hsome]
  rfl

end Collection

namespace Filter

open Collection (capabilities)

variable {v name : Value} {s : String} {columns : List String}

/-- What a search asks for in one of its columns. -/
theorem run_like (hscalar : v.isScalar = true) (hs : v.asText = .ok s) (column : String)
    (c : Collection) :
    (targetScript false (.like (.text column) (.bool true) .null) (.text column) name v).run
      capabilities c = .ok (c.filtered (.containing column s)) := by
  obtain rfl : v.toText = s := by
    rw [Value.asText] at hs
    split at hs
    · exact Except.ok.inj hs
    · cases hs
  have hcall : callOn (.like (.text column) (.bool true) .null) (.text column) name v =
      .ok (.like (.text column) (.text (Text.containing v.toText)) .null) := by
    rw [callOn, scalar, if_pos hscalar]
    rfl
  show (scriptOn _ _ name v).run capabilities c = _
  rw [run_scriptOn, hcall, ok_bind, Call.like, Call.run_ask _ _ rfl]
  rfl

/-- **A search for a text asks for one condition in each of its columns.** -/
theorem run_search (hscalar : v.isScalar = true) (hs : v.asText = .ok s) (hne : columns ≠ [])
    (c : Collection) :
    ((Filter.search (columns.map .text)).script false name v).run capabilities c =
      .ok (c.filtered (.any (columns.map fun column => [.containing column s]))) := by
  rw [script, scalar, if_pos hscalar]
  dsimp only
  rw [Script.run_one, Call.any, Call.run_ask _ _ rfl, List.map_singleton, Argument.given,
    argumentsGiven_eq_map, List.map_map, List.map_map, List.map_map]
  refine Collection.any_of_filtered (fun column _ => ?_) hne
  rw [Function.comp_apply, Function.comp_apply, Function.comp_apply, Argument.given, Given.run]
  exact run_like hscalar hs column c.blank

/-- **What a search keeps.** Of the rows that pass the conditions of a collection these are the ones that
hold the text of the value in one of the columns. It does not change anything else. -/
theorem passing_search (hne : columns ≠ []) (hscalar : v.isScalar = true) (hs : v.asText = .ok s)
    (c : Collection) (name : Value) :
    ∃ f d, Filter.search? (columns.map .text) = .ok f ∧
      (f.script (Source.collection c).supportsRelations name v).run capabilities c = .ok d ∧
      d.rows = c.rows ∧ d.columns = c.columns ∧ d.orders = c.orders ∧
      ∀ {rows : List Value}, c.passing = .ok rows →
        (∀ row ∈ rows, ∀ column ∈ columns, (row.under column).hasText = true) →
        d.passing = .ok (rows.filter fun row => columns.any fun column => row.shows column s) := by
  have hsearch : Filter.search? (columns.map .text) = .ok (.search (columns.map .text)) := by
    rw [search?, if_neg]
    rw [List.isEmpty_iff, List.map_eq_nil_iff]
    exact hne
  refine ⟨_, _, hsearch, run_search hscalar hs hne c, rfl, rfl, rfl, fun hrows htexts => ?_⟩
  refine (Collection.passing_filtered_iff hrows).2 fun row hrow => ?_
  rw [Predicate.holds]
  exact Predicate.oneHolds_of_holds fun column hcolumn =>
    Predicate.holds_containing (htexts row hrow column hcolumn)

/-- A row with a remark and a code. -/
def remark (note code : Value) : Value := .map [(.text "note", note), (.text "item.code", code)]

/-- Remarks that hold characters with a meaning in patterns. -/
def remarks : Collection where
  rows := [remark (.text "(Z%_\\\n)") .null, remark (.text "(Zab\\\n)") (.int 7),
    remark (.text "(z%_\\\n)") .null, remark .null (.text "Z%_\\\n"), remark (.text "Z%_") .null]

/-- The remarks that hold a text of such characters are the first one and the fourth one. -/
theorem passing_remarks :
    ∃ f d, Filter.search? [.text "note", .text "item.code"] = .ok f ∧
      (f.script (Source.collection remarks).supportsRelations (.text "q") (.text "Z%_\\\n")).run
        capabilities remarks = .ok d ∧
      d.passing = .ok [remark (.text "(Z%_\\\n)") .null, remark .null (.text "Z%_\\\n")] := by
  have hrows : remarks.passing = .ok remarks.rows := by cbv
  have htexts : ∀ row ∈ remarks.rows, ∀ column ∈ ["note", "item.code"],
      (row.under column).hasText = true := by decide +kernel
  obtain ⟨f, d, hf, hd, -, -, -, hpassing⟩ := passing_search (v := .text "Z%_\\\n") (s := "Z%_\\\n")
    (List.cons_ne_nil "note" ["item.code"]) rfl rfl remarks (.text "q")
  refine ⟨f, d, hf, hd, (hpassing hrows htexts).trans ?_⟩
  with_unfolding_all rfl

end Filter

end Listing
