import Listing.Proofs.Source.Script
import Listing.Source

/-!
# Selected columns

A column that has been selected is not selected again, whatever it is: `Value.same_refl`. So taking
the columns of a collection that calls have led to into the selection once more changes nothing
(`Collection.selectAll_own`).
-/

namespace Listing

namespace Value

mutual

theorem same_refl : (v : Value) → v.same v = true
  | .null => by simp [same]
  | .bool b => by simp [same]
  | .int n => by simp [same]
  | .binary x => by simp [same]
  | .decimal d => by simp [same]
  | .text s => by simp [same]
  | .bytes os => by simp [same]
  | .moment m => by simp [same]
  | .date d => by simp [same]
  | .list vs => by simp [same, sameItems_refl vs]
  | .tuple vs => by simp [same, sameItems_refl vs]
  | .set vs => by simp [same, sameItems_refl vs]
  | .map es => by simp [same, sameEntries_refl es]
  | .record attributes => by simp [same, sameAttributes_refl attributes]
  | .choice v => by simp [same, same_refl v]
  | .request path query => by simp [same]
  | .cursor es forward => by simp [same, sameEntries_refl es]
  | .finished form parts => by simp [same, sameItems_refl parts]
  | .function calls returnsNothing => by simp [same, sameCalls_refl calls]
  | .object kind => by simp [same]

theorem sameItems_refl : (vs : List Value) → sameItems vs vs = true
  | [] => by simp [sameItems]
  | v :: vs => by simp [sameItems, same_refl v, sameItems_refl vs]

theorem sameEntries_refl : (es : List (Value × Value)) → sameEntries es es = true
  | [] => by simp [sameEntries]
  | (k, v) :: es => by simp [sameEntries, same_refl k, same_refl v, sameEntries_refl es]

theorem sameAttributes_refl : (es : List (String × Value)) → sameAttributes es es = true
  | [] => by simp [sameAttributes]
  | (k, v) :: es => by simp [sameAttributes, same_refl v, sameAttributes_refl es]

theorem sameCalls_refl : (cs : List (String × List Slot)) → sameCalls cs cs = true
  | [] => by simp [sameCalls]
  | (k, slots) :: cs => by simp [sameCalls, sameSlots_refl slots, sameCalls_refl cs]

theorem sameSlot_refl : (s : Slot) → sameSlot s s = true
  | .fixed v => by simp [sameSlot, same_refl v]
  | .theName => by simp [sameSlot]
  | .theValue => by simp [sameSlot]
  | .list slots => by simp [sameSlot, sameSlots_refl slots]

theorem sameSlots_refl : (slots : List Slot) → sameSlots slots slots = true
  | [] => by simp [sameSlots]
  | s :: slots => by simp [sameSlots, sameSlot_refl s, sameSlots_refl slots]

end

/-- What is found before the end of a list is found in a longer list. -/
theorem occursIn?_append {v : Value} {vs : List Value} (h : v.occursIn? vs = .ok true)
    (ws : List Value) : v.occursIn? (vs ++ ws) = .ok true := by
  induction vs with
  | nil => cases h
  | cons w vs ih =>
    rw [List.cons_append]
    unfold occursIn? at h ⊢
    cases hs : w.same v with
    | true => rfl
    | false =>
      rw [hs] at h
      simp only [Bool.false_eq_true, if_false] at h ⊢
      obtain ⟨b, hb, h⟩ := bind_eq_ok_iff.1 h
      rw [hb, ok_bind]
      cases b with
      | true => rfl
      | false => exact ih h

/-- What does not occur in a list occurs in it once it has been added. -/
theorem occursIn?_append_self {v : Value} {vs : List Value} (h : v.occursIn? vs = .ok false) :
    v.occursIn? (vs ++ [v]) = .ok true := by
  induction vs with
  | nil => simp [occursIn?, same_refl]
  | cons w vs ih =>
    rw [List.cons_append]
    unfold occursIn? at h ⊢
    cases hs : w.same v with
    | true => rfl
    | false =>
      rw [hs] at h
      simp only [Bool.false_eq_true, if_false] at h ⊢
      obtain ⟨b, hb, h⟩ := bind_eq_ok_iff.1 h
      rw [hb, ok_bind]
      cases b with
      | true => rfl
      | false => exact ih h

end Value

namespace Collection

/-! ## Columns of a collection -/

/-- Is every selected column found among the selected ones? -/
def Settled (c : Collection) : Prop := ∀ column ∈ c.columns, column.occursIn? c.columns = .ok true

theorem select_settled {c c' : Collection} {column : Value} (h : c.select column = .ok c')
    (hs : c.Settled) : c'.Settled := by
  unfold select at h
  obtain ⟨b, hb, h⟩ := bind_eq_ok_iff.1 h
  cases b with
  | true =>
    obtain rfl := Except.ok.inj h
    exact hs
  | false =>
    obtain rfl := Except.ok.inj h
    intro d hd
    rcases List.mem_append.1 hd with hd | hd
    · exact Value.occursIn?_append (hs d hd) _
    · rw [List.mem_singleton.1 hd]
      exact Value.occursIn?_append_self hb

/-- Does one collection list the same rows as another one with the same columns? -/
def SameColumns (c c' : Collection) : Prop := c'.columns = c.columns ∧ c'.rows = c.rows

theorem filtered_same (c : Collection) (p : Predicate) : SameColumns c (c.filtered p) := ⟨rfl, rfl⟩

theorem compare_same {c c' : Collection} {name operator value : Value}
    (h : c.compare name operator value = .ok c') : SameColumns c c' := by
  unfold compare at h
  obtain ⟨found, -, h⟩ := bind_eq_ok_iff.1 h
  cases found with
  | none => cases h
  | some comparison =>
    obtain rfl := Except.ok.inj h
    exact filtered_same c _

theorem like_same {c c' : Collection} {name pattern operator : Value}
    (h : c.like name pattern operator = .ok c') : SameColumns c c' := by
  unfold like at h
  obtain ⟨op, -, h⟩ := bind_eq_ok_iff.1 h
  obtain ⟨parts, -, h⟩ := bind_eq_ok_iff.1 h
  obtain rfl := Except.ok.inj h
  exact filtered_same c _

theorem order_same {c c' : Collection} {column direction : Value}
    (h : c.order column direction = .ok c') : SameColumns c c' := by
  unfold order at h
  obtain ⟨d, -, h⟩ := bind_eq_ok_iff.1 h
  obtain rfl := Except.ok.inj h
  exact ⟨rfl, rfl⟩

theorem any_same {c c' : Collection} {branches : List (Given Collection)}
    (h : c.any branches = .ok c') : SameColumns c c' := by
  unfold any at h
  obtain ⟨groups, -, h⟩ := bind_eq_ok_iff.1 h
  obtain rfl := Except.ok.inj h
  split
  · exact ⟨rfl, rfl⟩
  · exact filtered_same c _

/-- What a capability does to a collection: it selects a column, or leaves columns as they are. -/
theorem ask_cases {c c' : Collection} {capability : Capability} {given : List (Given Collection)}
    (h : c.ask capability given = .ok c') :
    (∃ column, c.select column = .ok c') ∨ SameColumns c c' := by
  unfold ask at h
  split at h
  · next column => exact .inl ⟨column, h⟩
  · exact .inr (compare_same h)
  · obtain ⟨vs, -, h⟩ := bind_eq_ok_iff.1 h
    obtain rfl := Except.ok.inj h
    exact .inr (filtered_same c _)
  · exact .inr (like_same h)
  · exact .inr (like_same h)
  · obtain ⟨branches, -, h⟩ := bind_eq_ok_iff.1 h
    exact .inr (any_same h)
  · exact .inr (order_same h)
  · exact .inr (order_same h)
  all_goals cases h

theorem ask_settled {c : Collection} {capability : Capability} {given : List (Given Collection)}
    {c' : Collection} (h : c.ask capability given = .ok c') (hs : c.Settled) : c'.Settled := by
  rcases ask_cases h with ⟨column, h⟩ | ⟨h, -⟩
  · exact select_settled h hs
  · rw [Settled, h]
    exact hs

/-- Selecting columns that are selected changes nothing. -/
theorem selectAll_of_occur {c : Collection} {columns : List Value}
    (h : ∀ column ∈ columns, column.occursIn? c.columns = .ok true) :
    columns.foldlM select c = .ok c := by
  induction columns with
  | nil => rfl
  | cons column columns ih =>
    have hsel : c.select column = .ok c := by
      simp [select, h column (List.mem_cons_self ..)]
    rw [List.foldlM_cons, hsel, ok_bind, ih fun d hd => h d (List.mem_cons_of_mem _ hd)]

/-- **Selecting its own columns again leaves a collection as it is.** -/
theorem selectAll_own {c : Collection} (h : c.Settled) :
    c.selectAll ((c.selectedColumns.map Value.list).getD .null) = .ok c := by
  unfold selectAll selectedColumns
  cases hc : c.columns with
  | nil => rfl
  | cons column columns =>
    have hall : ∀ d ∈ column :: columns, d.occursIn? c.columns = .ok true := hc ▸ h
    simpa [readColumns, Value.truthy, Value.items, Value.collection?] using selectAll_of_occur hall

end Collection

end Listing
