import Listing.Proofs.Declaration.Kept
import Listing.Proofs.Registry

/-!
# Declarations without code

A declaration is without code if no function stands in it, nor an operation that runs one
(`Value.isCodeless`). The registry that such a declaration is read as has no operation that runs
code either: `Declaration.fields_codeless`, `Declaration.filters_codeless`,
`Declaration.inclusions_codeless`.
-/

namespace Listing

/-- Does an operation of the form with these parts run no code, neither as a callback nor to refine
an include? -/
def Form.runsNothing : Form → List Value → Bool
  | .fieldCallback, _ | .filterCallback, _ | .inclusionCallback, _ => false
  | .relation, [_, .null] => true
  | .relation, [_, _] => false
  | _, _ => true

mutual

/-- Is there no code in the value? -/
def Value.isCodeless : Value → Bool
  | .function _ _ => false
  | .finished f parts => f.runsNothing parts && allCodeless parts
  | .list vs | .tuple vs | .set vs => allCodeless vs
  | .map es => entriesCodeless es
  | _ => true

/-- Is there no code in the values? -/
def allCodeless : List Value → Bool
  | [] => true
  | v :: vs => v.isCodeless && allCodeless vs

/-- Is there no code in the values of the entries? -/
def entriesCodeless : List (Value × Value) → Bool
  | [] => true
  | (_, v) :: es => v.isCodeless && entriesCodeless es

end

theorem entriesCodeless_iff {es : Entries} :
    entriesCodeless es = true ↔ ∀ e ∈ es, e.2.isCodeless = true := by
  induction es with
  | nil => simp [entriesCodeless]
  | cons e es ih =>
    obtain ⟨k, v⟩ := e
    simp [entriesCodeless, ih]

theorem allCodeless_iff {vs : List Value} :
    allCodeless vs = true ↔ ∀ v ∈ vs, v.isCodeless = true := by
  induction vs with
  | nil => simp [allCodeless]
  | cons v vs ih => simp [allCodeless, ih]

/-! ## Registries -/

/-- Do all things with names have a property? -/
def Registry.All {α : Type} (P : α → Prop) (r : Registry α) : Prop := ∀ e ∈ r, P e.2

namespace Registry

variable {α : Type} {P : α → Prop} {r : Registry α}

theorem All.nil : All P [] := fun _ he => absurd he List.not_mem_nil

theorem All.insert (h : r.All P) {name : String} {a : α} (ha : P a) : (r.insert name a).All P := by
  intro e he
  rcases mem_insert he with rfl | he
  · exact ha
  · exact h e he

theorem All.foldl_insert (hr : r.All P) {g : Registry α} (hg : g.All P) (rename : String → String) :
    All P (g.foldl (fun r e => r.insert (rename e.1) e.2) r) := by
  induction g generalizing r with
  | nil => exact hr
  | cons e g ih =>
    exact ih (hr.insert (hg e (List.mem_cons_self ..))) fun e he => hg e (List.mem_cons_of_mem _ he)

theorem mem_of_get? {name : String} {a : α} (h : r.get? name = some a) : ∃ n, (n, a) ∈ r := by
  induction r with
  | nil => cases h
  | cons e r ih =>
    obtain ⟨n, b⟩ := e
    rw [get?, List.lookup_cons] at h
    split at h
    · obtain rfl := Option.some.inj h
      exact ⟨n, List.mem_cons_self ..⟩
    · obtain ⟨m, hm⟩ := ih h
      exact ⟨m, List.mem_cons_of_mem _ hm⟩

theorem All.get? (h : r.All P) {name : String} {a : α} (ha : r.get? name = some a) : P a := by
  obtain ⟨n, hn⟩ := mem_of_get? ha
  exact h _ hn

end Registry

theorem Value.codeless_inherited : Value.Inherited fun v => v.isCodeless = true where
  map := fun h => entriesCodeless_iff.1 h
  list := fun h => allCodeless_iff.1 h
  tuple := fun h => allCodeless_iff.1 h
  set := fun h => allCodeless_iff.1 h

/-! ## Fields, filters and includes -/

theorem Field.toValue_of_ofValue? {v : Value} {f : Field} (h : ofValue? v = some f) :
    f.toValue = v := by
  unfold ofValue? at h
  split at h <;> cases h <;> rfl

theorem Inclusion.toValue_of_ofValue? {v : Value} {i : Inclusion} (h : ofValue? v = some i) :
    i.toValue = v := by
  unfold ofValue? at h
  split at h <;> cases h <;> rfl

/-- Does the filter run no callback? -/
def Filter.RunsNothing (f : Filter) : Prop := ∀ function, f ≠ .callback function

/-- Does the include run no code? -/
def Inclusion.RunsNothing (i : Inclusion) : Prop := ∃ path, i = .relation path .null

/-- Does the field run no callback, nor any field in it? -/
def Field.RunsNothing (f : Field) : Prop := f.toValue.isCodeless = true

theorem Filter.runsNothing_of_ofValue? {v : Value} (hv : v.isCodeless = true) {f : Filter}
    (h : ofValue? v = some f) : f.RunsNothing := by
  rintro function rfl
  unfold ofValue? at h
  split at h <;> cases h
  cases hv

theorem Inclusion.runsNothing_of_ofValue? {v : Value} (hv : v.isCodeless = true) {i : Inclusion}
    (h : ofValue? v = some i) : i.RunsNothing := by
  unfold ofValue? at h
  split at h
  · next path refinement =>
    rw [Value.isCodeless, Bool.and_eq_true] at hv
    obtain rfl := Option.some.inj h
    cases refinement <;> first | exact ⟨path, rfl⟩ | exact absurd hv.1 Bool.false_ne_true
  · cases hv
  · cases h

theorem Registry.codeless_toMap {r : Registry Field} (h : r.All Field.RunsNothing) :
    (r.toMap Field.toValue).isCodeless = true := by
  rw [Registry.toMap, Value.isCodeless, entriesCodeless_iff]
  intro e he
  obtain ⟨p, hp, rfl⟩ := List.mem_map.1 he
  exact h p hp

namespace Declaration

theorem fieldKind_keeps : fieldKind.Keeps (fun v => v.isCodeless = true) Field.RunsNothing
    (Registry.All Field.RunsNothing) where
  finished := fun hv h => by rwa [Field.RunsNothing, Field.toValue_of_ofValue? h]
  ofFunction := fun h _ => by cases h
  ofText := fun _ _ => rfl
  nil := .nil
  put := fun hr ha => hr.insert ha
  putGroup := by
    intro r name v group r' hr _ hgroup h
    obtain ⟨g, hg, h⟩ := bind_eq_ok_iff.1 h
    obtain rfl := Except.ok.inj h
    refine hr.insert ?_
    simp [Field.RunsNothing, Field.toValue, Value.isCodeless, Form.runsNothing, allCodeless,
      Registry.codeless_toMap (hgroup g hg)]

theorem filterKind_keeps : filterKind.Keeps (fun v => v.isCodeless = true) Filter.RunsNothing
    (Registry.All Filter.RunsNothing) where
  finished := fun hv h => Filter.runsNothing_of_ofValue? hv h
  ofFunction := fun h _ => by cases h
  ofText := fun _ _ _ h => by cases h
  nil := .nil
  put := fun hr ha => hr.insert ha
  putGroup := by
    intro r name v group r' hr _ _ h
    obtain ⟨attributes, -, h⟩ := bind_eq_ok_iff.1 h
    obtain ⟨f, hf, h⟩ := bind_eq_ok_iff.1 h
    obtain rfl := Except.ok.inj h
    refine hr.insert ?_
    rintro function rfl
    unfold Filter.search? at hf
    split at hf <;> cases hf

theorem inclusionKind_keeps :
    inclusionKind.Keeps (fun v => v.isCodeless = true) Inclusion.RunsNothing
      (Registry.All Inclusion.RunsNothing) where
  finished := fun hv h => Inclusion.runsNothing_of_ofValue? hv h
  ofFunction := fun h _ => by cases h
  ofText := fun _ _ => ⟨_, rfl⟩
  nil := .nil
  put := fun hr ha => hr.insert ha
  putGroup := by
    intro r name v group r' hr _ hgroup h
    obtain ⟨g, hg, h⟩ := bind_eq_ok_iff.1 h
    obtain rfl := Except.ok.inj h
    exact hr.foldl_insert (hgroup g hg) fun n => name ++ "." ++ n

/-- **The fields of a declaration without code run none.** -/
theorem fields_codeless {v : Value} (hv : v.isCodeless = true) {r : Registry Field}
    (h : fields v = .ok r) : r.All Field.RunsNothing :=
  DeclarationKind.registry_keeps Value.codeless_inherited fieldKind_keeps _ v hv h

/-- **The filters of a declaration without code run none.** -/
theorem filters_codeless {v : Value} (hv : v.isCodeless = true) {r : Registry Filter}
    (h : filters v = .ok r) : r.All Filter.RunsNothing :=
  DeclarationKind.registry_keeps Value.codeless_inherited filterKind_keeps _ v hv h

/-- **The includes of a declaration without code run none.** -/
theorem inclusions_codeless {v : Value} (hv : v.isCodeless = true) {r : Registry Inclusion}
    (h : inclusions v = .ok r) : r.All Inclusion.RunsNothing :=
  DeclarationKind.registry_keeps Value.codeless_inherited inclusionKind_keeps _ v hv h

end Declaration

end Listing
