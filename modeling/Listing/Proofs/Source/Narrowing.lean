import Listing.Proofs.Number.Compare
import Listing.Proofs.Relational.Ordered
import Listing.Source

/-!
# Selected columns do not matter to other calls

Only a call that selects reads what is selected: `Query.ask_withColumns`,
`Collection.ask_withColumns`. So the source that calls leave where columns have been selected before
is the one that they leave without, with these columns selected.

A source owns a name if it is that of one of its columns (`Source.Owns`). Selecting names that
a source owns one after the other selects each of them once.
-/

namespace Listing

namespace Query

variable {q : Query} {cs : List (Value × Property)}

/-- The query with other selected columns. -/
def withColumns (cs : List (Value × Property)) (q : Query) : Query := { q with columns := cs }

@[simp] theorem withColumns_entity : (q.withColumns cs).entity = q.entity := rfl

theorem compare_withColumns (name operator value : Value) :
    (q.withColumns cs).compare name operator value =
      (q.compare name operator value).map (withColumns cs) := by
  unfold compare
  simp only [bind_map]
  refine bind_congr fun found => ?_
  cases found with
  | none => rfl
  | some c =>
    simp only [bind_map]
    refine bind_congr fun property => ?_
    cases property <;> simp only [bind_map] <;> rfl

theorem member_withColumns (name values : Value) :
    (q.withColumns cs).member name values = (q.member name values).map (withColumns cs) := by
  unfold member
  simp only [bind_map]
  refine bind_congr fun property => bind_congr fun vs => ?_
  cases property <;> simp only [bind_map] <;> rfl

theorem like_withColumns (name pattern operator : Value) :
    (q.withColumns cs).like name pattern operator =
      (q.like name pattern operator).map (withColumns cs) := by
  unfold like
  simp only [bind_map]
  refine bind_congr fun property => bind_congr fun op => ?_
  split <;> rfl

theorem scope_withColumns (name : Value) (arguments : List Value) :
    (q.withColumns cs).scope name arguments = (q.scope name arguments).map (withColumns cs) := by
  unfold scope
  cases name with
  | text s =>
    simp only [withColumns_entity]
    split
    · simp only [bind_map]
      rfl
    · rfl
    · rfl
  | _ => rfl

theorem mark_withColumns (mode : Trashed) :
    (q.withColumns cs).mark mode = (q.mark mode).map (withColumns cs) := by
  unfold mark
  show (if q.entity.softDelete.isSome then _ else _) = _
  split <;> rfl

theorem order_withColumns (name : Value) (direction : Direction) :
    (q.withColumns cs).order name direction = (q.order name direction).map (withColumns cs) := by
  unfold order
  simp only [bind_map]
  refine bind_congr fun property => ?_
  cases property <;> rfl

theorem aggregate_withColumns (r c f : Value) :
    (q.withColumns cs).aggregate r c f = (q.aggregate r c f).map (withColumns cs) := by
  cases f with
  | text s =>
    unfold aggregate
    simp only [pure_eq_ok, ok_bind, throw_eq_error, error_bind]
    cases AggregateFunction.named? (Text.lower s) with
    | none => rfl
    | some f =>
      cases hfits : q.entity.mapped && !r.hashable with
      | true => simp only [withColumns_entity, hfits, if_true, error_map]
      | false =>
        simp only [withColumns_entity, hfits, Bool.false_eq_true, if_false, bind_map]
        refine bind_congr fun text => bind_congr fun r => bind_congr fun inner => ?_
        split
        · rfl
        · simp only [bind_map]
          rfl
  | _ => rfl

theorem whereAny_withColumns (branches : List (Given Query)) :
    (q.withColumns cs).whereAny branches = (q.whereAny branches).map (withColumns cs) := by
  unfold whereAny
  simp only [bind_map]
  refine bind_congr fun criteria => ?_
  split <;> rfl

theorem relatedCriterion_withColumns (refinement : Given Query) (path : List String) :
    (q.withColumns cs).relatedCriterion refinement path = q.relatedCriterion refinement path := by
  match path with
  | [] | [name] | a :: b :: rest => rfl

theorem whereHas_withColumns (relation : Value) (refinement : Given Query) :
    (q.withColumns cs).whereHas relation refinement =
      (q.whereHas relation refinement).map (withColumns cs) := by
  unfold whereHas
  split
  · simp only [bind_map, relatedCriterion_withColumns]
    rfl
  · rfl

theorem loadingsAlong_withColumns (refinement : Given Query) (here : List Relation)
    (path : List String) :
    (q.withColumns cs).loadingsAlong refinement here path =
      q.loadingsAlong refinement here path := by
  match path with
  | [] | [name] | a :: b :: rest => rfl

theorem load_withColumns (relation : Value) (refinement : Given Query) :
    (q.withColumns cs).load relation refinement =
      (q.load relation refinement).map (withColumns cs) := by
  unfold load
  split
  · simp only [bind_map, loadingsAlong_withColumns]
    rfl
  · rfl

/-- **Only a call that selects notices what is selected.** -/
theorem ask_withColumns {c : Capability} (hc : c ≠ .select) (given : List (Given Query)) :
    (q.withColumns cs).ask c given = (q.ask c given).map (withColumns cs) := by
  unfold ask
  split
  · exact absurd rfl hc
  · exact compare_withColumns ..
  · exact member_withColumns ..
  · exact like_withColumns ..
  · exact like_withColumns ..
  · simp only [bind_map, whereAny_withColumns]
  · exact whereHas_withColumns ..
  · exact whereHas_withColumns ..
  · simp only [bind_map, scope_withColumns]
  · exact mark_withColumns ..
  · exact load_withColumns ..
  · exact load_withColumns ..
  · exact aggregate_withColumns ..
  · exact order_withColumns ..
  · simp only [bind_map, order_withColumns]
  · rfl
end Query

namespace Collection

variable {c : Collection} {cs : List Value}

/-- The collection with other selected columns. -/
def withColumns (cs : List Value) (c : Collection) : Collection := { c with columns := cs }

theorem compare_withColumns (name operator value : Value) :
    (c.withColumns cs).compare name operator value =
      (c.compare name operator value).map (withColumns cs) := by
  unfold compare
  simp only [bind_map]
  refine bind_congr fun found => ?_
  cases found <;> rfl

theorem like_withColumns (name pattern operator : Value) :
    (c.withColumns cs).like name pattern operator =
      (c.like name pattern operator).map (withColumns cs) := by
  unfold like
  simp only [bind_map]
  rfl

theorem order_withColumns (name direction : Value) :
    (c.withColumns cs).order name direction = (c.order name direction).map (withColumns cs) := by
  unfold order
  simp only [bind_map]
  rfl

theorem any_withColumns (branches : List (Given Collection)) :
    (c.withColumns cs).any branches = (c.any branches).map (withColumns cs) := by
  unfold any
  simp only [bind_map]
  refine bind_congr fun criteria => ?_
  split <;> rfl

/-- **Only a call that selects notices what is selected.** -/
theorem ask_withColumns {capability : Capability} (hc : capability ≠ .select)
    (given : List (Given Collection)) :
    (c.withColumns cs).ask capability given = (c.ask capability given).map (withColumns cs) := by
  unfold ask
  split
  · exact absurd rfl hc
  · exact compare_withColumns ..
  · simp only [bind_map]
    rfl
  · exact like_withColumns ..
  · exact like_withColumns ..
  · simp only [bind_map, any_withColumns]
  · exact order_withColumns ..
  · exact order_withColumns ..
  all_goals rfl

end Collection

/-! ## Own columns -/

/-- A name is found among names exactly if it is one of them. -/
theorem Value.occursIn?_texts (name : String) (names : List String) :
    (Value.text name).occursIn? (names.map .text) = .ok (decide (name ∈ names)) := by
  induction names with
  | nil => rfl
  | cons other names ih =>
    rw [List.map_cons]
    unfold occursIn?
    have hsame : (Value.text other).same (.text name) = decide (other = name) := by
      rw [same]
      rfl
    rw [hsame, equal?_text, ih]
    by_cases h : other = name
    · subst h
      simp
    · have hne : (Value.text other).equal (.text name) = false := by
        rw [Bool.eq_false_iff, Ne, equal_text, Value.text.injEq]
        exact h
      simp [h, hne, Ne.symm h]

/-- Names with one more, unless it is among them. -/
def adding (names : List String) (name : String) : List String :=
  if name ∈ names then names else names ++ [name]

theorem mem_adding {names : List String} {name other : String} :
    other ∈ adding names name ↔ other ∈ names ∨ other = name := by
  unfold adding
  split
  · next h => exact ⟨.inl, fun hother => hother.elim id fun heq => heq ▸ h⟩
  · rw [List.mem_append, List.mem_singleton]

theorem nodup_adding {names : List String} (h : names.Nodup) (name : String) :
    (adding names name).Nodup := by
  unfold adding
  split
  · exact h
  · next hne =>
    refine List.nodup_append.2 ⟨h, by simp, fun a ha b hb heq => hne ?_⟩
    rwa [← List.mem_singleton.1 hb, ← heq]

theorem foldl_adding (others names : List String) : others.foldl adding names =
    names ++ (others.filter fun name => decide (name ∉ names)).eraseDups := by
  induction others generalizing names with
  | nil => simp
  | cons other others ih =>
    rw [List.foldl_cons, ih, adding]
    by_cases h : other ∈ names
    · rw [if_pos h, List.filter_cons_of_neg (by simpa using h)]
    · have hrest : (others.filter fun name => decide (name ∉ names ++ [other])) =
          (others.filter fun name => decide (name ∉ names)).filter fun name => !name == other := by
        rw [List.filter_filter]
        refine List.filter_congr fun name _ => ?_
        by_cases heq : name = other <;> simp [heq]
      rw [if_neg h, List.filter_cons_of_pos (by simpa using h), List.eraseDups_cons, hrest,
        List.append_assoc, List.singleton_append]

/-- **Names that are added one after the other** stand in the order in which they come first. -/
theorem foldl_adding_nil (names : List String) : names.foldl adding [] = names.eraseDups := by
  simp [foldl_adding]

theorem nodup_eraseDups (names : List String) : names.eraseDups.Nodup := by
  have hfold : ∀ others : List String, others.Nodup → (names.foldl adding others).Nodup := by
    induction names with
    | nil => exact fun _ h => h
    | cons name names ih => exact fun others h => ih _ (nodup_adding h name)
  rw [← foldl_adding_nil]
  exact hfold [] List.nodup_nil

namespace Query

variable {q : Query} {names : List String}

/-- Is it the name of one of the columns that the rows of a query have? -/
def Owns (q : Query) (name : String) : Prop :=
  ∃ c ∈ q.projection, q.entity.column? name = some c ∧
    (q.entity.mapped = true → q.entity.relation? name = none)

/-- The columns with these names. -/
def ownColumns (q : Query) (names : List String) : List Column := names.filterMap q.entity.column?

/-- The query with the columns of these names selected, and no others. -/
def selecting (q : Query) (names : List String) : Query :=
  q.withColumns ((q.ownColumns names).map fun c => (.text c.name, .column c))

@[simp] theorem selecting_entity : (q.selecting names).entity = q.entity := rfl

@[simp] theorem selecting_sorting : (q.selecting names).sorting = q.sorting := rfl

@[simp] theorem selecting_orders : (q.selecting names).orders = q.orders := rfl

@[simp] theorem selecting_criterion : (q.selecting names).criterion = q.criterion := rfl

@[simp] theorem selecting_aggregates : (q.selecting names).aggregates = q.aggregates := rfl

@[simp] theorem selecting_matching : (q.selecting names).matching = q.matching := rfl

@[simp] theorem selecting_columnOf : (q.selecting names).columnOf = q.columnOf := rfl

theorem Owns.name_eq {name : String} {c : Column} (h : q.entity.column? name = some c) :
    c.name = name := by
  have hfound := List.find?_some h
  exact beq_iff_eq.1 hfound

theorem map_ownColumns (h : ∀ name ∈ names, q.Owns name) :
    (q.ownColumns names).map (·.name) = names := by
  unfold ownColumns
  induction names with
  | nil => rfl
  | cons name names ih =>
    obtain ⟨c, -, hc, -⟩ := h name (List.mem_cons_self ..)
    rw [List.filterMap_cons_some hc, List.map_cons, Owns.name_eq hc,
      ih fun name hname => h name (List.mem_cons_of_mem _ hname)]

theorem names_selecting (h : ∀ name ∈ names, q.Owns name) :
    (q.selecting names).columns.map Prod.fst = names.map .text := by
  conv_rhs => rw [← map_ownColumns h]
  show ((q.ownColumns names).map _).map Prod.fst = _
  rw [List.map_map, List.map_map]
  rfl

theorem select_selecting {name : String} (h : ∀ name ∈ names, q.Owns name) (hname : q.Owns name) :
    (q.selecting names).select (.text name) = .ok (q.selecting (adding names name)) := by
  obtain ⟨c, -, hc, hapart⟩ := hname
  have hproperty : (q.selecting names).propertyOf (.text name) = .ok (.column c) :=
    propertyOf_text hc hapart
  unfold select
  rw [hproperty, ok_bind, names_selecting h, Value.occursIn?_texts, ok_bind]
  unfold adding
  by_cases hmem : name ∈ names
  · simp [hmem]
  · simp [hmem, selecting, withColumns, ownColumns, hc, Owns.name_eq hc]

end Query

namespace Collection

/-- The collection with the columns of these names selected, and no others. -/
def selecting (c : Collection) (names : List String) : Collection := c.withColumns (names.map .text)

theorem select_selecting (c : Collection) (names : List String) (name : String) :
    (c.selecting names).select (.text name) = .ok (c.selecting (adding names name)) := by
  unfold select
  show (Value.text name).occursIn? (names.map .text) >>= _ = _
  rw [Value.occursIn?_texts, ok_bind]
  unfold adding
  by_cases hmem : name ∈ names
  · simp [hmem]
  · simp [hmem, selecting, withColumns]

end Collection

namespace Source

/-- Is it the name of one of the columns that the rows of a source have? Rows in memory have null under
every name that they do not have. -/
def Owns : Source → String → Prop
  | .bare, _ => False
  | .collection _, _ => True
  | .query q, name => q.Owns name

/-- The source with the columns of these names selected, and no others. -/
def selecting : Source → List String → Source
  | .bare, _ => .bare
  | .collection c, names => .collection (c.selecting names)
  | .query q, names => .query (q.selecting names)

end Source

end Listing
