import Listing.Proofs.Declaration.Codeless
import Listing.Proofs.Filter
import Listing.Request.Ordering

/-!
# Words of a declaration

What a call says about the structure of rows stands in fixed places of it: an attribute, a
relation, an operator, an aggregate, a scope, a direction. A vocabulary tells which values may stand
there, and `Script.Within` says that a script, and every script that stands in its calls, keeps to
a vocabulary. The other places hold data: the value of a comparison, the members of a set, a pattern
and the argument of a scope.

What operations name is the vocabulary of a declaration: `Value.Names` for fields and includes,
`Filter.Names`, `SortKey.Names`. An operation that runs no code keeps to every vocabulary that holds
what it names: `Filter.script_within`, `Operation.applied_within`, `Inclusion.script_within`.
-/

namespace Listing

/-- What a place in a call says about the structure of rows. -/
inductive Part
  | attribute
  | relation
  | operator
  | aggregate
  | scope
  | direction

/-- Which values may stand in which places. -/
abbrev Vocabulary := Part → Value → Prop

mutual

/-- Does the call keep to a vocabulary? -/
inductive Call.Within (V : Vocabulary) : Call → Prop
  | select {column : Value} : V .attribute column → Call.Within V (.select column)
  | compare {name operator : Value} (value : Value) : V .attribute name → V .operator operator →
      Call.Within V (.compare name operator value)
  | member {name : Value} (values : List Value) : V .attribute name →
      Call.Within V (.member name values)
  | like {name operator : Value} (pattern : Value) : V .attribute name → V .operator operator →
      Call.Within V (.like name pattern operator)
  | any {branches : List Script} : (∀ s ∈ branches, Script.Within V s) →
      Call.Within V (.any branches)
  | has {relation : Value} {refinement : Script} : V .relation relation →
      Script.Within V refinement → Call.Within V (.has relation refinement)
  | scope {name : Value} (argument : Value) : V .scope name → Call.Within V (.scope name argument)
  | trashed (mode : Trashed) : Call.Within V (.trashed mode)
  | load {relation : Value} : V .relation relation → Call.Within V (.load relation (.value .null))
  | loadRefined {relation : Value} {refinement : Script} : V .relation relation →
      Script.Within V refinement → Call.Within V (.load relation (.script refinement))
  | aggregate {relation column function : Value} : V .relation relation → V .attribute column →
      V .aggregate function → Call.Within V (.aggregate relation column function)
  | order {column direction : Value} : V .attribute column → V .direction direction →
      Call.Within V (.order column direction)

/-- Do all calls of the script keep to a vocabulary? -/
inductive Script.Within (V : Vocabulary) : Script → Prop
  | mk {calls : List Call} {failure : Option Error} : (∀ c ∈ calls, Call.Within V c) →
      Script.Within V (.mk calls failure)

end

namespace Script.Within

variable {V : Vocabulary} {t : Script}

theorem of_all (h : t.All (Call.Within V)) : t.Within V := by
  cases t
  exact ⟨h⟩

theorem all (h : t.Within V) : t.All (Call.Within V) := by
  obtain ⟨h⟩ := h
  exact h

theorem fail (e : Error) : (Script.fail e).Within V := .of_all (.fail e)

theorem one {c : Call} (h : c.Within V) : (Script.one c).Within V := .of_all (.one h)

theorem ofExcept {x : Except Error Script} (h : ∀ t, x = .ok t → t.Within V) :
    (Script.ofExcept x).Within V := .of_all (.ofExcept fun t ht => (h t ht).all)

end Script.Within

/-! ## What operations name -/

/-- What a target names as a `part`: all of it, or what stands around its last dot. -/
inductive TargetNames (part : Part) : Value → Part → Value → Prop
  | whole (target : Value) : TargetNames part target part target
  | relation {target relation rest : String} : Text.cutLast '.' target = some (relation, rest) →
      TargetNames part (.text target) .relation (.text relation)
  | rest {target relation rest : String} : Text.cutLast '.' target = some (relation, rest) →
      TargetNames part (.text target) part (.text rest)

/-- What a filter names. A search stands for patterns without an operator on its attributes. -/
inductive Filter.Names : Filter → Part → Value → Prop
  | exact {target part word} : TargetNames .attribute target part word →
      Names (.exact target) part word
  | equality (target) : Names (.exact target) .operator (.text "=")
  | member {target part word} : TargetNames .attribute target part word →
      Names (.member target) part word
  | compare {target part word} (operator) : TargetNames .attribute target part word →
      Names (.compare target operator) part word
  | comparison (target operator) : Names (.compare target operator) .operator operator
  | like {target part word} (escape operator) : TargetNames .attribute target part word →
      Names (.like target escape operator) part word
  | pattern (target escape operator) : Names (.like target escape operator) .operator operator
  | scope {target part word} : TargetNames .scope target part word →
      Names (.scope target) part word
  | search {attributes target part word} : target ∈ attributes →
      Names (.like target (.bool true) .null) part word → Names (.search attributes) part word

/-- What an operation names that a request for fields or includes can reach. A group names its
relation and what the operations in it name. -/
inductive Value.Names : Value → Part → Value → Prop
  | column (name) : Names (Field.column name).toValue .attribute name
  | aggregateRelation (relation column function) :
      Names (Field.aggregate relation column function).toValue .relation relation
  | aggregateColumn (relation column function) :
      Names (Field.aggregate relation column function).toValue .attribute column
  | aggregate (relation column function) :
      Names (Field.aggregate relation column function).toValue .aggregate function
  | group (name fields) : Names (Field.group name fields).toValue .relation name
  | inside {name} {es : Entries} {e part word} : e ∈ es → Names e.2 part word →
      Names (Field.group name (.map es)).toValue part word
  | inclusion (path refinement) :
      Names (Inclusion.relation path refinement).toValue .relation path

/-- Does the attribute order by the column in the direction, for one of the directions of a
request? -/
def SortKey.Lists (k : SortKey) (column direction : Value) : Prop :=
  ∃ descends items v, (k.orders descends).items = .ok items ∧ v ∈ items ∧
    Orders.readOne v = .ok (column, direction)

/-- What a sort attribute names. -/
inductive SortKey.Names (k : SortKey) : Part → Value → Prop
  | column {column direction} : k.Lists column direction → Names k .attribute column
  | direction {column direction} : k.Lists column direction → Names k .direction direction

/-- What the things in a registry name. -/
def Registry.Names {α : Type} (names : α → Vocabulary) (r : Registry α) : Vocabulary :=
  fun part word => ∃ e ∈ r, names e.2 part word

theorem Registry.names_of_get? {α : Type} {names : α → Vocabulary} {r : Registry α} {name : String}
    {a : α} (h : r.get? name = some a) {part : Part} {word : Value} (ha : names a part word) :
    r.Names names part word := by
  obtain ⟨n, hn⟩ := mem_of_get? h
  exact ⟨_, hn, ha⟩

/-! ## Filters -/

namespace Filter

variable {V : Vocabulary} {f : Filter} {target name value : Value}

/-- A target is taken as a whole or is split at its last dot. -/
theorem targetNames_of_splitTarget {relations : Bool} {relation? : Option Value} {t : Value}
    (h : splitTarget relations target = .ok (relation?, t)) (part : Part) :
    TargetNames part target part t ∧
      ∀ relation, relation? = some relation → TargetNames part target .relation relation := by
  unfold splitTarget at h
  split at h
  · split at h
    · next relation rest hcut =>
      obtain ⟨rfl, rfl⟩ := Prod.mk.inj (Except.ok.inj h)
      split at hcut
      · refine ⟨.rest hcut, fun r hr => ?_⟩
        obtain rfl := Option.some.inj hr
        exact .relation hcut
      · cases hcut
    · obtain ⟨rfl, rfl⟩ := Prod.mk.inj (Except.ok.inj h)
      exact ⟨.whole _, fun r hr => by cases hr⟩
  · split at h
    · split at h
      · cases h
      · obtain ⟨rfl, rfl⟩ := Prod.mk.inj (Except.ok.inj h)
        exact ⟨.whole _, fun r hr => by cases hr⟩
    · cases h

/-- The script of a filter with a target keeps to a vocabulary if the call on the attribute does. -/
theorem targetScript_within {part : Part} (relations : Bool)
    (hname : ∀ p word, TargetNames part target p word → V p word)
    (hcall : ∀ t, V part t → ∀ c, MakesOn t f c → c.Within V) :
    (targetScript relations f target name value).Within V := by
  have hon : ∀ t, V part t → (scriptOn f t name value).Within V := by
    intro t ht
    refine .ofExcept fun s hs => ?_
    obtain ⟨call, hc, rfl⟩ := map_eq_ok_iff.1 hs
    exact .one (hcall t ht call (makesOn_of_callOn hc))
  unfold targetScript
  split
  · exact .fail _
  · next t hsplit =>
    exact hon t (hname _ _ (targetNames_of_splitTarget hsplit part).1)
  · next relation t hsplit =>
    obtain ⟨ht, hrelation⟩ := targetNames_of_splitTarget hsplit part
    exact .one (.has (hname _ _ (hrelation relation rfl)) (hon t (hname _ _ ht)))

theorem like_script_within {escape operator : Value} (relations : Bool)
    (h : ∀ part word, (Filter.like target escape operator).Names part word → V part word) :
    (targetScript relations (.like target escape operator) target name value).Within V := by
  refine targetScript_within relations (fun p word hw => h p word (.like _ _ hw)) ?_
  rintro t ht _ ⟨⟩
  exact .like _ ht (h _ _ (.pattern _ _ _))

/-- **A filter without a callback keeps to what it names**: the request gives the value of
a comparison, the members of a set, a pattern and the argument of a scope, and nothing else. -/
theorem script_within (hf : f.RunsNothing) (relations : Bool)
    (h : ∀ part word, f.Names part word → V part word) :
    (f.script relations name value).Within V := by
  cases f with
  | exact target =>
    refine targetScript_within relations (fun p word hw => h p word (.exact hw)) ?_
    rintro t ht _ (_ | _)
    · exact .compare _ ht (h _ _ (.equality _))
    · exact .member _ ht
  | member target =>
    refine targetScript_within relations (fun p word hw => h p word (.member hw)) ?_
    rintro t ht _ ⟨⟩
    exact .member _ ht
  | compare target operator =>
    refine targetScript_within relations (fun p word hw => h p word (.compare _ hw)) ?_
    rintro t ht _ ⟨⟩
    exact .compare _ ht (h _ _ (.comparison _ _))
  | like target escape operator => exact like_script_within relations h
  | scope target =>
    refine targetScript_within relations (fun p word hw => h p word (.scope hw)) ?_
    rintro t ht _ ⟨⟩
    exact .scope _ ht
  | search attributes =>
    simp only [script]
    split
    · exact .fail _
    · refine .one (.any fun s hs => ?_)
      obtain ⟨target, ha, rfl⟩ := List.mem_map.1 hs
      exact like_script_within relations fun part word hw => h part word (.search ha hw)
  | trashed =>
    simp only [script]
    split
    · exact .fail _
    · exact .one (.trashed _)
  | callback function => exact absurd rfl (hf function)

end Filter

/-! ## Fields and includes -/

theorem Inclusion.script_within {V : Vocabulary} {i : Inclusion} (hi : i.RunsNothing) (name : Value)
    (h : ∀ part word, i.toValue.Names part word → V part word) : (i.script name).Within V := by
  obtain ⟨path, rfl⟩ := hi
  exact .one (.load (h _ _ (.inclusion path .null)))

/-- **An operation without code that is applied to a name keeps to what it names**, whatever it
is. -/
theorem Operation.applied_within {V : Vocabulary} {operation : Value}
    (hcode : operation.isCodeless = true)
    (h : ∀ part word, operation.Names part word → V part word) (relations : Bool) (name : Value) :
    (Operation.applied relations operation [name]).Within V := by
  unfold Operation.applied
  split
  · exact .fail _
  · exact .fail _
  · next f _ _ hfield =>
    obtain rfl := Field.toValue_of_ofValue? hfield
    cases f with
    | column own => exact .one (.select (h _ _ (.column own)))
    | callback function => cases hcode
    | aggregate relation own function =>
      exact .one (.aggregate (h _ _ (.aggregateRelation _ _ _)) (h _ _ (.aggregateColumn _ _ _))
        (h _ _ (.aggregate _ _ _)))
    | group _ _ => exact .fail _
  · next i hinclusion =>
    obtain rfl := Inclusion.toValue_of_ofValue? hinclusion
    exact Inclusion.script_within (Inclusion.runsNothing_of_ofValue? hcode hinclusion) name h
  · exact .fail _

end Listing
