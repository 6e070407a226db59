import Listing.Proofs.Request.Filtering
import Listing.Proofs.Request.Vocabulary
import Listing.Proofs.Value.Entries

/-!
# Requests keep to what is declared

A request picks among what is declared, and it fills in data. Whatever it says, the calls that
a selection, a filtering and an ordering make name only words of the declared operations, at any
depth of relations and branches: `Selector.script_within`, `FilterPipeline.script_within`,
`Sorter.script_within`, together `Declaration.requests_within`.
-/

namespace Listing

variable {V : Vocabulary}

/-! ## Selections -/

/-- Do the values in a map have a property? -/
def Value.Declares (D : Value → Prop) (fields : Value) : Prop :=
  ∀ es, fields = .map es → ∀ e ∈ es, D e.2

/-- Do operations with a property make calls with another one, on their own and in groups? -/
structure Operation.Makes (D : Value → Prop) (Q : Call → Prop) : Prop where
  missing : D .null
  applied : ∀ {entry}, D entry → ∀ name, (Operation.applied false entry [name]).All Q
  inside : ∀ {name inner}, D (Field.group name inner).toValue → inner.Declares D
  group : ∀ {name inner}, D (Field.group name inner).toValue → ∀ {t : Script}, t.All Q →
    Q (.load name (.script t))

theorem Registry.declares_toMap {D : Value → Prop} {r : Registry Field}
    (h : r.All fun f => D f.toValue) : (r.toMap Field.toValue).Declares D := by
  intro es hes e he
  obtain rfl := Value.map.inj hes
  obtain ⟨p, hp, rfl⟩ := List.mem_map.1 he
  exact h p hp

namespace Selector

variable {D : Value → Prop} {Q : Call → Prop}

theorem declared_makes (hQ : Operation.Makes D Q) {fields name entry : Value}
    (hf : fields.Declares D) (h : declared fields name = .ok entry) : D entry := by
  unfold declared at h
  split at h
  · next es =>
    obtain rfl := Except.ok.inj h
    cases hget : Entries.get? es name with
    | none => exact hQ.missing
    | some entry =>
      obtain ⟨l, hl, -⟩ := Entries.mem_of_get?_eq_some hget
      exact hf es rfl _ hl
  · cases h

theorem fieldStep_makes (hQ : Operation.Makes D Q) {fields v : Value} {path : List Value}
    {step : FieldStep} (hf : fields.Declares D) (h : fieldStep fields path v = .ok step) :
    step.script.All Q := by
  unfold fieldStep at h
  dsimp only at h
  split at h
  · obtain ⟨entry, hentry, h⟩ := bind_eq_ok_iff.1 h
    split at h
    · exact absurd h bind_error_ne_ok
    · exact absurd h bind_error_ne_ok
    · obtain rfl := Except.ok.inj h
      exact hQ.applied (declared_makes hQ hf hentry) _
  · exact absurd h bind_error_ne_ok

theorem declared_of_group (hQ : Operation.Makes D Q) {fields key name inner : Value}
    {path : List Value} (hf : fields.Declares D) (h : group fields path key = .ok (name, inner)) :
    D (Field.group name inner).toValue := by
  obtain ⟨entry, hentry, h⟩ := bind_eq_ok_iff.1 h
  split at h
  · next n i hfield =>
    obtain ⟨rfl, rfl⟩ := Prod.mk.inj (Except.ok.inj h)
    obtain rfl := Field.toValue_of_ofValue? hfield
    exact declared_makes hQ hf hentry
  · exact absurd h bind_error_ne_ok

/-- Do all steps of a plan make calls with the property, if there is one? -/
def PlanMakes (Q : Call → Prop) (plan : Except Error (List FieldStep)) : Prop :=
  ∀ steps, plan = .ok steps → ∀ s ∈ steps, s.script.All Q

theorem PlanMakes.nil : PlanMakes Q (.ok []) := by
  intro steps h
  obtain rfl := Except.ok.inj h
  simp

theorem PlanMakes.cons {x : Except Error FieldStep} (hx : ∀ s, x = .ok s → s.script.All Q)
    {plan : Except Error (List FieldStep)} (h : PlanMakes Q plan) :
    PlanMakes Q (do return (← x) :: (← plan)) := by
  intro steps hsteps
  obtain ⟨first, hfirst, hsteps⟩ := bind_eq_ok_iff.1 hsteps
  obtain ⟨rest, hrest, hsteps⟩ := bind_eq_ok_iff.1 hsteps
  obtain rfl := Except.ok.inj hsteps
  exact List.forall_mem_cons.2 ⟨hx first hfirst, h rest hrest⟩

theorem PlanMakes.append {x y : Except Error (List FieldStep)} (hx : PlanMakes Q x)
    (hy : PlanMakes Q y) : PlanMakes Q (do return (← x) ++ (← y)) := by
  intro steps hsteps
  obtain ⟨first, hfirst, hsteps⟩ := bind_eq_ok_iff.1 hsteps
  obtain ⟨rest, hrest, hsteps⟩ := bind_eq_ok_iff.1 hsteps
  obtain rfl := Except.ok.inj hsteps
  exact fun s hs => (List.mem_append.1 hs).elim (hx first hfirst s) (hy rest hrest s)

theorem PlanMakes.bind {α : Type} {x : Except Error α} {plan : α → Except Error (List FieldStep)}
    (h : ∀ a, x = .ok a → PlanMakes Q (plan a)) : PlanMakes Q (x >>= plan) := by
  intro steps hsteps
  obtain ⟨a, ha, hsteps⟩ := bind_eq_ok_iff.1 hsteps
  exact h a ha steps hsteps

theorem scriptOf_makes {steps : List FieldStep} (h : ∀ s ∈ steps, s.script.All Q) :
    (FieldStep.scriptOf steps).All Q := by
  induction steps with
  | nil => exact .done
  | cons s steps ih =>
    exact (h s (List.mem_cons_self ..)).andThen (ih fun s hs => h s (List.mem_cons_of_mem _ hs))

/-- An item plans the entries of a map, or a step for itself. -/
theorem planItems_cons (fields : Value) (path : List Value) (i : Nat) (v : Value)
    (vs : List Value) : (∃ es, v = .map es ∧ planItems fields path i (v :: vs) =
      (do return (← planEntries fields path es) ++ (← planItems fields path i vs))) ∨
    (∀ es, v ≠ .map es) ∧ planItems fields path i (v :: vs) =
      (do return (← fieldStep fields path v) :: (← planItems fields path (i + 1) vs)) := by
  cases v with
  | map es => exact .inl ⟨es, rfl, rfl⟩
  | _ => exact .inr ⟨nofun, rfl⟩

mutual

/-- **A plan for fields makes calls of one kind** if the operations among the fields do, in every
relation. -/
theorem planValue_makes (hQ : Operation.Makes D Q) {fields : Value} (hf : fields.Declares D)
    (path : List Value) : (v : Value) → PlanMakes Q (planValue fields path v)
  | .text s => by
    refine .bind fun _ _ => fun steps hsteps step hstep => ?_
    obtain ⟨name, -, hname⟩ := exists_of_mem_mapM hsteps hstep
    exact fieldStep_makes hQ hf hname
  | .map es => .bind fun _ _ => planEntries_makes hQ hf path es
  | .list vs | .tuple vs | .set vs => .bind fun _ _ => planItems_makes hQ hf path 0 vs
  | .null | .bool _ | .int _ | .binary _ | .decimal _ | .bytes _ | .moment _ | .date _
  | .record _ | .choice _ | .request _ _ | .cursor _ _ | .finished _ _ | .function _ _
  | .object _ => .bind fun _ _ => fun _ hsteps => by cases hsteps
termination_by v => sizeOf v

theorem planEntries_makes (hQ : Operation.Makes D Q) {fields : Value} (hf : fields.Declares D)
    (path : List Value) : (es : List (Value × Value)) → PlanMakes Q (planEntries fields path es)
  | [] => .nil
  | (key, v) :: es => by
    rw [planEntries]
    by_cases hkey : key.isPosition
    · rw [if_pos hkey]
      exact .cons (fun s hs => fieldStep_makes hQ hf hs) (planEntries_makes hQ hf path es)
    · rw [if_neg hkey]
      refine .bind fun ⟨name, inner⟩ hgroup => .bind fun steps hsteps => ?_
      have hdeclared := declared_of_group hQ hf hgroup
      have hsteps := planValue_makes hQ (hQ.inside hdeclared) (path ++ [key]) v steps hsteps
      refine .cons (x := pure (.relation name steps)) (fun s hs => ?_)
        (planEntries_makes hQ hf path es)
      obtain rfl := Except.ok.inj hs
      exact .one (hQ.group hdeclared (scriptOf_makes hsteps))
termination_by es => sizeOf es

theorem planItems_makes (hQ : Operation.Makes D Q) {fields : Value} (hf : fields.Declares D)
    (path : List Value) (i : Nat) : (vs : List Value) → PlanMakes Q (planItems fields path i vs)
  | [] => .nil
  | v :: vs => by
    rcases planItems_cons fields path i v vs with ⟨es, rfl, hplan⟩ | ⟨-, hplan⟩
    · rw [hplan]
      exact .append (planEntries_makes hQ hf path es) (planItems_makes hQ hf path i vs)
    · rw [hplan]
      exact .cons (fun s hs => fieldStep_makes hQ hf hs) (planItems_makes hQ hf path (i + 1) vs)
termination_by vs => sizeOf vs

end

theorem splitOwn_makes (hQ : Operation.Makes D Q) {own : Registry Field} {keyword name : Value}
    (hown : (own.toMap Field.toValue).Declares D) {ps : List (Value × Value)} {first rest}
    (h : splitOwn own keyword name ps = .ok (first, rest)) : ∀ s ∈ first, s.script.All Q := by
  induction ps generalizing first rest with
  | nil =>
    obtain ⟨rfl, -⟩ := Prod.mk.inj (Except.ok.inj h)
    simp
  | cons p ps ih =>
    obtain ⟨key, v⟩ := p
    rw [splitOwn] at h
    obtain ⟨same, -, h⟩ := bind_eq_ok_iff.1 h
    dsimp only at h
    split at h
    · split at h
      · exact absurd h bind_error_ne_ok
      obtain ⟨steps, hsteps, h⟩ := bind_eq_ok_iff.1 h
      obtain ⟨⟨more, others⟩, hmore, h⟩ := bind_eq_ok_iff.1 h
      obtain ⟨rfl, -⟩ := Prod.mk.inj (Except.ok.inj h)
      exact fun s hs => (List.mem_append.1 hs).elim
        (planValue_makes hQ hown _ _ steps hsteps s) (ih hmore s)
    · obtain ⟨⟨more, others⟩, hmore, h⟩ := bind_eq_ok_iff.1 h
      obtain ⟨rfl, -⟩ := Prod.mk.inj (Except.ok.inj h)
      exact ih hmore

theorem fieldPlan_makes (hQ : Operation.Makes D Q) {s : Selector}
    (hs : s.fields.All fun f => D f.toValue) (sourceName : Except Error Value) (params : Entries) :
    PlanMakes Q (s.fieldPlan sourceName params) := by
  -- the fields that are split off for the own name are among all fields, and so are the groups
  have hpart : ∀ p : String × Field → Bool,
      (Registry.toMap Field.toValue (s.fields.filter p)).Declares D := fun p =>
    Registry.declares_toMap fun e he => hs e (List.mem_of_mem_filter he)
  unfold fieldPlan
  refine .bind fun raw _ => ?_
  split
  · exact .nil
  · refine .bind fun requested _ => .bind fun own _ => ?_
    split
    · exact .bind fun _ _ => planEntries_makes hQ (Registry.declares_toMap hs) _ _
    · refine .bind fun ⟨first, rest⟩ hsplit => .bind fun _ _ => ?_
      refine .append (x := pure first) (fun steps hsteps => ?_) (planEntries_makes hQ (hpart _) _ _)
      obtain rfl := Except.ok.inj hsteps
      exact splitOwn_makes hQ (hpart _) hsplit

theorem exists_of_inclusionStep {s : Selector} {v : Value} {p : String × Inclusion}
    (hp : s.inclusionStep v = .ok p) : s.inclusions.get? p.1 = some p.2 := by
  unfold inclusionStep at hp
  dsimp only at hp
  split at hp
  · split at hp
    · next i hi =>
      obtain rfl := Except.ok.inj hp
      exact hi
    · exact absurd hp bind_error_ne_ok
  · exact absurd hp bind_error_ne_ok

theorem inclusionScript_makes {plan : List (String × Inclusion)}
    (h : ∀ p ∈ plan, (p.2.script (.text p.1)).All Q) : (inclusionScript plan).All Q := by
  induction plan with
  | nil => exact .done
  | cons p plan ih =>
    exact (h p (List.mem_cons_self ..)).andThen (ih fun p hp => h p (List.mem_cons_of_mem _ hp))

theorem inclusionPlan_makes {s : Selector}
    (hs : s.inclusions.All fun i => ∀ name, (i.script name).All Q) {params : Entries}
    {plan : List (String × Inclusion)} (hplan : s.inclusionPlan params = .ok plan) :
    (inclusionScript plan).All Q := by
  obtain ⟨raw, -, hplan⟩ := bind_eq_ok_iff.1 hplan
  split at hplan
  · obtain rfl := Except.ok.inj hplan
    exact .done
  · obtain ⟨names, -, hplan⟩ := bind_eq_ok_iff.1 hplan
    refine inclusionScript_makes fun p hp => ?_
    obtain ⟨v, -, hv⟩ := exists_of_mem_mapM hplan hp
    exact hs.get? (exists_of_inclusionStep hv) _

/-- **A selection makes calls of one kind** if its fields and includes do. -/
theorem script_makes (hQ : Operation.Makes D Q) {s : Selector}
    (hfields : s.fields.All fun f => D f.toValue)
    (hinclusions : s.inclusions.All fun i => ∀ name, (i.script name).All Q)
    (sourceName : Except Error Value) (params : Entries) : (s.script sourceName params).All Q := by
  unfold script
  split
  · exact .fail _
  · next steps hsteps =>
    split
    · exact .fail _
    · next plan hplan =>
      exact (scriptOf_makes (fieldPlan_makes hQ hfields sourceName params steps hsteps)).andThen
        (inclusionPlan_makes hinclusions hplan)

/-- Operations without code keep to every vocabulary that holds what they name. -/
theorem makes_within (V : Vocabulary) : Operation.Makes
    (fun entry => entry.isCodeless = true ∧ ∀ part word, entry.Names part word → V part word)
    (Call.Within V) where
  missing := ⟨rfl, fun part word hw => by cases hw⟩
  applied := fun h name => (Operation.applied_within h.1 h.2 false name).all
  inside := by
    rintro name inner ⟨hcode, hnames⟩ es rfl e he
    simp only [Field.toValue, Value.isCodeless, Form.runsNothing, allCodeless, Bool.and_true,
      Bool.true_and, Bool.and_eq_true] at hcode
    exact ⟨entriesCodeless_iff.1 hcode.2 e he, fun part word hw => hnames part word (.inside he hw)⟩
  group := fun h _ ht => .loadRefined (h.2 _ _ (.group _ _)) (.of_all ht)

/-- **A selection keeps to what its fields and includes name.** -/
theorem script_within {s : Selector} (hfields : s.fields.All Field.RunsNothing)
    (hinclusions : s.inclusions.All Inclusion.RunsNothing) (sourceName : Except Error Value)
    (params : Entries) :
    (s.script sourceName params).Within fun part word =>
      s.fields.Names (fun f => f.toValue.Names) part word ∨
        s.inclusions.Names (fun i => i.toValue.Names) part word :=
  .of_all (script_makes (makes_within _)
    (fun e he => ⟨hfields e he, fun _ _ hw => .inl ⟨e, he, hw⟩⟩)
    (fun e he name => (Inclusion.script_within (hinclusions e he) name
      fun _ _ hw => .inr ⟨e, he, hw⟩).all) sourceName params)

end Selector

/-! ## Filters -/

namespace FilterPipeline

/-- **A filtering makes calls of one kind** if its filters do. -/
theorem script_makes {Q : Call → Prop} {p : FilterPipeline} {relations : Bool}
    (h : p.filters.All fun f => ∀ name value, (f.script relations name value).All Q)
    (params : Entries) : (p.script relations params).All Q := by
  refine .ofExcept fun script hscript => ?_
  obtain ⟨steps, hsteps, hscript⟩ := bind_eq_ok_iff.1 hscript
  obtain rfl := Except.ok.inj hscript
  refine .sequence fun t ht => ?_
  obtain ⟨s, hs, rfl⟩ := List.mem_map.1 ht
  obtain ⟨name, -, hget⟩ := Option.bind_eq_some_iff.1 (named?_of_mem_steps hsteps hs)
  exact h.get? hget _ _

/-- **A filtering keeps to what its filters name.** -/
theorem script_within {p : FilterPipeline} (hp : p.filters.All Filter.RunsNothing)
    (relations : Bool) (params : Entries) :
    (p.script relations params).Within (p.filters.Names Filter.Names) :=
  .of_all (script_makes (fun e he _ _ => (Filter.script_within (hp e he) relations
    fun _ _ hw => ⟨e, he, hw⟩).all) params)

end FilterPipeline

/-! ## Orders -/

namespace Sorter

/-- Do the orders name only words of the vocabulary? -/
def OrdersWithin (V : Vocabulary) (os : Orders) : Prop :=
  ∀ o ∈ os, V .attribute o.1 ∧ V .direction o.2

theorem insert_within {os os' : Orders} (hos : OrdersWithin V os) {column direction : Value}
    (hc : V .attribute column) (hd : V .direction direction)
    (h : os.insert column direction = .ok os') : OrdersWithin V os' := by
  unfold Orders.insert at h
  split at h
  · obtain rfl := Except.ok.inj h
    intro o ho
    -- an order that is there keeps its column and takes the new direction
    rcases Entries.mem_insert ho with ho | rfl | ⟨l, w, hl, -, rfl⟩
    · exact hos o ho
    · exact ⟨hc, hd⟩
    · exact ⟨(hos _ hl).1, hd⟩
  · cases h

theorem extend_within {k : SortKey} (hk : ∀ part word, k.Names part word → V part word)
    {descends : Bool} {os os' : Orders} (hos : OrdersWithin V os)
    (h : os.extend (k.orders descends) = .ok os') : OrdersWithin V os' := by
  obtain ⟨items, hitems, hfold⟩ := bind_eq_ok_iff.1 h
  have hlist : ∀ v ∈ items, ∀ column direction, Orders.readOne v = .ok (column, direction) →
      V .attribute column ∧ V .direction direction := fun v hv column direction hread =>
    have hlists : k.Lists column direction := ⟨descends, items, v, hitems, hv, hread⟩
    ⟨hk _ _ (.column hlists), hk _ _ (.direction hlists)⟩
  clear h hitems
  induction items generalizing os with
  | nil =>
    obtain rfl := Except.ok.inj hfold
    exact hos
  | cons v items ih =>
    rw [List.foldlM_cons] at hfold
    obtain ⟨os₁, hstep, hfold⟩ := bind_eq_ok_iff.1 hfold
    obtain ⟨⟨column, direction⟩, hread, hinsert⟩ := bind_eq_ok_iff.1 hstep
    obtain ⟨hc, hd⟩ := hlist v (List.mem_cons_self ..) column direction hread
    exact ih (insert_within hos hc hd hinsert) hfold fun v hv => hlist v (List.mem_cons_of_mem _ hv)

theorem expandOver_within {s : Sorter}
    (hs : ∀ part word, s.attributes.Names SortKey.Names part word → V part word) {ts : List String}
    {os os' : Orders} {unsupported : List String} (hos : OrdersWithin V os)
    (h : s.expandOver os ts = .ok (os', unsupported)) : OrdersWithin V os' := by
  induction ts generalizing os os' unsupported with
  | nil =>
    obtain ⟨rfl, -⟩ := Prod.mk.inj (Except.ok.inj h)
    exact hos
  | cons t ts ih =>
    rw [expandOver] at h
    split at h
    · next listed ht =>
      obtain ⟨k, hk, rfl⟩ := Option.map_eq_some_iff.1 ht
      obtain ⟨os₁, hos₁, h⟩ := bind_eq_ok_iff.1 h
      refine ih (extend_within (k := k) (fun part word hw => ?_) hos hos₁) h
      exact hs part word (Registry.names_of_get? hk hw)
    · obtain ⟨⟨os₁, more⟩, hos₁, h⟩ := bind_eq_ok_iff.1 h
      obtain ⟨rfl, -⟩ := Prod.mk.inj (Except.ok.inj h)
      exact ih hos hos₁

theorem expand_of_standardOrders {s : Sorter} {os : Orders} (h : s.standardOrders = .ok os) :
    os = [] ∨ ∃ ts, s.expand ts = .ok (os, []) := by
  unfold standardOrders at h
  split at h
  · exact .inl (Except.ok.inj h).symm
  · obtain ⟨ts, -, h⟩ := bind_eq_ok_iff.1 h
    obtain ⟨⟨os₁, unsupported⟩, hexpand, h⟩ := bind_eq_ok_iff.1 h
    split at h
    · next heq =>
      obtain ⟨rfl, rfl⟩ := Prod.mk.inj heq
      obtain rfl := Except.ok.inj h
      exact .inr ⟨ts, hexpand⟩
    · cases h

/-- The orders of a request are those of some tokens, its own or the standard ones. -/
theorem expand_of_orders {s : Sorter} {raw : Value} {os : Orders} (h : s.orders raw = .ok os) :
    os = [] ∨ ∃ ts, s.expand ts = .ok (os, []) := by
  unfold orders at h
  dsimp only at h
  split at h
  · exact expand_of_standardOrders h
  · obtain ⟨ts, -, h⟩ := bind_eq_ok_iff.1 h
    split at h
    · exact expand_of_standardOrders h
    · split at h
      · cases h
      · obtain ⟨⟨os₁, unsupported⟩, hexpand, h⟩ := bind_eq_ok_iff.1 h
        split at h
        · next heq =>
          obtain ⟨rfl, rfl⟩ := Prod.mk.inj heq
          obtain rfl := Except.ok.inj h
          exact .inr ⟨ts, hexpand⟩
        · exact absurd h bind_error_ne_ok

theorem orders_within {s : Sorter}
    (hs : ∀ part word, s.attributes.Names SortKey.Names part word → V part word) {raw : Value}
    {os : Orders} (h : s.orders raw = .ok os) : OrdersWithin V os := by
  have hnil : OrdersWithin V [] := fun o ho => absurd ho List.not_mem_nil
  rcases expand_of_orders h with rfl | ⟨ts, hexpand⟩
  · exact hnil
  · exact expandOver_within hs hnil hexpand

/-- **An ordering keeps to what its attributes name**, by default and by request. -/
theorem script_within (s : Sorter) (params : Entries) :
    (s.script params).Within (s.attributes.Names SortKey.Names) := by
  refine .ofExcept fun script hscript => ?_
  obtain ⟨raw, -, hscript⟩ := bind_eq_ok_iff.1 hscript
  obtain ⟨os, hos, hscript⟩ := bind_eq_ok_iff.1 hscript
  obtain rfl := Except.ok.inj hscript
  refine ⟨fun c hc => ?_⟩
  obtain ⟨o, ho, rfl⟩ := List.mem_map.1 hc
  obtain ⟨hcolumn, hdirection⟩ := orders_within (fun _ _ hw => hw) hos o ho
  exact .order hcolumn hdirection

end Sorter

/-! ## Declarations -/

/-- **Requests keep to what is declared.** Where fields, includes and filters are declared without
code, the calls name only what the registries of the declarations name, whatever a request says and
whatever the order is without one. Sort attributes hold no code at all. -/
theorem Declaration.requests_within {fields inclusions filters : Value}
    (hfields : fields.isCodeless = true) (hinclusions : inclusions.isCodeless = true)
    (hfilters : filters.isCodeless = true) {fieldRegistry : Registry Field}
    (hf : Declaration.fields fields = .ok fieldRegistry) {inclusionRegistry : Registry Inclusion}
    (hi : Declaration.inclusions inclusions = .ok inclusionRegistry)
    {filterRegistry : Registry Filter} (hp : Declaration.filters filters = .ok filterRegistry)
    (sortRegistry : Registry SortKey) (standard : Value) (selection : SelectorSettings)
    (filtering : FilterSettings) (ordering : SortSettings) (relations : Bool)
    (sourceName : Except Error Value) (params : Entries) :
    ((Selector.mk selection fieldRegistry inclusionRegistry).script sourceName params).Within
      (fun part word => fieldRegistry.Names (fun f => f.toValue.Names) part word ∨
        inclusionRegistry.Names (fun i => i.toValue.Names) part word) ∧
    ((FilterPipeline.mk filtering filterRegistry).script relations params).Within
      (filterRegistry.Names Filter.Names) ∧
    ((Sorter.mk ordering sortRegistry standard).script params).Within
      (sortRegistry.Names SortKey.Names) := by
  refine ⟨?selection, ?filtering, ?ordering⟩
  case selection =>
    exact Selector.script_within (s := ⟨selection, fieldRegistry, inclusionRegistry⟩)
      (fields_codeless hfields hf) (inclusions_codeless hinclusions hi) sourceName params
  case filtering =>
    exact FilterPipeline.script_within (p := ⟨filtering, filterRegistry⟩)
      (filters_codeless hfilters hp) relations params
  case ordering => exact Sorter.script_within ⟨ordering, sortRegistry, standard⟩ params

/-- A request for a field of a relation, an include, a filter on related rows and an order. -/
theorem Declaration.requests_within_items :
    let params : Entries := [(.text "fields", .map [(.text "items", .text "slug")]),
      (.text "include", .text "items"), (.text "filter", .map [(.text "slug", .text "m-5")]),
      (.text "sort", .text "-id")]
    let fields : Registry Field :=
      [("items", .group (.text "items")
        (.map [(.text "slug", (Field.column (.text "slug")).toValue)]))]
    let inclusions : Registry Inclusion := [("items", .relation (.text "items") .null)]
    let filters : Registry Filter := [("slug", .exact (.text "items.slug"))]
    let keys : Registry SortKey := [("id", .make (.text "id") .null .null)]
    (FilterPipeline.mk {} filters).script true params =
      .one (.has (.text "items") (.one (.compare (.text "slug") (.text "=") (.text "m-5")))) ∧
    ((Selector.mk {} fields inclusions).script (.ok .null) params).Within
      (fun part word => fields.Names (fun f => f.toValue.Names) part word ∨
        inclusions.Names (fun i => i.toValue.Names) part word) ∧
    ((FilterPipeline.mk {} filters).script true params).Within (filters.Names Filter.Names) ∧
    ((Sorter.mk {} keys .null).script params).Within (keys.Names SortKey.Names) := by
  intro params fields inclusions filters keys
  have hf : Declaration.fields (.map [(.text "items", .list [.text "slug"])]) = .ok fields := rfl
  have hi : Declaration.inclusions (.list [.text "items"]) = .ok inclusions := rfl
  have hp : Declaration.filters (.map [(.text "slug", .text "items.slug")]) = .ok filters := rfl
  exact ⟨by with_unfolding_all rfl, Declaration.requests_within rfl rfl rfl hf hi hp keys .null {} {} {}
    true (.ok .null) params⟩

end Listing
