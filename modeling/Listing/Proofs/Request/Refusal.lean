import Listing.Proofs.Declaration.Codeless
import Listing.Proofs.Filter
import Listing.Proofs.Request.Filtering

/-!
# Refused filters

A filter looks at its value as its calls are put together, after the filters before it have been
applied, and in a relation only after the relation is entered. `Filter.refusal?` says which values
a filter refuses, and `Filter.script_of_blames` what its script is then: it fails at once, or inside
the relation.

`FilterPipeline.deeds` lists what an application of a request does: the calls that it makes on the
source and the callbacks that it runs. A request that is refused has done nothing exactly if it is
refused while it is resolved, or by its first filter outside a relation:
`FilterPipeline.deeds_eq_nil_iff`.
-/

namespace Listing

/-! ## Values that are refused -/

namespace Filter

/-- The fault of members that are not all scalars. -/
def unscalar? (name : Value) (vs : List Value) : Option QueryFault :=
  if vs.all Value.isScalar then none else some (.scalarRequired name)

/-- The fault that a filter which is requested by `name` finds with a value. -/
def refusal? (name value : Value) : Filter → Option QueryFault
  | .exact _ =>
    match value with
    | .list vs | .tuple vs | .set vs => unscalar? name vs
    | v => unscalar? name [v]
  | .member _ =>
    match members name value with
    | .ok vs => unscalar? name vs
    | .error _ => some (.membersRequired name)
  | .compare _ _ | .like _ _ _ | .search _ | .trashed => unscalar? name [value]
  | .scope _ | .callback _ => none

/-- The target of a filter that has one. -/
def target? : Filter → Option Value
  | .exact target | .member target | .compare target _ | .like target _ _ | .scope target =>
    some target
  | .search _ | .trashed | .callback _ => none

/-- The relation that a filter enters. -/
def relation? (relations : Bool) (f : Filter) : Option Value :=
  match f.target?.map (splitTarget relations) with
  | some (.ok (relation?, _)) => relation?
  | _ => none

variable {name value target : Value} {f : Filter} {fault : QueryFault}

/-- What is checked stays as it is unless there is a fault. -/
def checked {α : Type} (a : α) : Option QueryFault → Except Error α
  | none => .ok a
  | some fault => .error (.query fault)

theorem checked_bind_eq_error_iff {α β : Type} {a : α} {fault? : Option QueryFault} {g : α → β}
    {e : Error} : (do return g (← checked a fault?)) = .error e ↔
      ∃ fault, fault? = some fault ∧ e = .query fault := by
  cases fault? <;> simp [checked, eq_comm]

theorem scalars_eq (name : Value) (vs : List Value) :
    scalars name vs = checked vs (unscalar? name vs) := by
  induction vs with
  | nil => rfl
  | cons v vs ih =>
    unfold scalars unscalar? at ih ⊢
    rw [List.mapM_cons, List.all_cons, ih, scalar]
    cases v.isScalar <;> cases vs.all Value.isScalar <;> rfl

theorem scalar_eq (name v : Value) : scalar name v = checked v (unscalar? name [v]) := by
  unfold scalar unscalar?
  cases hv : v.isScalar <;> simp [checked, hv]

theorem members_eq_error {e : Error} (h : members name value = .error e) :
    e = .query (.membersRequired name) := by
  unfold members at h
  split at h
  · cases h
  · split at h <;> cases h
    rfl

/-- The call of a filter fails exactly if the value is refused. -/
theorem callOn_eq_error_iff (hf : f.target? = some target) (t : Value) {e : Error} :
    f.callOn t name value = .error e ↔
      ∃ fault, f.refusal? name value = some fault ∧ e = .query fault := by
  cases f with
  | exact target =>
    cases value <;> simp only [callOn, refusal?, scalars_eq, scalar_eq] <;>
      exact checked_bind_eq_error_iff
  | member target =>
    simp only [callOn, refusal?]
    cases hm : members name value with
    | error e' =>
      obtain rfl := members_eq_error hm
      simp [eq_comm]
    | ok vs =>
      rw [ok_bind, scalars_eq]
      exact checked_bind_eq_error_iff
  | compare target operator =>
    simp only [callOn, refusal?, scalar_eq]
    exact checked_bind_eq_error_iff
  | like target escape operator =>
    simp only [callOn, refusal?, scalar_eq]
    exact checked_bind_eq_error_iff
  | scope target => simp [callOn, refusal?]
  | _ => cases hf

/-- The calls of filters hold no code. -/
theorem not_blames_of_callOn {t : Value} {c : Call} (h : f.callOn t name value = .ok c) :
    ¬ c.Blames fault := by
  have hplain : ∃ capability, ∃ vs : List Value, c = .ask capability (vs.map .value) := by
    cases makesOn_of_callOn h with
    | exact | compare => exact ⟨.compare, [t, _, _], rfl⟩
    | exactly | member => exact ⟨.member, [t, .list _], rfl⟩
    | like => exact ⟨.like, [t, _, _], rfl⟩
    | scope => exact ⟨.scope, [t, _], rfl⟩
  obtain ⟨capability, vs, rfl⟩ := hplain
  exact Call.not_blames_values

theorem scriptOn_of_blames (hf : f.target? = some target) {t : Value}
    (h : (scriptOn f t name value).Blames fault) :
    f.refusal? name value = some fault ∧ scriptOn f t name value = .fail (.query fault) := by
  unfold scriptOn at h ⊢
  cases hcall : f.callOn t name value with
  | error e =>
    rw [hcall] at h
    obtain ⟨fault', hrefusal, rfl⟩ := (callOn_eq_error_iff hf t).1 hcall
    obtain rfl := Error.query.inj (Script.blames_fail_iff.1 h)
    exact ⟨hrefusal, rfl⟩
  | ok c =>
    rw [hcall] at h
    exact absurd (Script.blames_one_iff.1 h) (not_blames_of_callOn hcall)

theorem splitTarget_ne_query {relations : Bool} :
    splitTarget relations target ≠ .error (.query fault) := by
  unfold splitTarget
  split
  · split <;> simp
  · split
    · split <;> simp
    · simp

/-- What a filter that refuses a value does: it fails, or it enters a relation and fails there. -/
def refusing (fault : QueryFault) : Option Value → Script
  | none => .fail (.query fault)
  | some relation => .one (.has relation (.fail (.query fault)))

theorem targetScript_of_blames (hf : f.target? = some target) {relations : Bool}
    (h : (targetScript relations f target name value).Blames fault) :
    f.refusal? name value = some fault ∧
      targetScript relations f target name value = refusing fault (f.relation? relations) := by
  unfold targetScript at h ⊢
  rw [relation?, hf, Option.map_some]
  cases hsplit : splitTarget relations target with
  | error e =>
    rw [hsplit] at h
    obtain rfl := Script.blames_fail_iff.1 h
    exact absurd hsplit splitTarget_ne_query
  | ok split =>
    rw [hsplit] at h
    obtain ⟨relation?, t⟩ := split
    cases relation? with
    | none => exact scriptOn_of_blames hf h
    | some relation =>
      obtain ⟨hrefusal, hscript⟩ :=
        scriptOn_of_blames hf (Call.blames_has_iff.1 (Script.blames_one_iff.1 h))
      exact ⟨hrefusal, by rw [refusing, ← hscript]⟩

theorem checked_script_of_blames {c : Value → Call}
    (hc : unscalar? name [value] = none → ¬ (c value).Blames fault)
    (h : (match scalar name value with
      | .error e => .fail e
      | .ok v => .one (c v) : Script).Blames fault) :
    unscalar? name [value] = some fault ∧
      (match scalar name value with
      | .error e => .fail e
      | .ok v => .one (c v) : Script) = .fail (.query fault) := by
  rw [scalar_eq] at h ⊢
  cases hvalue : unscalar? name [value] with
  | some fault' =>
    rw [hvalue] at h
    obtain rfl := Error.query.inj (Script.blames_fail_iff.1 h)
    exact ⟨rfl, rfl⟩
  | none =>
    rw [hvalue] at h
    exact absurd (Script.blames_one_iff.1 h) (hc hvalue)

/-- The branches of a search are patterns, which refuse no scalar. -/
theorem not_blames_any (hvalue : unscalar? name [value] = none) {relations : Bool}
    {attributes : List Value} :
    ¬ (Call.any (attributes.map fun a =>
      targetScript relations (.like a (.bool true) .null) a name value)).Blames fault := by
  intro h
  obtain ⟨branch, hbranch, hblames⟩ := Call.blames_any_iff.1 h
  obtain ⟨a, -, rfl⟩ := List.mem_map.1 hbranch
  have hrefusal : unscalar? name [value] = some fault := (targetScript_of_blames rfl hblames).1
  rw [hvalue] at hrefusal
  cases hrefusal

/-- **A filter finds fault with a request only by refusing its value**, and then it fails at once or
inside the relation that it enters. -/
theorem script_of_blames (hf : f.RunsNothing) {relations : Bool}
    (h : (f.script relations name value).Blames fault) :
    f.refusal? name value = some fault ∧
      f.script relations name value = refusing fault (f.relation? relations) := by
  cases f with
  | exact target | member target | compare target operator | like target escape operator
  | scope target => exact targetScript_of_blames rfl h
  | search attributes =>
    exact checked_script_of_blames (fun hvalue => not_blames_any hvalue) h
  | trashed =>
    refine checked_script_of_blames (fun _ hblames => ?_) h
    cases hblames with
    | ask ha => cases ha
  | callback function => exact absurd rfl (hf function)

/-- Without a relation a filter that refuses its value fails at once. -/
theorem script_of_refusal {relations : Bool} (h : f.refusal? name value = some fault)
    (hr : f.relation? relations = none) : ∃ e, f.script relations name value = .fail e := by
  have htarget : ∀ {g : Filter} {target}, g.target? = some target →
      g.refusal? name value = some fault → g.relation? relations = none →
        ∃ e, targetScript relations g target name value = .fail e := by
    intro g target hg hrefusal hrelation
    rw [relation?, hg, Option.map_some] at hrelation
    unfold targetScript
    cases hsplit : splitTarget relations target with
    | error e => exact ⟨e, rfl⟩
    | ok split =>
      obtain ⟨relation?, t⟩ := split
      rw [hsplit] at hrelation
      obtain rfl : relation? = none := hrelation
      refine ⟨.query fault, ?_⟩
      simp only [scriptOn, (callOn_eq_error_iff hg t).2 ⟨fault, hrefusal, rfl⟩]
      rfl
  have hscalar : unscalar? name [value] = some fault →
      scalar name value = .error (.query fault) := by
    intro hvalue
    rw [scalar_eq, hvalue]
    rfl
  cases f with
  | exact target | member target | compare target operator | like target escape operator
  | scope target => exact htarget rfl h hr
  | search attributes | trashed => exact ⟨.query fault, by simp only [script, hscalar h]⟩
  | callback function => cases h

/-- A filter without a callback fails or makes one call. -/
theorem script_cases (hf : f.RunsNothing) (relations : Bool) :
    (∃ e, f.script relations name value = .fail e) ∨
      ∃ c, f.script relations name value = .one c := by
  have hon : ∀ (g : Filter) t, (∃ e, scriptOn g t name value = .fail e) ∨
      ∃ c, scriptOn g t name value = .one c := by
    intro g t
    unfold scriptOn
    cases g.callOn t name value with
    | error e => exact .inl ⟨e, rfl⟩
    | ok c => exact .inr ⟨c, rfl⟩
  have htarget : ∀ (g : Filter) target,
      (∃ e, targetScript relations g target name value = .fail e) ∨
        ∃ c, targetScript relations g target name value = .one c := by
    intro g target
    unfold targetScript
    split
    · exact .inl ⟨_, rfl⟩
    · exact hon g _
    · exact .inr ⟨_, rfl⟩
  cases f with
  | exact target | member target | compare target operator | like target escape operator
  | scope target => exact htarget _ target
  | search attributes | trashed =>
    simp only [script]
    cases scalar name value with
    | error e => exact .inl ⟨e, rfl⟩
    | ok v => exact .inr ⟨_, rfl⟩
  | callback function => exact absurd rfl (hf function)

end Filter

/-! ## Requests that are refused -/

namespace FilterPipeline

variable {σ : Type} {k : Capabilities σ} {relations : Bool} {fault : QueryFault}

/-- Do the callbacks of the filters find no fault with requests? -/
def CallbacksQuiet (p : FilterPipeline) (k : Capabilities σ) : Prop :=
  p.filters.All fun f => ∀ function, f = .callback function → ∀ o s fault,
    (function.called o).run k s ≠ .error (.query fault)

/-- A step that has been applied has done something. -/
theorem stepDeeds_ne_nil {s s' : σ} {step : FilterStep} (h : apply k relations s step = .ok s') :
    stepDeeds k relations s step ≠ [] := by
  by_cases hf : step.filter.RunsNothing
  · obtain ⟨e, he⟩ | ⟨c, hc⟩ :
        (∃ e, step.filter.script relations step.name step.value = .fail e) ∨
          ∃ c, step.filter.script relations step.name step.value = .one c :=
      Filter.script_cases hf relations
    · rw [apply, stepScript, he] at h
      cases h
    · intro hnil
      rw [stepDeeds, stepScript, hc] at hnil
      cases (List.append_eq_nil_iff.1 hnil).2
  · obtain ⟨function, hfunction⟩ : ∃ function, step.filter = .callback function := by
      simpa [Filter.RunsNothing] using hf
    simp [stepDeeds, callbackOf, hfunction]

theorem runsNothing_of_refused {p : FilterPipeline} (hp : p.CallbacksQuiet k) {params : Entries}
    {steps : List FilterStep} (hsteps : p.steps params = .ok steps) {step : FilterStep}
    (hmem : step ∈ steps) {s : σ} (h : apply k relations s step = .error (.query fault)) :
    step.filter.RunsNothing := by
  intro function hfunction
  obtain ⟨name, -, hget⟩ := Option.bind_eq_some_iff.1 (named?_of_mem_steps hsteps hmem)
  rw [apply, stepScript, hfunction] at h
  exact hp.get? hget function hfunction _ _ _ h

/-- **A step that is refused has refused its value**: it has done nothing, or it has entered
a relation. -/
theorem stepDeeds_of_refused (hk : k.Quiet) {step : FilterStep} (hf : step.filter.RunsNothing)
    {s : σ} (h : apply k relations s step = .error (.query fault)) :
    step.filter.refusal? step.name step.value = some fault ∧
      stepDeeds k relations s step = (step.filter.relation? relations).toList.map fun relation =>
        .makes (.has relation (.fail (.query fault))) := by
  obtain ⟨hrefusal, hscript⟩ := Filter.script_of_blames hf (Script.blames_of_run hk _ s h)
  refine ⟨hrefusal, ?_⟩
  have hcallback : callbackOf step = [] := by
    unfold callbackOf
    split
    · next function hfunction => exact absurd hfunction (hf function)
    · rfl
  rw [stepDeeds, hcallback, stepScript, hscript, List.nil_append]
  cases step.filter.relation? relations with
  | none => rfl
  | some relation =>
    rw [Filter.refusing, Script.made_one]
    rfl

/-- **What a refused request has done.** It is refused while it is resolved, or a filter refuses its
value after the filters before it have been applied. -/
theorem deeds_of_refused {p : FilterPipeline} (hk : k.Quiet) (hp : p.CallbacksQuiet k)
    {params : Entries} {s : σ}
    (h : (p.script relations params).run k s = .error (.query fault)) :
    p.steps params = .error (.query fault) ∨
      ∃ applied step rest s', p.steps params = .ok (applied ++ step :: rest) ∧
        applied.foldlM (apply k relations) s = .ok s' ∧
        step.filter.refusal? step.name step.value = some fault ∧
        p.deeds k relations params s = deedsOf k relations s applied ++
          (step.filter.relation? relations).toList.map fun relation =>
            .makes (.has relation (.fail (.query fault))) := by
  rw [run_script] at h
  rcases bind_eq_error_iff.1 h with h | ⟨steps, hsteps, h⟩
  · exact .inl h
  · obtain ⟨applied, step, rest, s', rfl, happlied, hstep, hdeeds⟩ := exists_failed h
    have hf := runsNothing_of_refused hp hsteps (by simp) hstep
    obtain ⟨hrefusal, hown⟩ := stepDeeds_of_refused hk hf hstep
    refine .inr ⟨applied, step, rest, s', hsteps, happlied, hrefusal, ?_⟩
    rw [deeds, hsteps, ← hown]
    exact hdeeds

/-- **When a refused request has done nothing.** A request that is refused by a source and callbacks
which find no fault themselves has made no call and run no callback if and only if it was refused
while it was resolved, or by its first filter, and that enters no relation. -/
theorem deeds_eq_nil_iff {p : FilterPipeline} (hk : k.Quiet) (hp : p.CallbacksQuiet k)
    {params : Entries} {s : σ}
    (h : (p.script relations params).run k s = .error (.query fault)) :
    p.deeds k relations params s = [] ↔ p.steps params = .error (.query fault) ∨
      ∃ step rest, p.steps params = .ok (step :: rest) ∧
        step.filter.refusal? step.name step.value = some fault ∧
        step.filter.relation? relations = none := by
  rcases deeds_of_refused hk hp h with
    hsteps | ⟨applied, step, rest, s', hsteps, happlied, hrefusal, hdeeds⟩
  · simp [deeds, hsteps]
  · rw [hdeeds, List.append_eq_nil_iff, List.map_eq_nil_iff, hsteps]
    cases applied with
    | nil =>
      simp [deedsOf, hrefusal]
    | cons first applied =>
      -- the first step has been applied, so that it has done something and refused nothing
      rw [List.foldlM_cons] at happlied
      obtain ⟨s₁, hfirst, -⟩ := bind_eq_ok_iff.1 happlied
      have hdone : deedsOf k relations s (first :: applied) ≠ [] := fun hnil =>
        stepDeeds_ne_nil hfirst (List.append_eq_nil_iff.1 hnil).1
      refine iff_of_false (fun hnil => hdone hnil.1) ?_
      rintro (hsteps | ⟨refused, others, heq, hrefused, hrelation⟩)
      · cases hsteps
      · obtain ⟨rfl, -⟩ := List.cons.inj (Except.ok.inj heq)
        obtain ⟨e, he⟩ := Filter.script_of_refusal hrefused hrelation
        rw [apply, stepScript, he] at hfirst
        cases hfirst

/-- A source without rows, which runs what refines related rows and does nothing else. -/
def blank : Capabilities Unit where
  ask := fun s c given =>
    match c, given with
    | .has, [_, .code run] => run s
    | _, _ => .ok s
  peek := fun _ _ => .ok true

theorem blank_raisesNothing : blank.RaisesNothing := by
  intro s c given e h
  change (match c, given with
    | .has, [_, .code run] => run s
    | _, _ => .ok s) = _ at h
  split at h
  · next g run => exact ⟨.code run, by simp, .code h⟩
  · cases h

theorem blank_quiet : blank.Quiet where
  ask := fun h => blank_raisesNothing h
  peek := by
    intro s question fault h
    cases h

/-- Two filters of which the second one refuses a map, and a filter on related rows that does: both
requests are refused after something has been done. -/
theorem deeds_of_map_values :
    let shop : FilterPipeline :=
      { filters := [("id", .exact (.text "id")), ("slug", .exact (.text "items.slug"))] }
    let nested : Value := .map [(.text "x", .text "2")]
    let both : Entries := [(.text "filter", .map [(.text "id", .text "1"), (.text "slug", nested)])]
    let related : Entries := [(.text "filter", .map [(.text "slug", nested)])]
    ((shop.script false both).run blank () = .error (.query (.scalarRequired (.text "slug"))) ∧
      shop.deeds blank false both () ≠ []) ∧
    ((shop.script true related).run blank () = .error (.query (.scalarRequired (.text "slug"))) ∧
      shop.deeds blank true related () ≠ []) := by
  intro shop nested both related
  have hcallbacks : shop.CallbacksQuiet blank := by
    intro e he function hfunction
    simp only [shop, List.mem_cons, List.not_mem_nil, or_false] at he
    rcases he with rfl | rfl <;> cases hfunction
  have hboth : (shop.script false both).run blank () =
    .error (.query (.scalarRequired (.text "slug"))) := by with_unfolding_all rfl
  have hrelated : (shop.script true related).run blank () =
    .error (.query (.scalarRequired (.text "slug"))) := by with_unfolding_all rfl
  have hbothSteps : shop.steps both = .ok [⟨.text "id", .exact (.text "id"), .text "1"⟩,
    ⟨.text "slug", .exact (.text "items.slug"), nested⟩] := by with_unfolding_all rfl
  have hrelatedSteps : shop.steps related =
    .ok [⟨.text "slug", .exact (.text "items.slug"), nested⟩] := by with_unfolding_all rfl
  refine ⟨⟨hboth, ?_⟩, hrelated, ?_⟩
  · rw [Ne, deeds_eq_nil_iff blank_quiet hcallbacks hboth, hbothSteps]
    rintro (h | ⟨step, rest, h, hrefusal, -⟩)
    · cases h
    · obtain ⟨rfl, -⟩ := List.cons.inj (Except.ok.inj h)
      cases hrefusal
  · rw [Ne, deeds_eq_nil_iff blank_quiet hcallbacks hrelated, hrelatedSteps]
    rintro (h | ⟨step, rest, h, -, hrelation⟩)
    · cases h
    · obtain ⟨rfl, -⟩ := List.cons.inj (Except.ok.inj h)
      cases hrelation

end FilterPipeline

end Listing
