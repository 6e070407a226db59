import Listing.Proofs.Request.Acceptance
import Listing.Proofs.Request.Refusal

/-!
# Selections are all or nothing

A request for fields has a plan exactly if what is offered accepts it (`Selector.fieldPlan_planned`),
and one for includes exactly if it names includes (`Selector.inclusionPlan_planned`). The scripts of
plans always run, so that a request that is refused has done nothing: `Selector.all_or_nothing`. Where
all fields are columns, a plan is made of steps for columns (`columnStep_keeps`).

With an own name the fields that are no groups stand under that name (`Selector.offered`). Where
there are none, the name is refused, even if a group is declared under it
(`Selector.refuses_group_of_own_name`).
-/

namespace Listing

namespace Selector

variable {σ : Type} {k : Capabilities σ} {D : Field → Prop} {F : FieldStep → Prop}

/-! ## Own names -/

/-- The name under which fields of the listing itself are requested, if there is one. -/
def ownName? (s : Selector) (sourceName : String) : Option String :=
  match s.settings.ownName with
  | .bool true => some sourceName
  | .text name => if name.toList.isEmpty then none else some name
  | _ => none

/-- The fields that are no groups. -/
def own (s : Selector) : Registry Field := s.fields.filter fun e => !e.2.isGroup

/-- The groups. -/
def groups (s : Selector) : Registry Field := s.fields.filter fun e => e.2.isGroup

/-- What a request can name at its top level. With an own name the fields that are no groups, if
there are any, form a group under that name, and the name stands for nothing else. -/
def offered (s : Selector) (sourceName : String) : Entries :=
  match s.ownName? sourceName with
  | none => s.fields.entries
  | some name =>
    let others : Registry Field := s.groups.filter fun e => e.1 != name
    if s.own.isEmpty then others.entries
    else (.text name, (Field.group (.text name) (.map s.own.entries)).toValue) :: others.entries

theorem ownName_eq (s : Selector) (sourceName : String) :
    s.ownName (.ok (.text sourceName)) =
      .ok (match s.ownName? sourceName with
        | some name => .text name
        | none => .null) := by
  unfold ownName ownName?
  cases s.settings.ownName with
  | bool b => cases b <;> rfl
  | text name =>
    dsimp only
    split <;> rfl
  | _ => rfl

theorem splitOwn_planned (hF : FieldStep.Keeps D F) {own : Registry Field} (hown : own.All D)
    (keyword name : String) (ps : List (Value × Value)) :
    Planned
      (fun r => AllSteps F r.1 ∧ r.2 = ps.filter fun p => !p.1.equal (.text name))
      (∀ p ∈ ps, p.1.equal (.text name) = true → ¬ own.isEmpty = true ∧ own.entries.Accepts p.2)
      (∀ p ∈ ps, p.2.hasText = true)
      (splitOwn own (.text keyword) (.text name) ps) := by
  induction ps with
  | nil => exact .plan (by simp) ⟨.nil, rfl⟩
  | cons p ps ih =>
    obtain ⟨key, v⟩ := p
    rw [splitOwn, Value.equal?_text, ok_bind]
    cases hkey : key.equal (.text name) with
    | true =>
      rw [if_pos rfl]
      by_cases hempty : own.isEmpty = true
      · rw [if_pos hempty]
        exact .refused (fun h => (h _ (List.mem_cons_self ..) hkey).1 hempty) fun _ => rfl
      · rw [if_neg hempty]
        have hvalue := planValue_planned hF (.of_registry hown) [keyword, name] v
        refine (hvalue.both (H := fun r => AllSteps F r.1 ∧ r.2 = ((key, v) :: ps).filter _) ih
          (f := fun steps r => (steps ++ r.1, r.2))
          fun steps r hsteps hr => ⟨hsteps.append hr.1, ?_⟩).congr ?_ fun hw => ?_
        · rw [List.filter_cons_of_neg (by simp [hkey]), hr.2]
        · rw [List.forall_mem_cons, forall_prop_of_true hkey, and_iff_right hempty]
        · exact ⟨hw _ (List.mem_cons_self ..), fun p hp => hw p (List.mem_cons_of_mem _ hp)⟩
    | false =>
      rw [if_neg Bool.false_ne_true]
      refine (ih.map (G := fun r => AllSteps F r.1 ∧ r.2 = ((key, v) :: ps).filter _)
        (f := fun r => (r.1, (key, v) :: r.2)) fun r hr => ⟨hr.1, ?_⟩).congr ?_ fun hw p hp => ?_
      · rw [List.filter_cons_of_pos (by simp [hkey]), hr.2]
      · simp [hkey]
      · exact hw p (List.mem_cons_of_mem _ hp)

/-! ## Whole requests -/

theorem mem_groups_entries {r : Registry Field} (h : ∀ e ∈ r, e.2.isGroup = true) :
    ∀ e ∈ r.entries, ∃ name inner, e.2 = (Field.group name inner).toValue := by
  intro e he
  obtain ⟨p, hp, rfl⟩ := List.mem_map.1 he
  have hgroup := h p hp
  cases hf : p.2 with
  | group name inner => exact ⟨name, inner, rfl⟩
  | column | aggregate | callback => simp [hf, Field.isGroup] at hgroup

theorem entries_cons (e : String × Field) (r : Registry Field) :
    Registry.entries (e :: r) = (.text e.1, e.2.toValue) :: r.entries := rfl

theorem not_text_equal {key : Value} {name : String} (h : key.equal (.text name) = false) :
    ¬ (Value.text name).equal key = true := by
  rw [Value.text_equal, ← Value.equal_text, h]
  exact Bool.false_ne_true

/-- Fields under all names but one. -/
theorem get?_entries_without (r : Registry Field) (name : String) (key : Value) :
    Entries.get? (Registry.entries (r.filter fun e => e.1 != name)) key =
      if key.equal (.text name) then none else Entries.get? r.entries key := by
  induction r with
  | nil => exact (ite_self _).symm
  | cons e r ih =>
    rw [entries_cons, Entries.get?_cons]
    by_cases he : e.1 = name
    · rw [List.filter_cons_of_neg (by simp [he]), ih, he]
      cases hkey : key.equal (.text name) with
      | true => rfl
      | false =>
        rw [if_neg Bool.false_ne_true, if_neg Bool.false_ne_true, if_neg (not_text_equal hkey)]
    · rw [List.filter_cons_of_pos (by simp [he]), entries_cons, Entries.get?_cons, ih]
      split
      · next hkey =>
        obtain rfl := Value.text_equal.1 hkey
        rw [if_neg]
        rw [Value.equal_text, Value.text.injEq]
        exact he
      · rfl

theorem groups_isGroup (s : Selector) : ∀ e ∈ s.groups, e.2.isGroup = true :=
  fun _ he => (List.mem_filter.1 he).2

section OwnName

variable {s : Selector} {sourceName name : String}

/-- The groups but for one of the own name. -/
def otherGroups (s : Selector) (name : String) : Registry Field := s.groups.filter fun e => e.1 != name

theorem offered_named (h : s.ownName? sourceName = some name) :
    s.offered sourceName =
      if s.own.isEmpty then (s.otherGroups name).entries
      else (.text name, (Field.group (.text name) (.map s.own.entries)).toValue) ::
        (s.otherGroups name).entries := by
  rw [offered, h]
  rfl

/-- Under the own name the fields that are no groups are offered, if there are any. -/
theorem offered_acceptsUnder_own (h : s.ownName? sourceName = some name) (v : Value) :
    (s.offered sourceName).AcceptsUnder (.text name) v ↔
      ¬ s.own.isEmpty = true ∧ s.own.entries.Accepts v := by
  have hself : (Value.text name).equal (.text name) = true := Value.equal_text.2 rfl
  rw [offered_named h]
  by_cases hempty : s.own.isEmpty = true
  · rw [if_pos hempty]
    have hnone : (s.otherGroups name).entries.field? (.text name) = none := by
      rw [Entries.field?, otherGroups, get?_entries_without, if_pos hself]
      rfl
    exact iff_of_false (Entries.not_acceptsUnder rfl (by simp [hnone])) fun hown => hown.1 hempty
  · rw [if_neg hempty]
    have hgroup : Entries.field? ((.text name, (Field.group (.text name)
        (.map s.own.entries)).toValue) :: (s.otherGroups name).entries) (.text name) =
        some (.group (.text name) (.map s.own.entries)) := by
      rw [Entries.field?, Entries.get?_cons, if_pos hself]
      rfl
    rw [Entries.acceptsUnder_group rfl hgroup, and_iff_right hempty]

/-- Under any other key the groups are offered. -/
theorem offered_acceptsUnder_other (h : s.ownName? sourceName = some name) {key : Value}
    (hkey : key.equal (.text name) = false) (v : Value) :
    (s.offered sourceName).AcceptsUnder key v ↔ s.groups.entries.AcceptsUnder key v := by
  have hget : Entries.get? (s.offered sourceName) key = Entries.get? s.groups.entries key := by
    have hothers : Entries.get? (s.otherGroups name).entries key =
        Entries.get? s.groups.entries key := by
      rw [otherGroups, get?_entries_without, hkey, if_neg Bool.false_ne_true]
    rw [offered_named h]
    split
    · exact hothers
    · rw [Entries.get?_cons, if_neg (not_text_equal hkey), hothers]
  have hgroups : ∀ e ∈ s.offered sourceName, ∃ name inner,
      e.2 = (Field.group name inner).toValue := by
    have hothers := mem_groups_entries (r := s.otherGroups name)
      fun e he => s.groups_isGroup e (List.mem_filter.1 he).1
    rw [offered_named h]
    split
    · exact hothers
    · exact List.forall_mem_cons.2 ⟨⟨_, _, rfl⟩, hothers⟩
  exact Entries.acceptsUnder_congr (by rw [Entries.field?, Entries.field?, hget])
    (iff_of_false (Entries.not_namesField hgroups)
      (Entries.not_namesField (mem_groups_entries s.groups_isGroup)))

/-- **With an own name a key is accepted by the fields that are no groups, if it is that name, and
by the groups otherwise.** -/
theorem offered_acceptsUnder (h : s.ownName? sourceName = some name) (key v : Value) :
    (s.offered sourceName).AcceptsUnder key v ↔
      (key.equal (.text name) = true → ¬ s.own.isEmpty = true ∧ s.own.entries.Accepts v) ∧
      (key.equal (.text name) = false → s.groups.entries.AcceptsUnder key v) := by
  cases hkey : key.equal (.text name) with
  | true =>
    obtain rfl := Value.equal_text.1 hkey
    simpa using offered_acceptsUnder_own h v
  | false => simpa using offered_acceptsUnder_other h hkey v

end OwnName

/-- The requests under the own name are planned with the fields that are no groups, and the others
with the groups. -/
theorem offered_accepts {s : Selector} {sourceName name : String}
    (h : s.ownName? sourceName = some name) (ps : List (Value × Value)) :
    (∀ p ∈ ps, (s.offered sourceName).AcceptsUnder p.1 p.2) ↔
      (∀ p ∈ ps, p.1.equal (.text name) = true →
        ¬ s.own.isEmpty = true ∧ s.own.entries.Accepts p.2) ∧
      ∀ p ∈ ps.filter fun p => !p.1.equal (.text name),
        s.groups.entries.AcceptsUnder p.1 p.2 := by
  simp only [offered_acceptsUnder h, List.mem_filter, Bool.not_eq_true', and_imp, ← forall_and]

theorem requestedFields_eq {s : Selector} {keyword : String}
    (hkeyword : s.settings.fieldsKeyword = .text keyword) (raw : Value) :
    s.requestedFields raw = match raw.requested? with
      | some requested => .ok requested
      | none => .error (.query (.notAList keyword "fields")) := by
  unfold requestedFields
  rw [hkeyword]
  cases raw <;> rfl

/-- The plan for the keys and values that are requested. -/
def planRequested (s : Selector) (keyword sourceName : String)
    (requested : List (Value × Value)) : Except Error (List FieldStep) :=
  match s.ownName? sourceName with
  | none => planEntries (.map s.fields.entries) [.text keyword] requested
  | some name => do
    let r ← splitOwn s.own (.text keyword) (.text name) requested
    return r.1 ++ (← planEntries (.map s.groups.entries) [.text keyword] r.2)

theorem fieldPlan_eq {s : Selector} {keyword : String}
    (hkeyword : s.settings.fieldsKeyword = .text keyword) (sourceName : String)
    (params : Entries) :
    s.fieldPlan (.ok (.text sourceName)) params =
      match (Entries.get? params (.text keyword)).getD .null with
      | .null => .ok []
      | raw => match raw.requested? with
        | some requested => s.planRequested keyword sourceName requested
        | none => .error (.query (.notAList keyword "fields")) := by
  have hparameter : params.parameter (.text keyword) =
      .ok ((Entries.get? params (.text keyword)).getD .null) := rfl
  unfold fieldPlan
  simp only [hkeyword, hparameter, ok_bind, requestedFields_eq hkeyword, ownName_eq]
  unfold planRequested
  generalize (Entries.get? params (.text keyword)).getD .null = raw
  cases raw with
  | null => rfl
  | _ => cases s.ownName? sourceName <;> rfl

theorem planRequested_planned (hF : FieldStep.Keeps D F) {s : Selector}
    (hs : s.fields.All D) (keyword sourceName : String)
    (requested : List (Value × Value)) :
    Planned (AllSteps F) (∀ r ∈ requested, (s.offered sourceName).AcceptsUnder r.1 r.2)
      (∀ r ∈ requested, r.1.WritableUnder r.2)
      (s.planRequested keyword sourceName requested) := by
  have hown : s.own.All D := fun e he => hs e (List.mem_filter.1 he).1
  have hgroups : s.groups.All D := fun e he => hs e (List.mem_filter.1 he).1
  unfold planRequested
  cases hname : s.ownName? sourceName with
  | none =>
    have hoffered : s.offered sourceName = s.fields.entries := by rw [offered, hname]
    rw [hoffered]
    exact planEntries_planned hF (.of_registry hs) [keyword] requested
  | some name =>
    have hrest : ∀ r : List FieldStep × List (Value × Value),
        (AllSteps F r.1 ∧ r.2 = requested.filter fun p => !p.1.equal (.text name)) →
        Planned (AllSteps F)
          (∀ p ∈ requested.filter fun p => !p.1.equal (.text name),
            s.groups.entries.AcceptsUnder p.1 p.2)
          (∀ p ∈ requested, p.1.WritableUnder p.2)
          (do return r.1 ++ (← planEntries (.map s.groups.entries) [.text keyword] r.2)) := by
      rintro ⟨first, rest⟩ ⟨hfirst, rfl⟩
      exact ((planEntries_planned hF (.of_registry hgroups) [keyword] _).map
        fun _ => hfirst.append).congr Iff.rfl fun hw p hp => hw p (List.mem_filter.1 hp).1
    exact ((splitOwn_planned hF hown keyword name requested).bind hrest).congr
      (offered_accepts hname requested).symm fun hw => ⟨fun p hp => (hw p hp).1, hw⟩

/-- **A request for fields has a plan exactly if what is offered accepts it**, and its steps are made
of declared fields. -/
theorem fieldPlan_planned (hF : FieldStep.Keeps D F) {s : Selector} (hs : s.fields.All D)
    {keyword : String} (hkeyword : s.settings.fieldsKeyword = .text keyword) (sourceName : String)
    (params : Entries) :
    Planned (AllSteps F)
      (∀ raw, Entries.get? params (.text keyword) = some raw → raw ≠ .null →
        (s.offered sourceName).Accepts raw)
      ((Value.map params).hasText = true)
      (s.fieldPlan (.ok (.text sourceName)) params) := by
  rw [fieldPlan_eq hkeyword]
  cases hraw : Entries.get? params (.text keyword) with
  | none => exact .plan (fun raw h => by cases h) .nil
  | some raw =>
    rw [Option.getD_some]
    have haccepted (h : raw ≠ .null) :
        (∀ raw', some raw = some raw' → raw' ≠ .null → (s.offered sourceName).Accepts raw') ↔
          (s.offered sourceName).Accepts raw :=
      ⟨fun ha => ha raw rfl h, fun ha raw' hraw' _ => Option.some.inj hraw' ▸ ha⟩
    split
    · exact .plan (fun raw h hne => absurd (Option.some.inj h).symm hne) .nil
    · next hne =>
      cases hrequested : raw.requested? with
      | none =>
        refine .refused (fun h => ?_) fun _ => rfl
        exact Entries.not_accepts hrequested ((haccepted hne).1 h)
      | some requested =>
        refine (planRequested_planned hF hs keyword sourceName requested).congr ?_ fun hw => ?_
        · rw [haccepted hne, Entries.accepts_iff hrequested]
        · obtain ⟨l, hmem, -⟩ := Entries.mem_of_get?_eq_some hraw
          exact Value.writableUnder_of_requested (Value.entriesHaveText_iff.1 hw _ hmem).2 hrequested

/-- Does the value name an include? -/
def NamesInclusion (s : Selector) (v : Value) : Prop :=
  ∃ name i, v.stripped = .text name ∧ s.inclusions.get? name = some i

/-- The script of an include without code runs. -/
theorem inclusion_runs (hk : k.RaisesNothing) {i : Inclusion} (hi : i.RunsNothing) (name : Value) :
    (i.script name).Runs k := by
  obtain ⟨path, rfl⟩ := hi
  refine Script.runs_ask hk rfl fun a ha => ?_
  rcases List.mem_cons.1 ha with rfl | ha
  · exact .value path
  · obtain rfl := List.mem_singleton.1 ha
    exact .value .null

theorem inclusionStep_planned (hk : k.RaisesNothing) {s : Selector}
    (hs : s.inclusions.All Inclusion.RunsNothing) {keyword : String}
    (hkeyword : s.settings.includeKeyword = .text keyword) (v : Value) :
    Planned (fun p : String × Inclusion => (p.2.script (.text p.1)).Runs k) (s.NamesInclusion v)
      (v.hasText = true) (s.inclusionStep v) := by
  have refused {accepted : Prop} (h : ¬ accepted) :
      Planned (fun p : String × Inclusion => (p.2.script (.text p.1)).Runs k) accepted
        (v.hasText = true) (.error (.query (.unsupportedInclude v.stripped keyword))) :=
    .refused h fun hv => by simp [QueryFault.values, Value.allHaveText, Value.hasText_stripped hv]
  have htext : (Value.text keyword).asText = .ok keyword := rfl
  unfold inclusionStep
  simp only [hkeyword, htext, ok_bind]
  split
  · next name hname =>
    split
    · next i hi => exact .plan ⟨name, i, hname, hi⟩ (inclusion_runs hk (hs.get? hi) _)
    · next hnone =>
      refine refused ?_
      rintro ⟨name', i, hname', hi⟩
      obtain rfl := Value.text.inj (hname.symm.trans hname')
      cases hnone.symm.trans hi
  · next hname =>
    refine refused ?_
    rintro ⟨name, i, hname', -⟩
    exact hname _ hname'

/-- What a request for includes lists can be written if the request can, and it is refused as a
whole if it is no list. -/
theorem requestedInclusions_cases {s : Selector} {keyword : String}
    (hkeyword : s.settings.includeKeyword = .text keyword) (raw : Value) :
    (∃ names, s.requestedInclusions raw = .ok names ∧
      (raw.hasText = true → ∀ v ∈ names, v.hasText = true)) ∨
    s.requestedInclusions raw = .error (.query (.notAList keyword "includes")) := by
  unfold requestedInclusions
  rw [hkeyword]
  cases raw with
  | text names => exact .inl ⟨_, rfl, fun _ v hv => by
      obtain ⟨name, -, rfl⟩ := List.mem_map.1 hv
      rfl⟩
  | map es => exact .inl ⟨_, rfl, fun h v hv => by
      obtain ⟨e, he, rfl⟩ := List.mem_map.1 hv
      exact (Value.entriesHaveText_iff.1 h e he).2⟩
  | list vs | tuple vs | set vs => exact .inl ⟨_, rfl, fun h => Value.allHaveText_iff.1 h⟩
  | _ => exact .inr rfl

/-- **A request for includes has a plan exactly if it names includes.** -/
theorem inclusionPlan_planned (hk : k.RaisesNothing) {s : Selector}
    (hs : s.inclusions.All Inclusion.RunsNothing) {keyword : String}
    (hkeyword : s.settings.includeKeyword = .text keyword) (params : Entries) :
    Planned (fun plan => ∀ p ∈ plan, (p.2.script (.text p.1)).Runs k)
      (∀ raw, Entries.get? params (.text keyword) = some raw → raw ≠ .null →
        ∃ names, s.requestedInclusions raw = .ok names ∧ ∀ v ∈ names, s.NamesInclusion v)
      ((Value.map params).hasText = true) (s.inclusionPlan params) := by
  have hparameter : params.parameter (.text keyword) =
      .ok ((Entries.get? params (.text keyword)).getD .null) := rfl
  unfold inclusionPlan
  rw [hkeyword, hparameter, ok_bind]
  cases hraw : Entries.get? params (.text keyword) with
  | none => exact .plan (fun raw h => by cases h) (by simp)
  | some raw =>
    rw [Option.getD_some]
    split
    · exact .plan (fun raw h hne => absurd (Option.some.inj h).symm hne) (by simp)
    · next hne =>
      rcases requestedInclusions_cases hkeyword raw with ⟨names, hnames, hwrite⟩ | hnames
      · rw [hnames, ok_bind]
        refine (Planned.mapM fun v _ => inclusionStep_planned hk hs hkeyword v).congr ?_ fun hw => ?_
        · constructor
          · intro hall raw' hraw' _
            obtain rfl := Option.some.inj hraw'
            exact ⟨names, hnames, hall⟩
          · intro hall
            obtain ⟨names', hnames', hall⟩ := hall raw rfl hne
            obtain rfl := Except.ok.inj (hnames.symm.trans hnames')
            exact hall
        · obtain ⟨l, hmem, -⟩ := Entries.mem_of_get?_eq_some hraw
          exact hwrite (Value.entriesHaveText_iff.1 hw _ hmem).2
      · rw [hnames]
        refine .refused (fun h => ?_) fun _ => rfl
        obtain ⟨names', hnames', -⟩ := h raw rfl hne
        cases hnames.symm.trans hnames'

theorem inclusionScript_runs {plan : List (String × Inclusion)}
    (h : ∀ p ∈ plan, (p.2.script (.text p.1)).Runs k) : (inclusionScript plan).Runs k := by
  induction plan with
  | nil => exact Script.runs_done
  | cons p plan ih =>
    exact (h p (List.mem_cons_self ..)).andThen
      (ih fun p hp => h p (List.mem_cons_of_mem _ hp))

/-! ## Running plans -/

/-- Is the script of the step fit to run? -/
def StepRuns (k : Capabilities σ) (step : FieldStep) : Prop := step.script.Runs k

theorem scriptOf_runs {steps : List FieldStep} (h : AllSteps (StepRuns k) steps) :
    (FieldStep.scriptOf steps).Runs k := by
  induction steps with
  | nil => exact Script.runs_done
  | cons step steps ih =>
    exact (h step (List.mem_cons_self ..)).andThen
      (ih fun step hstep => h step (List.mem_cons_of_mem _ hstep))

/-- **Plans for fields without code run**, whatever is in the relations. -/
theorem stepRuns_keeps (hk : k.RaisesNothing) : FieldStep.Keeps Field.IsPlain (StepRuns k) where
  inside := fun h => h.of_group
  field := by
    intro f hf hgroup name
    cases f with
    | column own => exact Script.runs_ask hk rfl (by simp [Argument.Runs.value])
    | aggregate relation column function =>
      exact Script.runs_ask hk rfl (by simp [Argument.Runs.value])
    | callback function => cases hf
    | group name inner => cases hgroup
  relation := by
    intro name inner steps _ hsteps
    refine Script.runs_ask hk rfl fun a ha => ?_
    rcases List.mem_cons.1 ha with rfl | ha
    · exact .value name
    · obtain rfl := List.mem_singleton.1 ha
      exact .script (scriptOf_runs hsteps)

/-- A script that fails has no plan, and so no call. -/
theorem made_eq_nil {s : Selector} {sourceName : Except Error Value} {params : Entries}
    {P Q W W' : Prop} (hplan : Planned (AllSteps (StepRuns k)) P W (s.fieldPlan sourceName params))
    (hinclude : Planned (fun plan => ∀ p ∈ plan, (p.2.script (.text p.1)).Runs k) Q W'
      (s.inclusionPlan params)) {origin : σ} {e : Error}
    (h : (s.script sourceName params).run k origin = .error e) :
    (s.script sourceName params).made k origin = [] := by
  unfold Selector.script at h ⊢
  generalize s.fieldPlan sourceName params = plan at hplan h ⊢
  generalize s.inclusionPlan params = includes at hinclude h ⊢
  cases hplan with
  | refused => rfl
  | plan _ hsteps =>
    cases hinclude with
    | refused => rfl
    | plan _ hincludes =>
      obtain ⟨s', hs'⟩ := (scriptOf_runs hsteps).andThen (inclusionScript_runs hincludes) origin
      cases hs'.symm.trans h

/-- **Requests are all or nothing.** Planning comes to a plan or finds fault with the request, a fault
that is reported as such if the request can be written. Where applying a request fails, the source
has received no call. A request for fields has a plan exactly if it says nothing, or what is offered
accepts it at every depth. -/
theorem all_or_nothing {fields inclusions : Value} (hfields : fields.DeclaresFields)
    (hinclusions : inclusions.isCodeless = true) {fieldRegistry : Registry Field}
    (hf : Declaration.fields fields = .ok fieldRegistry)
    {inclusionRegistry : Registry Inclusion}
    (hi : Declaration.inclusions inclusions = .ok inclusionRegistry)
    (fieldsKeyword includeKeyword : String) (ownName : Value) (sourceName : String)
    (params : Entries) (hk : k.RaisesNothing) (origin : σ) :
    let s : Selector :=
      ⟨⟨.text fieldsKeyword, .text includeKeyword, ownName⟩, fieldRegistry, inclusionRegistry⟩
    let plan := s.fieldPlan (.ok (.text sourceName)) params
    let script := s.script (.ok (.text sourceName)) params
    (∀ e, plan = .error e ∨ s.inclusionPlan params = .error e →
      ∃ fault, e = .query fault ∧ ((Value.map params).hasText = true → e.reported = e)) ∧
    (∀ e, script.run k origin = .error e → script.made k origin = []) ∧
    (plan.isOk = true ↔ ∀ raw, Entries.get? params (.text fieldsKeyword) = some raw →
      raw ≠ .null → (s.offered sourceName).Accepts raw) := by
  intro s plan script
  have hplan := fieldPlan_planned (stepRuns_keeps hk) (s := s)
    (Declaration.fields_isPlain hfields hf) rfl sourceName params
  have hinclude := inclusionPlan_planned hk (s := s)
    (Declaration.inclusions_codeless hinclusions hi) rfl params
  refine ⟨?faults, fun e he => ?untouched, hplan.isOk_iff⟩
  case faults =>
    rintro e (he | he)
    · exact hplan.eq_query he
    · exact hinclude.eq_query he
  case untouched =>
    exact made_eq_nil hplan hinclude he

/-- A request for a field of the listing itself, under its own name, and a field of a relation. -/
theorem all_or_nothing_items :
    let fields : Value := .list [.text "id", .map [(.text "items", .list [.text "slug"])]]
    let inclusions : Value := .list [.text "items"]
    let registry : Registry Field :=
      [("id", .column (.text "id")), ("items", .group (.text "items")
        (.map [(.text "slug", (Field.column (.text "slug")).toValue)]))]
    let s : Selector := ⟨⟨.text "fields", .text "include", .text "orders"⟩, registry,
      [("items", .relation (.text "items") .null)]⟩
    let params : Entries := [(.text "fields",
      .map [(.text "orders", .text "id"), (.text "items", .list [.text " slug "])])]
    let script := s.script (.ok (.text "self")) params
    fields.DeclaresFields ∧ inclusions.isCodeless = true ∧
      Declaration.fields fields = .ok s.fields ∧
      Declaration.inclusions inclusions = .ok s.inclusions ∧
      FilterPipeline.blank.RaisesNothing ∧
      (∀ e, script.run FilterPipeline.blank () = .error e →
        script.made FilterPipeline.blank () = []) ∧
      (s.offered "self").Accepts (.map [(.text "orders", .text "id"),
        (.text "items", .list [.text " slug "])]) := by
  intro fields inclusions registry s params script
  have hfields : fields.DeclaresFields := by
    refine .list fun v hv => ?_
    rcases List.mem_cons.1 hv with rfl | hv
    · exact .name "id"
    · obtain rfl := List.mem_singleton.1 hv
      refine .map fun e he => ?_
      obtain rfl := List.mem_singleton.1 he
      refine .list fun v hv => ?_
      obtain rfl := List.mem_singleton.1 hv
      exact .name "slug"
  have hf : Declaration.fields fields = .ok registry := rfl
  have hi : Declaration.inclusions inclusions = .ok s.inclusions := rfl
  have hall := all_or_nothing hfields rfl hf hi "fields" "include" (.text "orders") "self" params
    FilterPipeline.blank_raisesNothing ()
  have hplan : (s.fieldPlan (.ok (.text "self")) params).isOk = true := by with_unfolding_all rfl
  exact ⟨hfields, rfl, hf, hi, FilterPipeline.blank_raisesNothing, hall.2.1,
    hall.2.2.1 hplan _ (by with_unfolding_all rfl) nofun⟩

/-- Under an own name no group is found, even if all that is declared is the group of that name and
its fields would accept what is requested. -/
theorem refuses_group_of_own_name :
    let registry : Registry Field := [("item", .group (.text "item")
      (.map [(.text "id", (Field.column (.text "id")).toValue)]))]
    let s : Selector := { settings := { ownName := .text "item" }, fields := registry }
    let raw : Value := .map [(.text "item", .list [.text "id"])]
    Declaration.fields (.map [(.text "item", .list [.text "id"])]) = .ok registry ∧
      s.own = [] ∧ s.fields.entries.Accepts raw ∧
      s.fieldPlan (.ok (.text "self")) [(.text "fields", raw)] =
        .error (.query (.unsupportedInclude (.text "item") "fields")) := by
  intro registry s raw
  refine ⟨rfl, rfl, ?accepts, by with_unfolding_all rfl⟩
  case accepts =>
    refine (Entries.accepts_iff rfl).2 fun r hr => ?_
    obtain rfl := List.mem_singleton.1 hr
    refine (Entries.acceptsUnder_group rfl (by with_unfolding_all rfl)).2
      ((Entries.accepts_iff rfl).2 fun r hr => ?_)
    obtain rfl := List.mem_singleton.1 hr
    exact .field rfl (by with_unfolding_all rfl) (by with_unfolding_all rfl) rfl

end Selector

/-! ## Plans for columns -/

/-- Is a step of a plan for a column of a name with a property? -/
def IsColumnStep (P : String → Prop) (step : FieldStep) : Prop :=
  ∃ label name, step = .field label (Field.column (.text name)).toValue ∧ P name

/-- The steps of plans for fields that are columns are for columns. -/
theorem columnStep_keeps {P : String → Prop} :
    FieldStep.Keeps (fun field => ∃ name, field = .column (.text name) ∧ P name) (IsColumnStep P) where
  inside := fun ⟨_, h, _⟩ => nomatch h
  field := by
    rintro field ⟨name, rfl, hname⟩ - label
    exact ⟨label, name, rfl, hname⟩
  relation := fun ⟨_, h, _⟩ => nomatch h

/-- The plan for columns that are requested by labels. -/
def columnPlan (requested : List (String × String)) : List FieldStep :=
  requested.map fun r => .field r.1 (Field.column (.text r.2)).toValue

theorem exists_columnPlan {P : String → Prop} {steps : List FieldStep}
    (h : AllSteps (IsColumnStep P) steps) :
    ∃ requested, steps = columnPlan requested ∧ ∀ r ∈ requested, P r.2 := by
  induction steps with
  | nil => exact ⟨[], rfl, nofun⟩
  | cons step steps ih =>
    obtain ⟨label, name, rfl, hname⟩ := h step (List.mem_cons_self ..)
    obtain ⟨requested, rfl, hrequested⟩ := ih fun step hstep => h step (List.mem_cons_of_mem _ hstep)
    exact ⟨(label, name) :: requested, rfl, List.forall_mem_cons.2 ⟨hname, hrequested⟩⟩

end Listing
