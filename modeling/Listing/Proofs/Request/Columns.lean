import Listing.Proofs.Params.Canonical
import Listing.Proofs.Request.Confinement
import Listing.Proofs.Request.Selection
import Listing.Proofs.Source.Mirrored

/-!
# Requests on columns

Where fields, filters and sort attributes are made of columns, a request asks for nothing but calls on
columns (`Call.IsOn`): a selection does (`Selector.isOn_script`), an ordering does (`Sorter.isOn_script`),
and a filtering does if the columns can read what the request says (`FilterPipeline.isOn_script`). What
a query string says are texts, or lists and maps of them, so that all that a filter compares with is
a text.
-/

namespace Listing

open Params (Canonical CanonicalRoot)

variable {columns : List Column}

/-- Are all calls of a script calls on columns? -/
abbrev Script.IsOn (columns : List Column) (s : Script) : Prop := s.All (Call.IsOn columns)

/-! ## Selections -/

namespace Selector

/-- Does a selection offer columns only, under a keyword? With an own name that is its own it would
depend on the source. -/
structure IsOn (columns : List Column) (s : Selector) : Prop where
  keyword : ∃ keyword, s.settings.fieldsKeyword = .text keyword
  ownName : s.settings.ownName ≠ .bool true
  fields : s.fields.All fun field => ∃ name, field = .column (.text name) ∧
    ∃ c ∈ columns, name = c.name
  inclusions : s.inclusions = []

theorem isOn_scriptOf {steps : List FieldStep}
    (h : AllSteps (IsColumnStep fun name => ∃ c ∈ columns, name = c.name) steps) :
    (FieldStep.scriptOf steps).IsOn columns := by
  induction steps with
  | nil => exact .done
  | cons step steps ih =>
    obtain ⟨label, name, rfl, c, hc, rfl⟩ := h step (List.mem_cons_self ..)
    exact (Script.All.one (.select hc)).andThen
      (ih fun step hstep => h step (List.mem_cons_of_mem _ hstep))

/-- Without includes a request for any is refused. -/
theorem inclusionPlan_of_nil {s : Selector} (h : s.inclusions = []) {params : Entries}
    {includes : List (String × Inclusion)} (hplan : s.inclusionPlan params = .ok includes) :
    includes = [] := by
  unfold inclusionPlan at hplan
  obtain ⟨raw, -, hplan⟩ := bind_eq_ok_iff.1 hplan
  split at hplan
  · exact (Except.ok.inj hplan).symm
  · obtain ⟨names, -, hplan⟩ := bind_eq_ok_iff.1 hplan
    cases names with
    | nil => exact (Except.ok.inj hplan).symm
    | cons v names =>
      rw [List.mapM_cons] at hplan
      obtain ⟨i, hi, -⟩ := bind_eq_ok_iff.1 hplan
      unfold inclusionStep at hi
      rw [h] at hi
      dsimp only [Registry.get?, List.find?] at hi
      split at hi
      · exact absurd hi bind_error_ne_ok
      · exact absurd hi bind_error_ne_ok

/-- **A selection of columns asks for columns.** -/
theorem isOn_script {s : Selector} (h : s.IsOn columns) (sourceName : String) (params : Entries) :
    (s.script (.ok (.text sourceName)) params).IsOn columns := by
  obtain ⟨keyword, hkeyword⟩ := h.keyword
  have hplanned := fieldPlan_planned columnStep_keeps h.fields hkeyword sourceName params
  unfold script
  cases hplan : s.fieldPlan (.ok (.text sourceName)) params with
  | error fault => exact .fail fault
  | ok steps =>
    cases hincludes : s.inclusionPlan params with
    | error fault => exact .fail fault
    | ok includes =>
      rw [hplan] at hplanned
      cases hplanned with
      | plan _ hsteps =>
        rw [inclusionPlan_of_nil h.inclusions hincludes]
        exact (isOn_scriptOf hsteps).andThen .done

/-- **No other source is asked for anything else.** -/
theorem script_eq {s : Selector} (h : s.IsOn columns) (name name' : String) (params : Entries) :
    s.script (.ok (.text name)) params = s.script (.ok (.text name')) params := by
  have hname : s.ownName (.ok (.text name)) = s.ownName (.ok (.text name')) := by
    have hne := h.ownName
    unfold ownName
    split
    · exact absurd ‹_› hne
    · rfl
    · rfl
  unfold script fieldPlan
  rw [hname]

end Selector

/-! ## Filters -/

namespace Filter

/-- Does a filter compare an attribute with a value, or look for it among several? -/
inductive Compares : Filter → Value → Prop
  | exact (target : Value) : Compares (.exact target) target
  | member (target : Value) : Compares (.member target) target
  | compare (target operator : Value) : Compares (.compare target operator) target

/-- The values that a filter compares an attribute with, for a value of a request. -/
def operands : Filter → Value → List Value
  | .exact _, .list vs | .exact _, .tuple vs | .exact _, .set vs => vs
  | .member _, .map es => Entries.values es
  | .member _, .list vs | .member _, .tuple vs | .member _, .set vs => vs
  | .member _, v => (commaList v.toText).map .text
  | _, v => [v]

theorem exists_texts_of_scalars {name : Value} {vs ws : List Value} (hvs : ∀ v ∈ vs, Canonical v)
    (h : scalars name vs = .ok ws) : ∃ texts : List String, vs = texts.map .text ∧ ws = vs := by
  induction vs generalizing ws with
  | nil => exact ⟨[], rfl, (Except.ok.inj h).symm⟩
  | cons v vs ih =>
    unfold scalars at h
    rw [List.mapM_cons] at h
    obtain ⟨w, hw, h⟩ := bind_eq_ok_iff.1 h
    obtain ⟨rest, hrest, h⟩ := bind_eq_ok_iff.1 h
    obtain rfl := Except.ok.inj h
    obtain ⟨texts, rfl, rfl⟩ := ih (fun v hv => hvs v (List.mem_cons_of_mem _ hv)) hrest
    have hv := hvs v (List.mem_cons_self ..)
    cases v with
    | text s =>
      obtain rfl := Except.ok.inj hw
      exact ⟨s :: texts, rfl, rfl⟩
    | list _ | map _ => cases hw
    | _ => exact absurd hv id

section Calls

variable {c : Column} {name value : Value} {call : Call}

theorem isOn_texts (hc : c ∈ columns) {vs ws : List Value} (hvs : ∀ v ∈ vs, Canonical v)
    (hreads : ∀ s, .text s ∈ vs → c.Reads s) (h : scalars name vs = .ok ws) :
    (Call.member (.text c.name) ws).IsOn columns := by
  obtain ⟨texts, rfl, rfl⟩ := exists_texts_of_scalars hvs h
  exact .member hc fun s hs => hreads s (List.mem_map_of_mem hs)

theorem isOn_exact (hc : c ∈ columns) (hvalue : Canonical value)
    (hreads : ∀ s, .text s ∈ (Filter.exact (.text c.name)).operands value → c.Reads s)
    (hcall : callOn (.exact (.text c.name)) (.text c.name) name value = .ok call) :
    call.IsOn columns := by
  cases value with
  | text s =>
    obtain rfl := Except.ok.inj hcall
    exact .compare _ hc (hreads s (List.mem_singleton_self _))
  | list vs =>
    obtain ⟨ws, hws, h⟩ := bind_eq_ok_iff.1 hcall
    obtain rfl := Except.ok.inj h
    exact isOn_texts hc (Params.canonicalItems_iff.1 hvalue.2) hreads hws
  | map es => cases hcall
  | _ => exact absurd hvalue id

theorem isOn_member (hc : c ∈ columns) (hvalue : Canonical value)
    (hreads : ∀ s, .text s ∈ (Filter.member (.text c.name)).operands value → c.Reads s)
    (hcall : callOn (.member (.text c.name)) (.text c.name) name value = .ok call) :
    call.IsOn columns := by
  obtain ⟨vs, hvs, hcall⟩ := bind_eq_ok_iff.1 hcall
  obtain ⟨ws, hws, hcall⟩ := bind_eq_ok_iff.1 hcall
  obtain rfl := Except.ok.inj hcall
  cases value with
  | text s =>
    obtain rfl := Except.ok.inj hvs
    refine isOn_texts hc (fun v hv => ?_) hreads hws
    obtain ⟨piece, -, rfl⟩ := List.mem_map.1 hv
    trivial
  | list vs =>
    obtain rfl := Except.ok.inj hvs
    exact isOn_texts hc (Params.canonicalItems_iff.1 hvalue.2) hreads hws
  | map es =>
    obtain rfl := Except.ok.inj hvs
    refine isOn_texts hc (fun v hv => ?_) hreads hws
    obtain ⟨e, he, rfl⟩ := List.mem_map.1 hv
    exact (Params.canonicalBranches_iff.1 hvalue.2.2.2 e he).2
  | _ => exact absurd hvalue id

theorem isOn_compare (hc : c ∈ columns) {operator : Value} (hvalue : Canonical value)
    (hreads : ∀ s, .text s ∈ (Filter.compare (.text c.name) operator).operands value → c.Reads s)
    (hcall : callOn (.compare (.text c.name) operator) (.text c.name) name value = .ok call) :
    call.IsOn columns := by
  cases value with
  | text s =>
    obtain rfl := Except.ok.inj hcall
    exact .compare _ hc (hreads s (List.mem_singleton_self _))
  | list vs => cases hcall
  | map es => cases hcall
  | _ => exact absurd hvalue id

end Calls

/-- **A filter on a column asks for the column**, if the column can read what the request says. -/
theorem isOn_script {filter : Filter} {c : Column} (hc : c ∈ columns)
    (hfilter : filter.Compares (.text c.name)) (name : Value) {value : Value}
    (hvalue : Canonical value)
    (hreads : ∀ s, .text s ∈ filter.operands value → c.Reads s) :
    (filter.script false name value).IsOn columns := by
  have hscript : filter.script false name value = scriptOn filter (.text c.name) name value := by
    cases hfilter <;> rfl
  rw [hscript, scriptOn]
  refine .ofExcept fun s hs => ?_
  obtain ⟨call, hcall, rfl⟩ := map_eq_ok_iff.1 hs
  refine .one ?_
  cases hfilter with
  | exact => exact isOn_exact hc hvalue hreads hcall
  | member => exact isOn_member hc hvalue hreads hcall
  | compare => exact isOn_compare hc hvalue hreads hcall

end Filter

namespace FilterPipeline

variable {p : FilterPipeline} {params : Entries} {steps : List FilterStep}

theorem mem_of_mem_stepsOf {es : Entries} {s : FilterStep} (h : s ∈ p.stepsOf es) :
    (s.name, s.value) ∈ es := by
  obtain ⟨e, he, h⟩ := List.mem_filterMap.1 h
  split at h
  · split at h
    · cases h
    · obtain rfl := Option.some.inj h
      exact he
  · cases h

/-- What a query string says of a filter is a text, or a list or a map of texts. -/
theorem canonical_of_mem_steps (hparams : CanonicalRoot params) (h : p.steps params = .ok steps)
    {s : FilterStep} (hs : s ∈ steps) : Canonical s.value := by
  unfold FilterPipeline.steps at h
  split at h
  · obtain rfl := Except.ok.inj h
    exact hparams.canonical (mem_of_mem_stepsOf hs)
  · obtain ⟨bucket, hbucket, h⟩ := bind_eq_ok_iff.1 h
    split at h
    · obtain rfl := Except.ok.inj h
      cases hs
    · next es =>
      split at h
      · cases h
      · obtain rfl := Except.ok.inj h
        have hget : Entries.get? params p.settings.keyword = some (.map es) := by
          unfold Entries.parameter at hbucket
          split at hbucket
          · cases hget : Entries.get? params p.settings.keyword with
            | none =>
              rw [hget] at hbucket
              cases hbucket
            | some v =>
              rw [hget] at hbucket
              rw [← Except.ok.inj hbucket]
              rfl
          · cases hbucket
        obtain ⟨l, hl, -⟩ := Entries.mem_of_get?_eq_some hget
        exact (Params.canonicalBranches_iff.1 (hparams.canonical hl).2.2.2 _ (mem_of_mem_stepsOf hs)).2
    · exact absurd h bind_error_ne_ok

/-- Can the columns read what a request says of them? -/
def IsReadable (p : FilterPipeline) (columns : List Column) (params : Entries) : Prop :=
  ∀ steps, p.steps params = .ok steps → ∀ step ∈ steps, ∀ c ∈ columns,
    step.filter.Compares (.text c.name) → ∀ s, .text s ∈ step.filter.operands step.value → c.Reads s

/-- **A filtering of columns asks for columns**, if they can read what the request says. -/
theorem isOn_script (hp : p.filters.All fun filter => ∃ c ∈ columns, filter.Compares (.text c.name))
    (hparams : CanonicalRoot params) (hreads : p.IsReadable columns params) :
    (p.script false params).IsOn columns := by
  refine .ofExcept fun s hs => ?_
  obtain ⟨steps, hsteps, hs⟩ := bind_eq_ok_iff.1 hs
  obtain rfl := Except.ok.inj hs
  refine .sequence fun s hs => ?_
  obtain ⟨step, hstep, rfl⟩ := List.mem_map.1 hs
  obtain ⟨name, -, hget⟩ := Option.bind_eq_some_iff.1 (named?_of_mem_steps hsteps hstep)
  obtain ⟨c, hc, hfilter⟩ := hp.get? hget
  exact Filter.isOn_script hc hfilter _ (canonical_of_mem_steps hparams hsteps hstep)
    (hreads steps hsteps step hstep c hc hfilter)

end FilterPipeline

/-! ## Orders -/

/-- **An ordering of columns asks for columns.** -/
theorem Sorter.isOn_script {s : Sorter}
    (h : ∀ e ∈ s.attributes, ∀ column direction, e.2.Lists column direction →
      ∃ c ∈ columns, column = .text c.name) (params : Entries) :
    (s.script params).IsOn columns := by
  refine .ofExcept fun script hscript => ?_
  obtain ⟨raw, -, hscript⟩ := bind_eq_ok_iff.1 hscript
  obtain ⟨os, hos, hscript⟩ := bind_eq_ok_iff.1 hscript
  obtain rfl := Except.ok.inj hscript
  have hwithin : OrdersWithin
      (fun part word => part = .attribute → ∃ c ∈ columns, word = .text c.name) os := by
    refine orders_within ?_ hos
    rintro part word ⟨e, he, hnames⟩
    cases hnames with
    | column hlists => exact fun _ => h e he _ _ hlists
    | direction => nofun
  intro call hcall
  obtain ⟨o, ho, rfl⟩ := List.mem_map.1 hcall
  obtain ⟨c, hc, hname⟩ := (hwithin o ho).1 rfl
  rw [hname]
  exact .order o.2 hc

end Listing
