import Listing.Proofs.Source.Faults
import Listing.Request.Filtering

/-!
# Applying filters

The steps of a request are declared filters (`FilterPipeline.named?_of_mem_steps`). A request with the
same filters in another order, and with empty values for further ones, has the same steps in some order
(`FilterPipeline.Rearranged.exists_steps`). The script of a request applies its steps one after the
other (`FilterPipeline.run_script`). `FilterPipeline.deeds` lists what is done on the way: the callbacks
that run and the calls that are made on the source. Where an application fails, the steps before the one
that fails have been applied (`FilterPipeline.exists_failed`).
-/

namespace Listing

/-- Something that is done while filters are applied. -/
inductive Deed
  /-- A callback runs. -/
  | runs (function : Value)
  /-- The source is asked for something. -/
  | makes (call : Call)

namespace Deed

/-- The call that a deed is. -/
def call? : Deed → Option Call
  | .runs _ => none
  | .makes c => some c

end Deed

namespace FilterPipeline

variable {p : FilterPipeline} {params : Entries}

/-! ## The steps of a request -/

theorem mem_stepsOf {es : Entries} {s : FilterStep} (h : s ∈ p.stepsOf es) :
    p.named? s.name = some s.filter := by
  obtain ⟨e, -, he⟩ := List.mem_filterMap.1 h
  split at he
  · next f hf =>
    split at he
    · cases he
    · obtain rfl := Option.some.inj he
      exact hf
  · cases he

/-- The steps of a request are declared filters. -/
theorem named?_of_mem_steps {steps : List FilterStep}
    (h : p.steps params = .ok steps) {s : FilterStep} (hs : s ∈ steps) :
    p.named? s.name = some s.filter := by
  unfold FilterPipeline.steps at h
  split at h
  · obtain rfl := Except.ok.inj h
    exact mem_stepsOf hs
  · obtain ⟨bucket, -, h⟩ := bind_eq_ok_iff.1 h
    split at h
    · obtain rfl := Except.ok.inj h
      cases hs
    · split at h
      · cases h
      · obtain rfl := Except.ok.inj h
        exact mem_stepsOf hs
    · exact absurd h bind_error_ne_ok

/-! ## Rearranged filters -/

variable {f : FilterPipeline} {keyword : String} {params' bucket extra : Entries}
  {steps : List FilterStep}

/-- Do parameters hold these entries under a keyword? Without a value they hold none. -/
def Bucket (keyword : String) (params bucket : Entries) : Prop :=
  params.parameter (.text keyword) = .ok (.map bucket) ∨
    params.parameter (.text keyword) = .ok .null ∧ bucket = []

/-- Do parameters hold the entries for filters of other ones in any order, and with empty values for
further filters? -/
structure Rearranged (f : FilterPipeline) (keyword : String) (params params' bucket extra : Entries) :
    Prop where
  before : Bucket keyword params bucket
  after : ∃ bucket', Bucket keyword params' bucket' ∧ bucket'.Perm (bucket ++ extra)
  empty : ∀ entry ∈ extra, (f.named? entry.1).isSome = true ∧ entry.2.isEmpty = true
  others : ∀ k, k ≠ .text keyword → params'.parameter k = params.parameter k

/-- A request has steps exactly if all entries are declared. -/
theorem steps_eq_ok_iff (hf : f.settings.keyword = .text keyword) (h : Bucket keyword params bucket) :
    f.steps params = .ok steps ↔
      (∀ entry ∈ bucket, (f.named? entry.1).isSome = true) ∧ f.stepsOf bucket = steps := by
  unfold FilterPipeline.steps
  rw [hf]
  dsimp only
  rcases h with h | ⟨h, rfl⟩
  · rw [h, ok_bind]
    dsimp only
    split
    · next entry hfind =>
      refine ⟨nofun, fun ⟨hdeclared, _⟩ => ?_⟩
      have hnone := List.find?_some hfind
      rw [← Option.not_isSome, hdeclared entry (List.mem_of_find?_eq_some hfind)] at hnone
      cases hnone
    · next hfind =>
      have hdeclared : ∀ entry ∈ bucket, (f.named? entry.1).isSome = true := by
        intro entry hentry
        simpa [Option.isSome_iff_ne_none] using List.find?_eq_none.1 hfind entry hentry
      exact ⟨fun hsteps => ⟨hdeclared, Except.ok.inj hsteps⟩, fun hsteps => congrArg Except.ok hsteps.2⟩
  · rw [h, ok_bind]
    exact ⟨fun hsteps => ⟨nofun, Except.ok.inj hsteps⟩, fun hsteps => congrArg Except.ok hsteps.2⟩

/-- **Rearranged parameters have the same steps**, in some order. -/
theorem Rearranged.exists_steps (h : f.Rearranged keyword params params' bucket extra)
    (hf : f.settings.keyword = .text keyword) (hsteps : f.steps params = .ok steps) :
    ∃ steps', f.steps params' = .ok steps' ∧ steps'.Perm steps := by
  obtain ⟨hdeclared, rfl⟩ := (steps_eq_ok_iff hf h.before).1 hsteps
  obtain ⟨bucket', hafter, hperm⟩ := h.after
  refine ⟨f.stepsOf bucket', (steps_eq_ok_iff hf hafter).2 ⟨fun entry hentry => ?_, rfl⟩, ?_⟩
  · rcases List.mem_append.1 (hperm.mem_iff.1 hentry) with hentry | hentry
    · exact hdeclared entry hentry
    · exact (h.empty entry hentry).1
  · have hextra : f.stepsOf extra = [] := by
      refine List.filterMap_eq_nil_iff.2 fun entry hentry => ?_
      obtain ⟨-, hempty⟩ := h.empty entry hentry
      split
      · rw [if_pos hempty]
      · rfl
    have hsame : f.stepsOf (bucket ++ extra) = f.stepsOf bucket := by
      rw [stepsOf, List.filterMap_append]
      exact (congrArg (f.stepsOf bucket ++ ·) hextra).trans (List.append_nil _)
    rw [← hsame]
    exact hperm.filterMap _

/-! ## Applying steps -/

variable {σ : Type} (k : Capabilities σ) (relations : Bool)

/-- Apply a step. -/
def apply (s : σ) (step : FilterStep) : Except Error σ := (stepScript relations step).run k s

/-- The callback that a step runs. -/
def callbackOf (step : FilterStep) : List Deed :=
  match step.filter with
  | .callback function => [.runs function]
  | _ => []

/-- What a step does. -/
def stepDeeds (s : σ) (step : FilterStep) : List Deed :=
  callbackOf step ++ ((stepScript relations step).made k s).map .makes

/-- What steps do, up to the first one that fails. -/
def deedsOf (s : σ) : List FilterStep → List Deed
  | [] => []
  | step :: steps =>
    stepDeeds k relations s step ++
      match apply k relations s step with
      | .ok s' => deedsOf s' steps
      | .error _ => []

/-- What the application of a request to a source does. -/
def deeds (p : FilterPipeline) (params : Entries) (s : σ) : List Deed :=
  match p.steps params with
  | .ok steps => deedsOf k relations s steps
  | .error _ => []

variable {k relations}

/-- **A request applies its steps one after the other.** -/
theorem run_script (s : σ) : (p.script relations params).run k s =
    p.steps params >>= fun steps => steps.foldlM (apply k relations) s := by
  unfold script
  cases p.steps params with
  | error e => rfl
  | ok steps =>
    change (Script.sequence (steps.map (stepScript relations))).run k s = _
    rw [Script.run_sequence, List.foldlM_map]
    rfl

theorem calls_stepDeeds (s : σ) (step : FilterStep) :
    (stepDeeds k relations s step).filterMap Deed.call? = (stepScript relations step).made k s := by
  have hnone : (callbackOf step).filterMap Deed.call? = [] := by
    unfold callbackOf
    split <;> rfl
  rw [stepDeeds, List.filterMap_append, hnone, List.nil_append, List.filterMap_map]
  exact List.filterMap_some

/-- The deeds that are calls are the calls that the script makes. -/
theorem calls_deeds (s : σ) :
    (p.deeds k relations params s).filterMap Deed.call? = (p.script relations params).made k s := by
  unfold deeds script
  cases p.steps params with
  | error e => rfl
  | ok steps =>
    change _ = (Script.sequence (steps.map (stepScript relations))).made k s
    simp only
    induction steps generalizing s with
    | nil => rfl
    | cons step steps ih =>
      rw [List.map_cons, Script.sequence, Script.made_andThen, deedsOf, List.filterMap_append,
        calls_stepDeeds, apply]
      congr 1
      cases (stepScript relations step).run k s with
      | error e => rfl
      | ok s' => exact ih s'

/-- **Where an application fails, one step fails**, and what was done is what the steps before it
did and what it did itself. -/
theorem exists_failed {steps : List FilterStep} {s : σ} {e : Error}
    (h : steps.foldlM (apply k relations) s = .error e) :
    ∃ applied step rest s', steps = applied ++ step :: rest ∧
      applied.foldlM (apply k relations) s = .ok s' ∧ apply k relations s' step = .error e ∧
      deedsOf k relations s steps =
        deedsOf k relations s applied ++ stepDeeds k relations s' step := by
  induction steps generalizing s with
  | nil => cases h
  | cons step steps ih =>
    rw [List.foldlM_cons] at h
    rcases bind_eq_error_iff.1 h with h | ⟨s₁, h₁, h⟩
    · exact ⟨[], step, steps, s, rfl, rfl, h, by simp [deedsOf, h]⟩
    · obtain ⟨applied, failed, rest, s', rfl, happlied, hfailed, hdeeds⟩ := ih h
      refine ⟨step :: applied, failed, rest, s', rfl, ?_, hfailed, ?_⟩
      · rw [List.foldlM_cons, h₁, ok_bind, happlied]
      · simp only [deedsOf, h₁, hdeeds, List.append_assoc]

end FilterPipeline

end Listing
