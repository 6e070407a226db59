import Listing.Proofs.Source.Script

/-!
# Faults of requests

Scripts find fault with a request, and a source passes that on. `Capabilities.Quiet` says that
a source finds no such fault itself: it only raises what the code that it is given raises. A run on
such a source ends with a fault only if the fault stands in the script (`Script.blames_of_run`).

A run makes the calls of a script up to the first one that fails: `Script.made`. A source that raises
nothing runs every call that fits (`Script.runs_ask`).
-/

namespace Listing

variable {σ : Type}

/-! ## Where faults stand -/

mutual

/-- Does the fault stand in the call? -/
inductive Call.Blames (fault : QueryFault) : Call → Prop
  | ask {capability : Capability} {arguments : List Argument} {a : Argument} : a ∈ arguments →
      Argument.Blames fault a → Call.Blames fault (.ask capability arguments)
  | aside {calls : List Call} {c : Call} : c ∈ calls → Call.Blames fault c →
      Call.Blames fault (.aside calls)

/-- Does the fault stand in the argument? -/
inductive Argument.Blames (fault : QueryFault) : Argument → Prop
  | script {s : Script} : Script.Blames fault s → Argument.Blames fault (.script s)
  | several {items : List Argument} {a : Argument} : a ∈ items → Argument.Blames fault a →
      Argument.Blames fault (.several items)

/-- Does the fault stand in the script, at its end or in a call? -/
inductive Script.Blames (fault : QueryFault) : Script → Prop
  | last (calls : List Call) : Script.Blames fault (.mk calls (some (.query fault)))
  | call {calls : List Call} {failure : Option Error} {c : Call} : c ∈ calls →
      Call.Blames fault c → Script.Blames fault (.mk calls failure)

end

/-- Does code that is given raise the error on some source? -/
inductive Given.Raises (e : Error) : Given σ → Prop
  | code {run : σ → Except Error σ} {s : σ} : run s = .error e → Raises e (.code run)
  | several {items : List (Given σ)} {g : Given σ} : g ∈ items → Raises e g →
      Raises e (.several items)

/-- Does the source find no fault with requests, except for what the code that it is given finds? -/
structure Capabilities.Quiet (k : Capabilities σ) : Prop where
  ask : ∀ {s c given fault}, k.ask s c given = .error (.query fault) →
    ∃ g ∈ given, g.Raises (.query fault)
  peek : ∀ {s question fault}, k.peek s question ≠ .error (.query fault)

variable {k : Capabilities σ} {fault : QueryFault}

theorem Script.blames_fail_iff {e : Error} : (Script.fail e).Blames fault ↔ e = .query fault := by
  constructor
  · intro h
    cases h with
    | last => rfl
    | call hc => cases hc
  · rintro rfl
    exact .last []

theorem Script.blames_one_iff {c : Call} : (Script.one c).Blames fault ↔ c.Blames fault := by
  constructor
  · intro h
    cases h with
    | call hc h => exact List.mem_singleton.1 hc ▸ h
  · exact .call (List.mem_singleton.2 rfl)

/-- Data holds no code. -/
theorem Call.not_blames_values {capability : Capability} {vs : List Value} :
    ¬ (Call.ask capability (vs.map .value)).Blames fault := by
  rintro ⟨ha, h⟩
  obtain ⟨v, -, rfl⟩ := List.mem_map.1 ha
  cases h

theorem Call.blames_has_iff {relation : Value} {t : Script} :
    (Call.has relation t).Blames fault ↔ t.Blames fault := by
  constructor
  · intro h
    cases h with
    | ask ha h =>
      rcases List.mem_cons.1 ha with rfl | ha
      · cases h
      · obtain rfl := List.mem_singleton.1 ha
        cases h with
        | script h => exact h
  · exact fun h => .ask (List.mem_cons_of_mem _ (List.mem_singleton.2 rfl)) (.script h)

theorem Call.blames_any_iff {branches : List Script} :
    (Call.any branches).Blames fault ↔ ∃ t ∈ branches, t.Blames fault := by
  constructor
  · rintro ⟨ha, h⟩
    obtain rfl := List.mem_singleton.1 ha
    cases h with
    | several hitem h =>
      obtain ⟨t, ht, rfl⟩ := List.mem_map.1 hitem
      cases h with
      | script h => exact ⟨t, ht, h⟩
  · rintro ⟨t, ht, h⟩
    exact .ask (List.mem_singleton.2 rfl) (.several (List.mem_map_of_mem ht) (.script h))

mutual

theorem Call.blames_of_run (hk : k.Quiet) : (c : Call) → (s : σ) →
    c.run k s = .error (.query fault) → c.Blames fault
  | .ask c arguments, s, h => by
    rw [Call.run] at h
    split at h
    · obtain ⟨g, hg, hraises⟩ := hk.ask h
      obtain ⟨a, ha, hblames⟩ := blames_of_given hk arguments g hg hraises
      exact .ask ha hblames
    · cases h
  | .peek question heeded, s, h => by
    rw [Call.run] at h
    rcases bind_eq_error_iff.1 h with h | ⟨nothing, -, h⟩
    · exact absurd h hk.peek
    · split at h <;> cases h
  | .aside calls, s, h => by
    rw [Call.run] at h
    rcases bind_eq_error_iff.1 h with h | ⟨s', -, h⟩
    · obtain ⟨c, hc, hblames⟩ := blames_of_callsRun hk calls s h
      exact .aside hc hblames
    · cases h

theorem blames_of_callsRun (hk : k.Quiet) : (calls : List Call) → (s : σ) →
    callsRun k s calls = .error (.query fault) → ∃ c ∈ calls, c.Blames fault
  | [], _, h => by
    rw [callsRun] at h
    cases h
  | c :: calls, s, h => by
    rw [callsRun] at h
    rcases bind_eq_error_iff.1 h with h | ⟨s', -, h⟩
    · exact ⟨c, List.mem_cons_self .., Call.blames_of_run hk c s h⟩
    · obtain ⟨d, hd, hblames⟩ := blames_of_callsRun hk calls s' h
      exact ⟨d, List.mem_cons_of_mem _ hd, hblames⟩

/-- **A quiet source ends a run with a fault only if the fault stands in the script.** -/
theorem Script.blames_of_run (hk : k.Quiet) : (t : Script) → (s : σ) →
    t.run k s = .error (.query fault) → t.Blames fault
  | .mk calls failure, s, h => by
    rw [Script.run] at h
    rcases bind_eq_error_iff.1 h with h | ⟨s', -, h⟩
    · obtain ⟨c, hc, hblames⟩ := blames_of_callsRun hk calls s h
      exact .call hc hblames
    · cases failure with
      | none => cases h
      | some e =>
        obtain rfl := Except.error.inj h
        exact .last calls

theorem Argument.blames_of_given (hk : k.Quiet) : (a : Argument) →
    (a.given k).Raises (.query fault) → a.Blames fault
  | .value _, h => by
    rw [Argument.given] at h
    cases h
  | .script t, h => by
    rw [Argument.given] at h
    cases h with
    | code h => exact .script (Script.blames_of_run hk t _ h)
  | .several items, h => by
    rw [Argument.given] at h
    cases h with
    | several hg hraises =>
      obtain ⟨a, ha, hblames⟩ := blames_of_given hk items _ hg hraises
      exact .several ha hblames

theorem blames_of_given (hk : k.Quiet) : (arguments : List Argument) →
    (g : Given σ) → g ∈ argumentsGiven k arguments → g.Raises (.query fault) →
      ∃ a ∈ arguments, a.Blames fault
  | [], g, hg, _ => by
    rw [argumentsGiven] at hg
    cases hg
  | a :: arguments, g, hg, h => by
    rw [argumentsGiven, List.mem_cons] at hg
    rcases hg with rfl | hg
    · exact ⟨a, List.mem_cons_self .., Argument.blames_of_given hk a h⟩
    · obtain ⟨b, hb, hblames⟩ := blames_of_given hk arguments g hg h
      exact ⟨b, List.mem_cons_of_mem _ hb, hblames⟩

end

/-! ## Runs one after the other -/

theorem Script.run_andThen (k : Capabilities σ) (s : σ) (t u : Script) :
    (t.andThen u).run k s = t.run k s >>= u.run k := by
  obtain ⟨cs, failure⟩ := t
  obtain ⟨ds, failure'⟩ := u
  cases failure with
  | some e =>
    change Script.run k s (.mk cs (some e)) = _
    rw [Script.run]
    cases callsRun k s cs <;> rfl
  | none =>
    change Script.run k s (.mk (cs ++ ds) failure') = _
    rw [Script.run, Script.run, callsRun_append]
    cases callsRun k s cs with
    | error e => rfl
    | ok s' => exact (Script.run.eq_def k s' (.mk ds failure')).symm

/-- The script of one call runs it. -/
theorem Script.run_one (k : Capabilities σ) (s : σ) (c : Call) : (Script.one c).run k s = c.run k s := by
  rw [Script.one, Script.run, callsRun]
  cases c.run k s <;> rfl

/-- A sequence of scripts runs them one after the other. -/
theorem Script.run_sequence (k : Capabilities σ) (s : σ) (ts : List Script) :
    (sequence ts).run k s = ts.foldlM (fun s t => t.run k s) s := by
  induction ts generalizing s with
  | nil => rfl
  | cons t ts ih =>
    rw [sequence, run_andThen, List.foldlM_cons]
    congr 1
    funext s'
    exact ih s'

/-- The calls that are made one after the other, up to the first one that fails. -/
def callsMade (k : Capabilities σ) (s : σ) : List Call → List Call
  | [] => []
  | c :: cs =>
    c :: match c.run k s with
      | .ok s' => callsMade k s' cs
      | .error _ => []

/-- The calls that a run of the script makes. -/
def Script.made (k : Capabilities σ) (s : σ) (t : Script) : List Call := callsMade k s t.calls

theorem Script.made_one (k : Capabilities σ) (s : σ) (c : Call) :
    (Script.one c).made k s = [c] := by
  change c :: _ = [c]
  cases c.run k s <;> rfl

theorem callsMade_append (k : Capabilities σ) (s : σ) (cs ds : List Call) :
    callsMade k s (cs ++ ds) = callsMade k s cs ++
      match callsRun k s cs with
      | .ok s' => callsMade k s' ds
      | .error _ => [] := by
  induction cs generalizing s with
  | nil => rfl
  | cons c cs ih =>
    rw [List.cons_append, callsMade, callsMade, callsRun]
    cases c.run k s with
    | error e => rfl
    | ok s' => exact congrArg (c :: ·) (ih s')

/-- After a script that ends in a failure nothing is made. -/
theorem Script.made_andThen (k : Capabilities σ) (s : σ) (t u : Script) :
    (t.andThen u).made k s = t.made k s ++
      match t.run k s with
      | .ok s' => u.made k s'
      | .error _ => [] := by
  obtain ⟨cs, failure⟩ := t
  rw [Script.run]
  cases failure with
  | some e =>
    change callsMade k s cs = callsMade k s cs ++ _
    cases callsRun k s cs <;> exact (List.append_nil _).symm
  | none =>
    change callsMade k s (cs ++ u.calls) = _
    rw [callsMade_append]
    cases callsRun k s cs <;> rfl

/-! ## Scripts that always run -/

/-- Does the source raise nothing, except for what the code that it is given raises? -/
def Capabilities.RaisesNothing (k : Capabilities σ) : Prop :=
  ∀ {s c given e}, k.ask s c given = .error e → ∃ g ∈ given, g.Raises e

/-- Does the script run, whatever the source is? -/
def Script.Runs (k : Capabilities σ) (t : Script) : Prop := ∀ s, ∃ s', t.run k s = .ok s'

/-- Does the argument raise nothing? Data does not, and neither does a script that runs. -/
inductive Argument.Runs (k : Capabilities σ) : Argument → Prop
  | value (v : Value) : Argument.Runs k (.value v)
  | script {t : Script} : t.Runs k → Argument.Runs k (.script t)

theorem Script.runs_done : Script.done.Runs k := fun s => ⟨s, by rw [done, Script.run, callsRun]; rfl⟩

theorem Script.Runs.andThen {t u : Script} (ht : t.Runs k) (hu : u.Runs k) :
    (t.andThen u).Runs k := by
  intro s
  obtain ⟨s₁, h₁⟩ := ht s
  obtain ⟨s₂, h₂⟩ := hu s₁
  exact ⟨s₂, by rw [run_andThen, h₁, ok_bind, h₂]⟩

theorem exists_of_mem_argumentsGiven {arguments : List Argument} {g : Given σ}
    (h : g ∈ argumentsGiven k arguments) : ∃ a ∈ arguments, g = a.given k := by
  induction arguments with
  | nil =>
    rw [argumentsGiven] at h
    cases h
  | cons a arguments ih =>
    rw [argumentsGiven, List.mem_cons] at h
    rcases h with rfl | h
    · exact ⟨a, List.mem_cons_self .., rfl⟩
    · obtain ⟨b, hb, rfl⟩ := ih h
      exact ⟨b, List.mem_cons_of_mem _ hb, rfl⟩

theorem Argument.Runs.not_raises {a : Argument} (ha : a.Runs k) (e : Error) :
    ¬ (a.given k).Raises e := by
  intro h
  cases ha with
  | value v =>
    rw [given] at h
    cases h
  | script ht =>
    rw [given] at h
    cases h with
    | @code _ s h =>
      obtain ⟨s', hs⟩ := ht s
      cases hs.symm.trans h

/-- **A call that fits runs on a source that raises nothing**, if its arguments do. -/
theorem Script.runs_ask (hk : k.RaisesNothing) {c : Capability} {arguments : List Argument}
    (hc : c.accepts arguments.length = true) (ha : ∀ a ∈ arguments, a.Runs k) :
    (Script.one (.ask c arguments)).Runs k := by
  intro s
  have hask : ∃ s', k.ask s c (argumentsGiven k arguments) = .ok s' := by
    cases h : k.ask s c (argumentsGiven k arguments) with
    | ok s' => exact ⟨s', rfl⟩
    | error e =>
      obtain ⟨g, hg, hraises⟩ := hk h
      obtain ⟨a, hmem, rfl⟩ := exists_of_mem_argumentsGiven hg
      exact absurd hraises ((ha a hmem).not_raises e)
  obtain ⟨s', hs'⟩ := hask
  refine ⟨s', ?_⟩
  rw [one, Script.run, callsRun, Call.run, if_pos hc, hs', ok_bind, callsRun]
  rfl

end Listing
