import Listing.Proofs.Outcome
import Listing.Source.Capability

/-!
# What scripts preserve

A script does nothing to a source but ask it for capabilities, so whatever these preserve the script
preserves: `Script.run_preserves`. Scripts that are put together from others make the calls of these
(`Script.All`). A change of sources that the capabilities do not notice is not
noticed by a script that asks for nothing else: `Script.run_map`. Two sources stay related along
a script if they do along every call of it: `Script.run_alike`.
-/

namespace Listing

variable {σ : Type} {k : Capabilities σ} {P : σ → Prop}

theorem Call.run_preserves
    (hask : ∀ s c given s', k.ask s c given = .ok s' → P s → P s') {s s' : σ} {call : Call}
    (h : call.run k s = .ok s') (hs : P s) : P s' := by
  cases call with
  | ask c arguments =>
    rw [Call.run] at h
    split at h
    · exact hask _ _ _ _ h hs
    · cases h
  | peek question heeded =>
    rw [Call.run] at h
    obtain ⟨nothing, -, h⟩ := bind_eq_ok_iff.1 h
    split at h
    · cases h
    · obtain rfl := Except.ok.inj h
      exact hs
  | aside cs =>
    rw [Call.run] at h
    obtain ⟨-, -, h⟩ := bind_eq_ok_iff.1 h
    obtain rfl := Except.ok.inj h
    exact hs

theorem callsRun_preserves
    (hask : ∀ s c given s', k.ask s c given = .ok s' → P s → P s') {s s' : σ} {calls : List Call}
    (h : callsRun k s calls = .ok s') (hs : P s) : P s' := by
  induction calls generalizing s with
  | nil =>
    rw [callsRun] at h
    obtain rfl := Except.ok.inj h
    exact hs
  | cons call calls ih =>
    rw [callsRun] at h
    obtain ⟨s₁, h₁, h⟩ := bind_eq_ok_iff.1 h
    exact ih h (Call.run_preserves hask h₁ hs)

theorem callsRun_append (k : Capabilities σ) (s : σ) (cs ds : List Call) :
    callsRun k s (cs ++ ds) = callsRun k s cs >>= fun s' => callsRun k s' ds := by
  induction cs generalizing s with
  | nil => rw [callsRun, List.nil_append, ok_bind]
  | cons c cs ih =>
    rw [List.cons_append, callsRun, callsRun, bind_assoc]
    congr 1
    funext s'
    exact ih s'

/-- **A script preserves what every capability preserves.** -/
theorem Script.run_preserves
    (hask : ∀ s c given s', k.ask s c given = .ok s' → P s → P s') {s s' : σ} {script : Script}
    (h : script.run k s = .ok s') (hs : P s) : P s' := by
  cases script with
  | mk calls failure =>
    rw [Script.run] at h
    obtain ⟨s₁, h₁, h⟩ := bind_eq_ok_iff.1 h
    cases failure with
    | some e => cases h
    | none =>
      obtain rfl := Except.ok.inj h
      exact callsRun_preserves hask h₁ hs

/-! ## Scripts of calls of one kind -/

/-- Have all calls of the script a property? -/
def Script.All (Q : Call → Prop) (t : Script) : Prop := ∀ c ∈ t.calls, Q c

namespace Script.All

variable {Q : Call → Prop} {t u : Script}

theorem done : Script.done.All Q := nofun

theorem fail (e : Error) : (Script.fail e).All Q := nofun

theorem one {c : Call} (h : Q c) : (Script.one c).All Q := List.forall_mem_singleton.2 h

theorem andThen (ht : t.All Q) (hu : u.All Q) : (t.andThen u).All Q := by
  unfold Script.andThen
  split
  · exact ht
  · exact fun c hc => (List.mem_append.1 hc).elim (ht c) (hu c)

theorem sequence {ts : List Script} (h : ∀ t ∈ ts, t.All Q) : (Script.sequence ts).All Q := by
  induction ts with
  | nil => exact done
  | cons t ts ih =>
    exact (h t (List.mem_cons_self ..)).andThen (ih fun u hu => h u (List.mem_cons_of_mem _ hu))

theorem ofExcept {x : Except Error Script} (h : ∀ t, x = .ok t → t.All Q) :
    (Script.ofExcept x).All Q := by
  cases x with
  | error e => exact fail e
  | ok t => exact h t rfl

end Script.All

/-! ## Changes that are not noticed -/

/-- Does the call ask for nothing but certain capabilities? -/
inductive Call.Asks (C : Capability → Prop) : Call → Prop
  | ask {c : Capability} (arguments : List Argument) : C c → Call.Asks C (.ask c arguments)
  | aside {calls : List Call} : (∀ c ∈ calls, Call.Asks C c) → Call.Asks C (.aside calls)

/-- Does the script ask for nothing but certain capabilities? What stands in the arguments of its
calls may ask for anything. -/
def Script.Asks (C : Capability → Prop) (t : Script) : Prop := ∀ c ∈ t.calls, c.Asks C

theorem Script.Asks.mono {C D : Capability → Prop} {t : Script} (h : t.Asks C)
    (hCD : ∀ c, C c → D c) : t.Asks D := by
  have hcall : ∀ c : Call, c.Asks C → c.Asks D := by
    intro c hc
    induction hc with
    | ask arguments hc => exact .ask arguments (hCD _ hc)
    | aside _ ih => exact .aside ih
  exact fun c hc => hcall c (h c hc)

variable {C : Capability → Prop} {f : σ → σ}

theorem callsRun_map {calls : List Call}
    (h : ∀ c ∈ calls, ∀ s, c.run k (f s) = (c.run k s).map f) (s : σ) :
    callsRun k (f s) calls = (callsRun k s calls).map f := by
  induction calls generalizing s with
  | nil =>
    rw [callsRun, callsRun]
    rfl
  | cons c calls ih =>
    rw [callsRun, callsRun, h c (List.mem_cons_self ..)]
    cases c.run k s with
    | error e => rfl
    | ok s' => exact ih (fun d hd => h d (List.mem_cons_of_mem _ hd)) s'

theorem Call.run_map
    (hask : ∀ s c given, C c → k.ask (f s) c given = (k.ask s c given).map f) {c : Call}
    (hc : c.Asks C) (s : σ) : c.run k (f s) = (c.run k s).map f := by
  induction hc generalizing s with
  | ask arguments h =>
    rw [Call.run, Call.run]
    split
    · exact hask s _ _ h
    · rfl
  | @aside calls _ ih =>
    rw [Call.run, Call.run, callsRun_map fun c hc s => ih c hc s]
    cases callsRun k s calls <;> rfl

/-- **A change that capabilities do not notice is not noticed by a script** that asks for nothing
else. -/
theorem Script.run_map
    (hask : ∀ s c given, C c → k.ask (f s) c given = (k.ask s c given).map f) {t : Script}
    (ht : t.Asks C) (s : σ) : t.run k (f s) = (t.run k s).map f := by
  obtain ⟨calls, failure⟩ := t
  have hcalls : callsRun k (f s) calls = (callsRun k s calls).map f :=
    callsRun_map (fun c hc s => Call.run_map hask (ht c hc) s) s
  rw [Script.run, Script.run, hcalls]
  cases callsRun k s calls with
  | error e => rfl
  | ok s' => cases failure <;> rfl

/-! ## Two sources -/

variable {τ : Type} {l : Capabilities τ} {R : σ → τ → Prop}

theorem callsRun_alike {calls : List Call}
    (h : ∀ c ∈ calls, ∀ s s', R s s' → Alike R (c.run k s) (c.run l s')) {s : σ} {s' : τ}
    (hs : R s s') : Alike R (callsRun k s calls) (callsRun l s' calls) := by
  induction calls generalizing s s' with
  | nil =>
    rw [callsRun, callsRun]
    exact .ok hs
  | cons c calls ih =>
    rw [callsRun, callsRun]
    exact (h c (List.mem_cons_self ..) s s' hs).bind fun _ _ _ hs =>
      ih (fun c hc => h c (List.mem_cons_of_mem _ hc)) hs

theorem argumentsGiven_eq_map (k : Capabilities σ) (as : List Argument) :
    argumentsGiven k as = as.map (Argument.given k) := by
  induction as with
  | nil => rw [argumentsGiven, List.map_nil]
  | cons a as ih => rw [argumentsGiven, ih, List.map_cons]

/-- A source does what a call asks for. -/
theorem Call.run_ask (k : Capabilities σ) (s : σ) {c : Capability} {arguments : List Argument}
    (h : c.accepts arguments.length = true) :
    (Call.ask c arguments).run k s = k.ask s c (arguments.map (Argument.given k)) := by
  rw [Call.run, if_pos h, argumentsGiven_eq_map]

theorem Argument.map_given_value (k : Capabilities σ) (vs : List Value) :
    (vs.map Argument.value).map (Argument.given k) = vs.map .value := by
  rw [List.map_map]
  exact List.map_congr_left fun v _ => by rw [Function.comp_apply, Argument.given]

/-- Two sources do alike what a call asks for if their capabilities do. -/
theorem Call.run_alike {c : Capability} {s : σ} {s' : τ} (vs : List Value)
    (haccepts : c.accepts vs.length = true)
    (h : Alike R (k.ask s c (vs.map .value)) (l.ask s' c (vs.map .value))) :
    Alike R ((Call.ask c (vs.map .value)).run k s) ((Call.ask c (vs.map .value)).run l s') := by
  have hlength : c.accepts (vs.map Argument.value).length = true := by rwa [List.length_map]
  rw [run_ask k s hlength, run_ask l s' hlength, Argument.map_given_value, Argument.map_given_value]
  exact h

/-- **Two sources stay related along a script** if they do along every call of it. -/
theorem Script.run_alike {t : Script}
    (h : ∀ c ∈ t.calls, ∀ s s', R s s' → Alike R (c.run k s) (c.run l s')) {s : σ} {s' : τ}
    (hs : R s s') : Alike R (t.run k s) (t.run l s') := by
  obtain ⟨calls, failure⟩ := t
  rw [Script.run, Script.run]
  refine (callsRun_alike h hs).bind fun _ _ _ hs => ?_
  cases failure with
  | some e => exact .error e
  | none => exact .ok hs

end Listing
