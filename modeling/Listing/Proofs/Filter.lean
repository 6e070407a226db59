import Listing.Filter
import Listing.Proofs.Source.Faults

/-!
# Calls of filters

On an attribute a filter makes one call, which compares it or applies a scope (`Filter.MakesOn`). A filter
with a target makes that call on the rows themselves, or on the related rows that the target points to
(`Filter.targetScript_all`).
-/

namespace Listing

namespace Filter

variable {f : Filter} {target name value v : Value}

/-- Is it a call that the filter makes on a target? -/
inductive MakesOn (target : Value) : Filter → Call → Prop
  | exact (own : Value) {v : Value} : v.isScalar = true →
      MakesOn target (.exact own) (.compare target (.text "=") v)
  | exactly (own : Value) (vs : List Value) : MakesOn target (.exact own) (.member target vs)
  | member (own : Value) (vs : List Value) : MakesOn target (.member own) (.member target vs)
  | compare (own operator : Value) {v : Value} : v.isScalar = true →
      MakesOn target (.compare own operator) (.compare target operator v)
  | like (own escape operator : Value) (pattern : String) :
      MakesOn target (.like own escape operator) (.like target (.text pattern) operator)
  | scope (own argument : Value) : MakesOn target (.scope own) (.scope target argument)

theorem isScalar_of_scalar (h : scalar name value = .ok v) : v.isScalar = true := by
  unfold scalar at h
  split at h
  · obtain rfl := Except.ok.inj h
    assumption
  · cases h

/-- **A filter makes one of these calls**, if it accepts the value. -/
theorem makesOn_of_callOn {c : Call} (h : f.callOn target name value = .ok c) : MakesOn target f c := by
  cases f with
  | exact own =>
    simp only [callOn] at h
    split at h <;> obtain ⟨v, hv, h⟩ := bind_eq_ok_iff.1 h <;> obtain rfl := Except.ok.inj h
    case h_4 => exact .exact own (isScalar_of_scalar hv)
    all_goals exact .exactly own v
  | member own =>
    obtain ⟨vs, -, h⟩ := bind_eq_ok_iff.1 h
    obtain ⟨ws, -, h⟩ := bind_eq_ok_iff.1 h
    obtain rfl := Except.ok.inj h
    exact .member own ws
  | compare own operator =>
    obtain ⟨v, hv, h⟩ := bind_eq_ok_iff.1 h
    obtain rfl := Except.ok.inj h
    exact .compare own operator (isScalar_of_scalar hv)
  | like own escape operator =>
    obtain ⟨v, -, h⟩ := bind_eq_ok_iff.1 h
    obtain rfl := Except.ok.inj h
    exact .like own escape operator _
  | scope own =>
    obtain rfl := Except.ok.inj h
    exact .scope own value
  | search _ | trashed | callback _ => cases h

/-- The script of a filter on an attribute runs its call. -/
theorem run_scriptOn {σ : Type} (k : Capabilities σ) (s : σ) (f : Filter) (target name value : Value) :
    (scriptOn f target name value).run k s =
      f.callOn target name value >>= fun c => c.run k s := by
  rw [scriptOn]
  cases f.callOn target name value with
  | error e => rfl
  | ok c => exact Script.run_one k s c

/-- A filter with a target makes its own calls only, on the rows themselves or on related ones. -/
theorem targetScript_all {Q : Call → Prop} (relations : Bool)
    (hhas : ∀ relation (t : Script), t.All Q → Q (.has relation t))
    (h : ∀ t c, MakesOn t f c → Q c) : (targetScript relations f target name value).All Q := by
  have hon : ∀ t, (scriptOn f t name value).All Q := by
    intro t
    refine .ofExcept fun s hs => ?_
    obtain ⟨call, hcall, rfl⟩ := map_eq_ok_iff.1 hs
    exact .one (h t call (makesOn_of_callOn hcall))
  unfold targetScript
  split
  · exact .fail _
  · exact hon _
  · exact .one (hhas _ _ (hon _))

end Filter

end Listing
