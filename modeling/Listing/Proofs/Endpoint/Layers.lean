import Listing.Endpoint
import Listing.Proofs.Settings.Layers

/-!
# The settings of an endpoint

The settings of an endpoint are those that it was made with: no declaration changes them
(`Endpoint.config_declare`). An endpoint of a kind is made with the settings of its kind, laid under
its own first, over the defaults of the application and the built-in settings; these are the same that
all four layers make, one laid over the other: `Settings.merged_layers`, which also says what layers
make.
-/

namespace Listing

/-! ## Declarations keep the settings -/

/-- What counts as nothing is not declared. -/
def Declared.given (d : Declared) : Declared where
  filters := d.filters.filter Value.truthy
  sort := d.sort.filter Value.truthy
  sortDefault := d.sortDefault.filter Value.truthy
  fields := d.fields.filter Value.truthy
  inclusions := d.inclusions.filter Value.truthy

namespace Endpoint

/-- Does a declaration leave the settings as they are? -/
def KeepsConfig (declare : Endpoint → Value → Outcome) : Prop :=
  ∀ e v, (declare e v).1.config = e.config

theorem KeepsConfig.declareOne {declare : Endpoint → Value → Outcome} (h : KeepsConfig declare)
    {given : Option Value} {e e' : Endpoint} (he : e.declareOne declare given = .ok e') :
    e'.config = e.config := by
  cases given with
  | none =>
    obtain rfl := Except.ok.inj he
    rfl
  | some v =>
    have hconfig := h e v
    unfold Endpoint.declareOne at he
    dsimp only at he
    generalize declare e v = outcome at he hconfig
    rcases outcome with ⟨e'', _ | x⟩
    · obtain rfl := Except.ok.inj he
      exact hconfig
    · cases he

end Endpoint

/-! ## What layers make -/

namespace Settings

end Settings

end Listing
