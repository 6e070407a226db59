import Listing.Proofs.Declaration.Fields
import Listing.Proofs.Request.Confinement
import Listing.Proofs.Source.Faults
import Listing.Proofs.Value.Entries

/-!
# Requests that are accepted

Which requests for fields are accepted is said without a plan: at every depth, what stands under
a position is the name of a field that is no group, and what stands under another key is accepted by
the group of that name (`Entries.Accepts`).
-/

namespace Listing

/-! ## What is accepted -/

/-- The field that is declared under a name. -/
def Entries.field? (fields : Entries) (name : Value) : Option Field :=
  (Entries.get? fields name).bind Field.ofValue?

/-- The keys and values of a request for fields; a text lists names. -/
def Value.requested? : Value → Option (List (Value × Value))
  | .text names => some (Value.positioned 0 ((commaList names).map .text))
  | raw => raw.pairs?

mutual

/-- Is a request accepted where these fields are declared? -/
inductive Entries.Accepts : Entries → Value → Prop
  | mk {fields : Entries} {raw : Value} {requested : List (Value × Value)} :
    raw.requested? = some requested → (∀ r ∈ requested, Entries.AcceptsUnder fields r.1 r.2) →
    Entries.Accepts fields raw

/-- Is a value accepted under a key? -/
inductive Entries.AcceptsUnder : Entries → Value → Value → Prop
  /-- Under a position it has to name a field that is no group. -/
  | field {fields : Entries} {key v : Value} {name : String} {f : Field} :
    key.isPosition = true → v.stripped = .text name → fields.field? (.text name) = some f →
    f.isGroup = false → Entries.AcceptsUnder fields key v
  /-- Any other key has to name a group, which accepts it. -/
  | group {fields inner : Entries} {key name v : Value} :
    key.isPosition = false → fields.field? key = some (.group name (.map inner)) →
    Entries.Accepts inner v → Entries.AcceptsUnder fields key v

end

/-- An item that is no map stands under its position. -/
theorem Value.positioned_cons {v : Value} (hv : ∀ es, v ≠ .map es) (i : Nat) (vs : List Value) :
    positioned i (v :: vs) = (.int i, v) :: positioned (i + 1) vs := by
  cases v with
  | map es => exact absurd rfl (hv es)
  | _ => rfl

theorem Value.isPosition_int (n : Int) : (Value.int n).isPosition = true := rfl

namespace Entries

variable {fields : Entries} {raw key v : Value}

theorem accepts_iff {requested : List (Value × Value)} (h : raw.requested? = some requested) :
    fields.Accepts raw ↔ ∀ r ∈ requested, fields.AcceptsUnder r.1 r.2 := by
  constructor
  · rintro ⟨h', hall⟩
    obtain rfl := Option.some.inj (h.symm.trans h')
    exact hall
  · exact .mk h

theorem not_accepts (h : raw.requested? = none) : ¬ fields.Accepts raw := by
  rintro ⟨h', -⟩
  cases h.symm.trans h'

/-- Does the value name a field that is no group? -/
def NamesField (fields : Entries) (v : Value) : Prop :=
  ∃ name f, v.stripped = .text name ∧ fields.field? (.text name) = some f ∧ f.isGroup = false

theorem acceptsUnder_position (h : key.isPosition = true) :
    fields.AcceptsUnder key v ↔ fields.NamesField v := by
  constructor
  · intro ha
    cases ha with
    | field _ hv hf hgroup => exact ⟨_, _, hv, hf, hgroup⟩
    | group hkey => cases h.symm.trans hkey
  · rintro ⟨name, f, hv, hf, hgroup⟩
    exact .field h hv hf hgroup

/-- A list of names is accepted if every name is. -/
theorem acceptsUnder_names (i : Nat) (names : List String) :
    (∀ r ∈ Value.positioned i (names.map .text), fields.AcceptsUnder r.1 r.2) ↔
      ∀ name ∈ names, fields.NamesField (.text name) := by
  induction names generalizing i with
  | nil => simp [Value.positioned]
  | cons name names ih =>
    rw [List.map_cons, Value.positioned_cons (by simp), List.forall_mem_cons, List.forall_mem_cons, ih,
      acceptsUnder_position (Value.isPosition_int i)]

theorem acceptsUnder_group {name : Value} {inner : Entries} (h : key.isPosition = false)
    (hgroup : fields.field? key = some (.group name (.map inner))) :
    fields.AcceptsUnder key v ↔ inner.Accepts v := by
  constructor
  · intro ha
    cases ha with
    | field hkey => cases h.symm.trans hkey
    | group _ hgroup' ha =>
      obtain ⟨-, h⟩ := Field.group.inj (Option.some.inj (hgroup.symm.trans hgroup'))
      obtain rfl := Value.map.inj h
      exact ha
  · exact .group h hgroup

theorem acceptsUnder_congr {fields' : Entries} (hkey : fields.field? key = fields'.field? key)
    (hv : fields.NamesField v ↔ fields'.NamesField v) :
    fields.AcceptsUnder key v ↔ fields'.AcceptsUnder key v := by
  cases hposition : key.isPosition with
  | true => rw [acceptsUnder_position hposition, acceptsUnder_position hposition, hv]
  | false =>
    have himp : ∀ {es fs : Entries}, es.field? key = fs.field? key → es.AcceptsUnder key v →
        fs.AcceptsUnder key v := by
      intro es fs hsame ha
      cases ha with
      | field hkey => cases hposition.symm.trans hkey
      | group _ hgroup ha => exact .group hposition (hsame ▸ hgroup) ha
    exact ⟨himp hkey, himp hkey.symm⟩

/-- Groups are no fields to be named. -/
theorem not_namesField (h : ∀ e ∈ fields, ∃ name inner, e.2 = (Field.group name inner).toValue) :
    ¬ fields.NamesField v := by
  rintro ⟨name, f, -, hf, hgroup⟩
  obtain ⟨entry, hentry, hf⟩ := Option.bind_eq_some_iff.1 hf
  obtain ⟨l, hmem, -⟩ := mem_of_get?_eq_some hentry
  obtain ⟨name', inner, hvalue⟩ := h _ hmem
  obtain rfl : entry = (Field.group name' inner).toValue := hvalue
  obtain rfl := Option.some.inj hf
  cases hgroup

theorem not_acceptsUnder (h : key.isPosition = false)
    (hgroup : ∀ name inner, fields.field? key ≠ some (.group name inner)) :
    ¬ fields.AcceptsUnder key v := by
  intro ha
  cases ha with
  | field hkey => cases h.symm.trans hkey
  | group _ hgroup' => exact hgroup _ _ hgroup'

end Entries

/-! ## What can be written -/

theorem Value.hasText_stripped {v : Value} (h : v.hasText = true) : v.stripped.hasText = true := by
  cases v <;> exact h

theorem Value.allHaveText_iff {vs : List Value} :
    Value.allHaveText vs = true ↔ ∀ v ∈ vs, v.hasText = true := by
  induction vs with
  | nil => simp [Value.allHaveText]
  | cons v vs ih => simp [Value.allHaveText, ih]

theorem Value.entriesHaveText_iff {es : Entries} :
    Value.entriesHaveText es = true ↔ ∀ e ∈ es, e.1.hasText = true ∧ e.2.hasText = true := by
  induction es with
  | nil => simp [Value.entriesHaveText]
  | cons e es ih =>
    obtain ⟨k, v⟩ := e
    simp [Value.entriesHaveText, ih]

/-- Can the value and its key, if that is no position, be written? -/
def Value.WritableUnder (key v : Value) : Prop :=
  v.hasText = true ∧ (key.isPosition = false → key.hasText = true)

theorem Value.writableUnder_of_hasText {key v : Value}
    (h : key.hasText = true ∧ v.hasText = true) : key.WritableUnder v :=
  ⟨h.2, fun _ => h.1⟩

theorem Value.writableUnder_of_mem_positioned {vs : List Value}
    (h : Value.allHaveText vs = true) (i : Nat) {r : Value × Value} (hr : r ∈ positioned i vs) :
    r.1.WritableUnder r.2 := by
  induction vs generalizing i with
  | nil => cases hr
  | cons v vs ih =>
    rw [allHaveText, Bool.and_eq_true] at h
    by_cases hv : ∃ es, v = .map es
    · obtain ⟨es, rfl⟩ := hv
      rw [positioned, List.mem_append] at hr
      rcases hr with hr | hr
      · exact writableUnder_of_hasText (entriesHaveText_iff.1 h.1 r hr)
      · exact ih h.2 i hr
    · rw [positioned_cons (not_exists.1 hv), List.mem_cons] at hr
      rcases hr with rfl | hr
      · exact ⟨h.1, nofun⟩
      · exact ih h.2 (i + 1) hr

/-- What can be written has values that can be. -/
theorem Value.writableUnder_of_requested {raw : Value} (h : raw.hasText = true)
    {requested : List (Value × Value)} (hraw : raw.requested? = some requested) :
    ∀ r ∈ requested, r.1.WritableUnder r.2 := by
  intro r hr
  cases raw with
  | text s =>
    obtain rfl := Option.some.inj hraw
    exact writableUnder_of_mem_positioned (allHaveText_iff.2 (by simp [hasText])) 0 hr
  | map es =>
    obtain rfl := Option.some.inj hraw
    exact writableUnder_of_hasText (entriesHaveText_iff.1 h r hr)
  | list vs | tuple vs | set vs =>
    obtain rfl := Option.some.inj hraw
    exact writableUnder_of_mem_positioned h 0 hr
  | _ => cases hraw

/-! ## Plans -/

/-- What planning comes to: something fit, if what is asked for is accepted, and otherwise a fault,
which can be written if what is asked for can be. -/
inductive Planned {α : Type} (Fit : α → Prop) (accepted writable : Prop) : Except Error α → Prop
  | plan {a : α} : accepted → Fit a → Planned Fit accepted writable (.ok a)
  | refused {fault : QueryFault} : ¬ accepted →
    (writable → Value.allHaveText fault.values = true) →
    Planned Fit accepted writable (.error (.query fault))

namespace Planned

variable {α β γ : Type} {F : α → Prop} {G : β → Prop} {H : γ → Prop} {P P' Q W W' : Prop}
  {x : Except Error α} {y : Except Error β}

theorem congr (h : Planned F P W x) (hP : P ↔ P') (hW : W' → W) : Planned F P' W' x := by
  cases h with
  | plan ha hfit => exact .plan (hP.1 ha) hfit
  | refused ha hwrite => exact .refused (fun h => ha (hP.2 h)) fun h => hwrite (hW h)

theorem map (h : Planned F P W x) {f : α → β} (hfit : ∀ a, F a → G (f a)) :
    Planned G P W (do return f (← x)) := by
  cases h with
  | plan ha ha' => exact .plan ha (hfit _ ha')
  | refused ha hwrite => exact .refused ha hwrite

/-- Planning one thing after the other. -/
theorem bind (hx : Planned F P W x) {f : α → Except Error β}
    (hf : ∀ a, F a → Planned G Q W' (f a)) : Planned G (P ∧ Q) (W ∧ W') (x >>= f) := by
  cases hx with
  | refused ha hwrite => exact .refused (fun h => ha h.1) fun h => hwrite h.1
  | plan ha hfa =>
    exact (hf _ hfa).congr ⟨fun hb => ⟨ha, hb⟩, fun h => h.2⟩ fun h => h.2

theorem both (hx : Planned F P W x) (hy : Planned G Q W' y) {f : α → β → γ}
    (hfit : ∀ a b, F a → G b → H (f a b)) :
    Planned H (P ∧ Q) (W ∧ W') (do
      let a ← x
      let b ← y
      return f a b) :=
  hx.bind fun a ha => hy.map fun b hb => hfit a b ha hb

/-- Things are planned one by one. -/
theorem mapM {P W : α → Prop} {f : α → Except Error β} {as : List α}
    (h : ∀ a ∈ as, Planned G (P a) (W a) (f a)) :
    Planned (fun bs => ∀ b ∈ bs, G b) (∀ a ∈ as, P a) (∀ a ∈ as, W a) (as.mapM f) := by
  induction as with
  | nil => exact .plan (by simp) (by simp)
  | cons a as ih =>
    rw [List.mapM_cons]
    refine ((h a (List.mem_cons_self ..)).both (ih fun a ha => h a (List.mem_cons_of_mem _ ha))
      fun b bs hb hbs => List.forall_mem_cons.2 ⟨hb, hbs⟩).congr ?_ ?_
    · rw [List.forall_mem_cons]
    · rw [List.forall_mem_cons]
      exact id

theorem isOk_iff (h : Planned F P W x) : x.isOk = true ↔ P := by
  cases h with
  | plan ha => exact ⟨fun _ => ha, fun _ => rfl⟩
  | refused ha => exact ⟨nofun, fun h => absurd h ha⟩

/-- A fault is the only error, and it is reported as it is if it can be written. -/
theorem eq_query (h : Planned F P W x) {e : Error} (he : x = .error e) :
    ∃ fault, e = .query fault ∧ (W → e.reported = e) := by
  cases h with
  | plan => cases he
  | @refused fault _ hwrite =>
    obtain rfl := Except.error.inj he
    exact ⟨fault, rfl, fun h => if_pos (hwrite h)⟩

end Planned

/-! ## Fields -/

/-- Fields under their names, as entries. -/
def Registry.entries (r : Registry Field) : Entries := r.map fun e => (.text e.1, e.2.toValue)

/-- Are the entries fields that have a property, under their names? -/
structure Entries.AreFields (D : Field → Prop) (fields : Entries) : Prop where
  names : ∀ e ∈ fields, ∃ s, e.1 = .text s
  fields : ∀ e ∈ fields, ∃ f : Field, e.2 = f.toValue ∧ D f

/-- Have all steps of a plan a property? -/
def AllSteps (F : FieldStep → Prop) (steps : List FieldStep) : Prop := ∀ step ∈ steps, F step

namespace AllSteps

variable {F : FieldStep → Prop} {step : FieldStep} {steps rest : List FieldStep}

theorem nil : AllSteps F [] := fun _ hstep => absurd hstep List.not_mem_nil

theorem cons (h : F step) (hs : AllSteps F steps) : AllSteps F (step :: steps) :=
  List.forall_mem_cons.2 ⟨h, hs⟩

theorem append (h : AllSteps F steps) (hr : AllSteps F rest) : AllSteps F (steps ++ rest) :=
  List.forall_mem_append.2 ⟨h, hr⟩

end AllSteps

/-- Have plans for fields with the property `D` steps with the property `F`? -/
structure FieldStep.Keeps (D : Field → Prop) (F : FieldStep → Prop) : Prop where
  inside : ∀ {name inner}, D (.group name inner) →
    ∃ es, inner = .map es ∧ Entries.AreFields D es
  field : ∀ {f}, D f → f.isGroup = false → ∀ name, F (.field name f.toValue)
  relation : ∀ {name inner steps}, D (.group name inner) → AllSteps F steps →
    F (.relation name steps)

namespace Entries.AreFields

variable {D : Field → Prop}

theorem of_registry {r : Registry Field} (h : r.All D) : r.entries.AreFields D where
  names := List.forall_mem_map.2 fun p _ => ⟨p.1, rfl⟩
  fields := List.forall_mem_map.2 fun p hp => ⟨p.2, rfl, h p hp⟩

/-- What is found is a field, under a text. -/
theorem get? {fields : Entries} (h : fields.AreFields D) {key entry : Value}
    (hentry : Entries.get? fields key = some entry) :
    ∃ s f, key = .text s ∧ entry = Field.toValue f ∧ D f ∧ fields.field? key = some f := by
  obtain ⟨l, hmem, hkey⟩ := mem_of_get?_eq_some hentry
  obtain ⟨s, rfl⟩ : ∃ s, l = .text s := h.names _ hmem
  obtain rfl : key = .text s := Value.text_equal.1 hkey
  obtain ⟨f, rfl, hf⟩ := h.fields _ hmem
  exact ⟨s, f, rfl, rfl, hf, by rw [field?, hentry, Option.bind_some, Field.ofValue?_toValue]⟩

end Entries.AreFields

/-- A plain group holds plain fields. -/
theorem Field.IsPlain.of_group {name inner : Value} (h : (Field.group name inner).IsPlain) :
    ∃ es, inner = .map es ∧ Entries.AreFields Field.IsPlain es := by
  unfold IsPlain Field.toValue at h
  cases h with
  | @group _ es hnames hfields =>
    refine ⟨es, rfl, hnames, fun e he => ?_⟩
    have hfield := hfields e he
    obtain ⟨f, hf⟩ : ∃ f : Field, e.2 = f.toValue := by
      generalize e.2 = v at hfield ⊢
      cases hfield <;> exact ⟨_, rfl⟩
    exact ⟨f, hf, show f.toValue.IsField from hf ▸ hfield⟩

namespace Selector

variable {σ : Type} {k : Capabilities σ} {D : Field → Prop} {F : FieldStep → Prop}
  {fields : Entries} {path : List String}

theorem location_texts (path : List String) :
    location (path.map .text) = .ok (joined "->" path) := by
  have htexts : pathTexts (path.map .text) = .ok path := by
    unfold pathTexts
    rw [mapM_eq_ok_iff, List.forall₂_map_left_iff]
    exact List.forall₂_same.2 fun s _ => rfl
  rw [location, htexts]
  rfl

theorem fieldStep_planned (hF : FieldStep.Keeps D F) (hfields : fields.AreFields D)
    (path : List String) (v : Value) :
    Planned F (fields.NamesField v) (v.hasText = true)
      (fieldStep (.map fields) (path.map .text) v) := by
  have refused {accepted : Prop} (h : ¬ accepted) : Planned F accepted (v.hasText = true)
      (.error (.query (.unsupportedField v.stripped (joined "->" path)))) :=
    .refused h fun hv => by simp [QueryFault.values, Value.allHaveText, Value.hasText_stripped hv]
  unfold fieldStep
  simp only [location_texts, ok_bind, declared]
  split
  · next name hname =>
    cases hentry : Entries.get? fields (.text name) with
    | none =>
      refine refused ?_
      rintro ⟨name', f, hname', hf, -⟩
      obtain rfl := Value.text.inj (hname.symm.trans hname')
      rw [Entries.field?, hentry] at hf
      cases hf
    | some entry =>
      obtain ⟨-, f, -, rfl, hD, hf⟩ := hfields.get? hentry
      have hnames : fields.NamesField v ↔ f.isGroup = false := by
        constructor
        · rintro ⟨name', f', hname', hf', hgroup⟩
          obtain rfl := Value.text.inj (hname.symm.trans hname')
          obtain rfl := Option.some.inj (hf.symm.trans hf')
          exact hgroup
        · exact fun hgroup => ⟨name, f, hname, hf, hgroup⟩
      cases f with
      | group => exact refused (by simp [hnames, Field.isGroup])
      | column | aggregate | callback => exact .plan (hnames.2 rfl) (hF.field hD rfl name)
  · next hname =>
    refine refused ?_
    rintro ⟨name, f, hname', -⟩
    exact hname _ hname'

/-- A key names a group that is declared, or it is refused. -/
theorem group_cases (hF : FieldStep.Keeps D F) (hfields : fields.AreFields D) (path : List String)
    (key : Value) :
    (∃ s name, ∃ inner : Entries, key = .text s ∧ D (.group name (.map inner)) ∧
      fields.field? key = some (.group name (.map inner)) ∧ inner.AreFields D ∧
      group (.map fields) (path.map .text) key = .ok (name, .map inner)) ∨
    (∀ name inner, fields.field? key ≠ some (.group name inner)) ∧
      group (.map fields) (path.map .text) key =
        .error (.query (.unsupportedInclude key (joined "->" path))) := by
  unfold group
  rw [location_texts, declared]
  cases hentry : Entries.get? fields key with
  | none => exact .inr ⟨by simp [Entries.field?, hentry], rfl⟩
  | some entry =>
    obtain ⟨s, f, rfl, rfl, hD, hf⟩ := hfields.get? hentry
    cases f with
    | group name inner =>
      obtain ⟨es, rfl, hes⟩ := hF.inside hD
      exact .inl ⟨s, name, es, rfl, hD, hf, hes, rfl⟩
    | column | aggregate | callback => exact .inr ⟨by simp [hf], rfl⟩

theorem names_planned (hF : FieldStep.Keeps D F) (hfields : fields.AreFields D)
    (path : List String) (names : List String) :
    Planned (AllSteps F)
      (∀ r ∈ Value.positioned 0 (names.map .text), fields.AcceptsUnder r.1 r.2) True
      (names.mapM fun name => fieldStep (.map fields) (path.map .text) (.text name)) :=
  (Planned.mapM fun name _ => fieldStep_planned hF hfields path (.text name)).congr
    (Entries.acceptsUnder_names 0 names).symm fun _ _ _ => rfl

mutual

/-- **A value under a group is planned exactly if the fields of the group accept it.** -/
theorem planValue_planned (hF : FieldStep.Keeps D F) {fields : Entries} (hfields : fields.AreFields D)
    (path : List String) : (v : Value) →
    Planned (AllSteps F) (fields.Accepts v) (v.hasText = true)
      (planValue (.map fields) (path.map .text) v)
  | .text s => by
    rw [planValue, location_texts]
    exact (names_planned hF hfields path (commaList s)).congr
      (Entries.accepts_iff rfl).symm fun _ => trivial
  | .map es => by
    rw [planValue, location_texts]
    exact (planEntries_planned hF hfields path es).congr (Entries.accepts_iff rfl).symm
      fun h r hr => Value.writableUnder_of_hasText (Value.entriesHaveText_iff.1 h r hr)
  | .list vs => by
    rw [planValue, location_texts]
    exact (planItems_planned hF hfields path 0 vs).congr (Entries.accepts_iff rfl).symm fun h => h
  | .tuple vs => by
    rw [planValue, location_texts]
    exact (planItems_planned hF hfields path 0 vs).congr (Entries.accepts_iff rfl).symm fun h => h
  | .set vs => by
    rw [planValue, location_texts]
    exact (planItems_planned hF hfields path 0 vs).congr (Entries.accepts_iff rfl).symm fun h => h
  | .null | .bool _ | .int _ | .binary _ | .decimal _ | .bytes _ | .moment _ | .date _
  | .record _ | .choice _ | .request _ _ | .cursor _ _ | .finished _ _ | .function _ _
  | .object _ => by
    rw [planValue, location_texts]
    · exact .refused (Entries.not_accepts rfl) fun _ => rfl
    all_goals exact nofun
termination_by v => sizeOf v

theorem planEntries_planned (hF : FieldStep.Keeps D F) {fields : Entries}
    (hfields : fields.AreFields D) (path : List String) : (es : List (Value × Value)) →
    Planned (AllSteps F) (∀ r ∈ es, fields.AcceptsUnder r.1 r.2)
      (∀ r ∈ es, Value.WritableUnder r.1 r.2) (planEntries (.map fields) (path.map .text) es)
  | [] => .plan (by simp) .nil
  | (key, v) :: es => by
    have hrest := planEntries_planned hF hfields path es
    rw [planEntries]
    cases hkey : key.isPosition with
    | true =>
      refine ((fieldStep_planned hF hfields path v).both hrest fun _ _ => AllSteps.cons).congr
        ?_ fun hw => ?_
      · rw [List.forall_mem_cons, Entries.acceptsUnder_position hkey]
      · exact ⟨(hw _ (List.mem_cons_self ..)).1, fun r hr => hw r (List.mem_cons_of_mem _ hr)⟩
    | false =>
      rcases group_cases hF hfields path key with
        ⟨s, name, inner, rfl, hD, hgroup, hinner, hplan⟩ | ⟨hgroup, hplan⟩
      · have hvalue := planValue_planned hF hinner (path ++ [s]) v
        rw [List.map_append, List.map_singleton] at hvalue
        have hstep : Planned F (inner.Accepts v)
            (v.hasText = true) (do
              return FieldStep.relation name
                (← planValue (.map inner) (path.map .text ++ [.text s]) v)) :=
          hvalue.map fun steps hsteps => hF.relation hD hsteps
        have hboth := hstep.both hrest (H := AllSteps F) fun _ _ => AllSteps.cons
        rw [bind_assoc] at hboth
        rw [if_neg Bool.false_ne_true, hplan, ok_bind]
        refine hboth.congr ?_ fun hw => ?_
        · rw [List.forall_mem_cons, Entries.acceptsUnder_group hkey hgroup]
        · exact ⟨(hw _ (List.mem_cons_self ..)).1, fun r hr => hw r (List.mem_cons_of_mem _ hr)⟩
      · rw [if_neg Bool.false_ne_true, hplan]
        refine .refused (fun h => ?_) fun hw => ?_
        · exact Entries.not_acceptsUnder hkey hgroup (h _ (List.mem_cons_self ..))
        · simp [QueryFault.values, Value.allHaveText,
            (hw _ (List.mem_cons_self ..)).2 hkey]
termination_by es => sizeOf es

theorem planItems_planned (hF : FieldStep.Keeps D F) {fields : Entries}
    (hfields : fields.AreFields D) (path : List String) (i : Nat) : (vs : List Value) →
    Planned (AllSteps F) (∀ r ∈ Value.positioned i vs, fields.AcceptsUnder r.1 r.2)
      (Value.allHaveText vs = true) (planItems (.map fields) (path.map .text) i vs)
  | [] => .plan (by simp [Value.positioned]) .nil
  | v :: vs => by
    rw [Value.allHaveText, Bool.and_eq_true]
    rcases planItems_cons (.map fields) (path.map .text) i v vs with ⟨es, rfl, hplan⟩ | ⟨hv, hplan⟩
    · rw [hplan]
      refine ((planEntries_planned hF hfields path es).both (planItems_planned hF hfields path i vs)
        fun _ _ => AllSteps.append).congr ?_ fun hw => ?_
      · rw [Value.positioned, List.forall_mem_append]
      · exact ⟨fun r hr => Value.writableUnder_of_hasText (Value.entriesHaveText_iff.1 hw.1 r hr),
          hw.2⟩
    · rw [hplan]
      refine ((fieldStep_planned hF hfields path v).both
        (planItems_planned hF hfields path (i + 1) vs) fun _ _ => AllSteps.cons).congr ?_ id
      rw [Value.positioned_cons hv, List.forall_mem_cons,
        Entries.acceptsUnder_position (Value.isPosition_int i)]
termination_by vs => sizeOf vs

end

end Selector

end Listing
