import Listing.Proofs.Declaration.Codeless

/-!
# Fields under their names

A field that runs no callback is a column, an aggregate, or a group that holds such fields under
their names: `Value.IsField`. The registry of a declaration by names, such fields and collections of
these (`Value.DeclaresFields`) has nothing else in it: `Declaration.fields_isPlain`.
-/

namespace Listing

/-- Is the value a field that runs no callback? A group holds such fields under their names. -/
inductive Value.IsField : Value → Prop
  | column (name : Value) : IsField (Field.column name).toValue
  | aggregate (relation column function : Value) :
    IsField (Field.aggregate relation column function).toValue
  | group (name : Value) {es : Entries} : (∀ e ∈ es, ∃ s, e.1 = .text s) →
    (∀ e ∈ es, IsField e.2) → IsField (Field.group name (.map es)).toValue

/-- Does the value declare fields without code? Such declarations are names, fields that are written
down whole, and collections of declarations. -/
inductive Value.DeclaresFields : Value → Prop
  | name (s : String) : DeclaresFields (.text s)
  | field {v : Value} : v.IsField → DeclaresFields v
  | list {vs : List Value} : (∀ v ∈ vs, DeclaresFields v) → DeclaresFields (.list vs)
  | tuple {vs : List Value} : (∀ v ∈ vs, DeclaresFields v) → DeclaresFields (.tuple vs)
  | set {vs : List Value} : (∀ v ∈ vs, DeclaresFields v) → DeclaresFields (.set vs)
  | map {es : Entries} : (∀ e ∈ es, DeclaresFields e.2) → DeclaresFields (.map es)

theorem Value.declaresFields_inherited : Value.Inherited Value.DeclaresFields where
  map := fun h => by
    cases h with
    | map h => exact h
    | field h => cases h
  list := fun h => by
    cases h with
    | list h => exact h
    | field h => cases h
  tuple := fun h => by
    cases h with
    | tuple h => exact h
    | field h => cases h
  set := fun h => by
    cases h with
    | set h => exact h
    | field h => cases h

/-- Is the field a column, an aggregate or a group of such fields? -/
def Field.IsPlain (f : Field) : Prop := f.toValue.IsField

namespace Declaration

theorem fieldKind_keeps_isPlain :
    fieldKind.Keeps Value.DeclaresFields Field.IsPlain (Registry.All Field.IsPlain) where
  finished := by
    intro v f hv h
    rw [Field.IsPlain, Field.toValue_of_ofValue? h]
    cases hv with
    | field hv => exact hv
    | _ => cases h
  ofFunction := fun h _ => by
    cases h with
    | field h => cases h
  ofText := fun _ s => .column (.text s)
  nil := .nil
  put := fun hr ha => hr.insert ha
  putGroup := by
    intro r name v group r' hr _ hgroup h
    obtain ⟨g, hg, h⟩ := bind_eq_ok_iff.1 h
    obtain rfl := Except.ok.inj h
    refine hr.insert (.group _ ?names ?fields)
    case names => exact List.forall_mem_map.2 fun p _ => ⟨p.1, rfl⟩
    case fields => exact List.forall_mem_map.2 fun p hp => hgroup g hg p hp

/-- **What is declared without code is a column, an aggregate or a group of such fields.** -/
theorem fields_isPlain {v : Value} (hv : v.DeclaresFields) {r : Registry Field}
    (h : fields v = .ok r) : r.All Field.IsPlain :=
  DeclarationKind.registry_keeps Value.declaresFields_inherited fieldKind_keeps_isPlain _ v hv h

end Declaration

end Listing
