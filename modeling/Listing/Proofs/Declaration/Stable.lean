import Listing.Proofs.Declaration.Kept
import Listing.Proofs.Registry
import Mathlib.Data.List.Nodup

/-!
# Registries that are read again

A registry is itself a declaration: a map from names to finished operations. Read again, it is the same
registry, with its names in the same order (`Registry.ReadsAgain`). This is so for every kind of
declaration: `Declaration.registries_stable`.

What carries it is that every name is there once, and that a thing is put under its name as it is when it
comes again (`DeclarationKind.Stable`). Fields, filters and includes are always put as they are, whatever
they were made from. A sort attribute takes the name that it is put under, and keeps it from then on.
-/

namespace Listing

/-- Is the registry a map whose keys are texts, each there once, and is it the registry of that map? -/
def Registry.ReadsAgain {α : Type} (read : Value → Except Error (Registry α)) (toValue : α → Value)
    (r : Registry α) : Prop :=
  ∃ es : Entries, r.toMap toValue = .map es ∧ (∀ e ∈ es, ∃ name, e.1 = .text name) ∧
    (Entries.keys es).Nodup ∧ read (.map es) = .ok r

namespace DeclarationKind

variable {γ α : Type} {k : DeclarationKind γ α} {toValue : α → Value} {r : Registry α}

/-- Is every name there once, and is every thing put under its name as it is? -/
structure Stable (k : DeclarationKind γ α) (r : Registry α) : Prop where
  nodup : r.names.Nodup
  put : ∀ e ∈ r, ∀ s : Registry α, k.put s e.1 e.2 = s.insert e.1 e.2

theorem Stable.nil : k.Stable [] where
  nodup := List.nodup_nil
  put := nofun

theorem Stable.insert (h : k.Stable r) {name : String} {a : α}
    (ha : ∀ s : Registry α, k.put s name a = s.insert name a) : k.Stable (r.insert name a) where
  nodup := Registry.nodup_names_insert h.nodup name a
  put := fun e he => by
    rcases Registry.mem_insert he with rfl | he
    · exact ha
    · exact h.put e he

/-- Are things read from their values, is what is put under a name put there as it is from then on, and do
groups do nothing else than to put things? -/
structure Settles (k : DeclarationKind γ α) (toValue : α → Value) : Prop where
  finished : ∀ a, k.finished? (toValue a) = some a
  put : ∀ name a, ∃ b, (∀ r : Registry α, k.put r name a = r.insert name b) ∧
    ∀ r : Registry α, k.put r name b = r.insert name b
  putGroup : ∀ {r name v group r'}, k.putGroup r name v group = .ok r' →
    ∃ things : Registry α, r' = things.foldl (fun r e => k.put r e.1 e.2) r

theorem Settles.stable_put (h : k.Settles toValue) (hr : k.Stable r) (name : String) (a : α) :
    k.Stable (k.put r name a) := by
  obtain ⟨b, hput, hagain⟩ := h.put name a
  rw [hput]
  exact hr.insert hagain

theorem Settles.stable_puts (h : k.Settles toValue) (hr : k.Stable r) (things : Registry α) :
    k.Stable (things.foldl (fun r e => k.put r e.1 e.2) r) := by
  induction things generalizing r with
  | nil => exact hr
  | cons e things ih => exact ih (h.stable_put hr e.1 e.2)

theorem Settles.keeps (h : k.Settles toValue) :
    k.Keeps (fun _ => True) (fun _ => True) k.Stable where
  finished := fun _ _ => trivial
  ofFunction := fun _ _ => trivial
  ofText := fun _ _ => trivial
  nil := .nil
  put := fun hr _ => h.stable_put hr _ _
  putGroup := fun hr _ _ hgroup => by
    obtain ⟨things, rfl⟩ := h.putGroup hgroup
    exact h.stable_puts hr things

theorem Settles.addEntries_toMap (h : k.Settles toValue) (above : γ) {things : Registry α}
    (hput : ∀ e ∈ things, ∀ s : Registry α, k.put s e.1 e.2 = s.insert e.1 e.2) (s : Registry α) :
    k.addEntries above s (things.map fun e => (.text e.1, toValue e.2)) =
      .ok (s.insertAll things) := by
  induction things generalizing s with
  | nil => rfl
  | cons e things ih =>
    have hadd (group : Except Error (Registry α)) :
        k.add above s (.text e.1) (toValue e.2) group = .ok (s.insert e.1 e.2) := by
      rw [add, h.finished]
      exact congrArg Except.ok (hput e (List.mem_cons_self ..) s)
    rw [List.map_cons, addEntries, hadd]
    exact ih (fun e he => hput e (List.mem_cons_of_mem _ he)) _

/-- **The registry of a declaration is read as itself**, whatever the groups around it. -/
theorem Settles.readsAgain (h : k.Settles toValue) {above : γ} {v : Value}
    (hr : k.registry above v = .ok r) (around : γ) :
    r.ReadsAgain (k.registry around) toValue := by
  have hstable : k.Stable r := registry_keeps Value.inherited_true h.keeps above v trivial hr
  refine ⟨_, rfl, List.forall_mem_map.2 fun e _ => ⟨e.1, rfl⟩, ?nodup, ?again⟩
  case nodup =>
    have hkeys : Entries.keys (r.map fun e => (.text e.1, toValue e.2)) = r.names.map .text := by
      rw [Entries.keys, Registry.names, List.map_map, List.map_map]
      rfl
    rw [hkeys]
    exact List.Nodup.map (fun _ _ => Value.text.inj) hstable.nodup
  case again =>
    rw [registry, h.addEntries_toMap around hstable.put,
      Registry.insertAll_eq_append (r := []) hstable.nodup, List.nil_append]

end DeclarationKind

namespace Declaration

theorem fieldKind_settles : fieldKind.Settles Field.toValue where
  finished := Field.ofValue?_toValue
  put := fun _ a => ⟨a, fun _ => rfl, fun _ => rfl⟩
  putGroup := by
    intro r name v group r' h
    obtain ⟨g, -, h⟩ := bind_eq_ok_iff.1 h
    obtain rfl := Except.ok.inj h
    exact ⟨[(name, _)], rfl⟩

theorem filterKind_settles : filterKind.Settles Filter.toValue where
  finished := Filter.ofValue?_toValue
  put := fun _ a => ⟨a, fun _ => rfl, fun _ => rfl⟩
  putGroup := by
    intro r name v group r' h
    obtain ⟨attributes, -, h⟩ := bind_eq_ok_iff.1 h
    obtain ⟨f, -, h⟩ := bind_eq_ok_iff.1 h
    obtain rfl := Except.ok.inj h
    exact ⟨[(name, f)], rfl⟩

/-- The includes of a group are put one after the other, under their dotted names. -/
theorem inclusionKind_settles : inclusionKind.Settles Inclusion.toValue where
  finished := Inclusion.ofValue?_toValue
  put := fun _ a => ⟨a, fun _ => rfl, fun _ => rfl⟩
  putGroup := by
    intro r name v group r' h
    obtain ⟨g, -, h⟩ := bind_eq_ok_iff.1 h
    obtain rfl := Except.ok.inj h
    exact ⟨g.renamed (name ++ "." ++ ·), (Registry.insertAll_renamed r g _).symm⟩

/-- A sort attribute keeps the name that it was put under. -/
theorem named_named (name : String) (k : SortKey) : named name (named name k) = named name k := by
  have hname : (named name k).name.equal (.text name) = true := by
    unfold named
    split
    · assumption
    · exact Value.equal_text.2 rfl
  rw [named, if_pos hname]

theorem sortKind_settles : sortKind.Settles SortKey.toValue where
  finished := SortKey.ofValue?_toValue
  put := fun name a =>
    ⟨named name a, fun _ => rfl, fun r => congrArg (r.insert name) (named_named name a)⟩
  putGroup := by
    intro r name v group r' h
    obtain ⟨k, -, h⟩ := bind_eq_ok_iff.1 h
    obtain rfl := Except.ok.inj h
    exact ⟨[(name, k)], rfl⟩

/-- **A registry is read as itself.** Whatever was declared, in one of the four kinds of declaration: its
registry is a map with texts for keys, and the registry of this map is the same one, with its names in the
same order. -/
theorem registries_stable :
    (∀ v r, fields v = .ok r → r.ReadsAgain fields Field.toValue) ∧
    (∀ v r, filters v = .ok r → r.ReadsAgain filters Filter.toValue) ∧
    (∀ v r, inclusions v = .ok r → r.ReadsAgain inclusions Inclusion.toValue) ∧
    (∀ v r, sortKeys v = .ok r → r.ReadsAgain sortKeys SortKey.toValue) :=
  ⟨fun _ _ h => fieldKind_settles.readsAgain h (),
    fun _ _ h => filterKind_settles.readsAgain h (),
    fun _ _ h => inclusionKind_settles.readsAgain h "",
    fun _ _ h => sortKind_settles.readsAgain h ()⟩

/-- A name, an alias, a group, something that is written down whole or a function, and the name again. -/
def mixedDeclaration (entry : Value) : Value :=
  .list [.text "id", .map [(.text "title", .text "name"),
    (.text "people", .list [.text "first", .text "last"]), (.text "best", entry)], .text "id"]

theorem registries_stable_mixed :
    (∃ r, fields (mixedDeclaration (.function [] true)) = .ok r ∧
      r.names = ["id", "title", "people", "best"] ∧ r.ReadsAgain fields Field.toValue) ∧
    (∃ r, filters (mixedDeclaration (.function [] true)) = .ok r ∧
      r.names = ["id", "title", "people", "best"] ∧ r.ReadsAgain filters Filter.toValue) ∧
    (∃ r, inclusions (mixedDeclaration (.function [] true)) = .ok r ∧
      r.names = ["id", "title", "people.first", "people.last", "best"] ∧
        r.ReadsAgain inclusions Inclusion.toValue) ∧
    ∃ r, sortKeys (mixedDeclaration (SortKey.make (.text "score") .null .null).toValue) = .ok r ∧
      r.names = ["id", "title", "people", "best"] ∧ r.ReadsAgain sortKeys SortKey.toValue := by
  refine ⟨⟨_, rfl, rfl, ?fields⟩, ⟨_, rfl, rfl, ?filters⟩, ⟨_, rfl, rfl, ?inclusions⟩,
    ⟨_, rfl, rfl, ?sortKeys⟩⟩
  case fields => exact registries_stable.1 (mixedDeclaration (.function [] true)) _ rfl
  case filters => exact registries_stable.2.1 (mixedDeclaration (.function [] true)) _ rfl
  case inclusions => exact registries_stable.2.2.1 (mixedDeclaration (.function [] true)) _ rfl
  case sortKeys =>
    exact registries_stable.2.2.2
      (mixedDeclaration (SortKey.make (.text "score") .null .null).toValue) _ rfl

end Declaration

end Listing
