import Listing.Declaration
import Listing.Proofs.Outcome

/-!
# What every registry of a kind has

A registry is made by putting things into it one after the other, and a group puts the things of its
own registry. So whatever the empty registry has and each of these steps keeps, the registry of every
declaration has: `DeclarationKind.registry_keeps`. What is known of a declaration is passed on to what
stands in it (`Value.Inherited`), so that the steps may use it.
-/

namespace Listing

/-- Does a property of declarations pass on to what stands in them? -/
structure Value.Inherited (D : Value → Prop) : Prop where
  map : ∀ {es : Entries}, D (.map es) → ∀ e ∈ es, D e.2
  list : ∀ {vs}, D (.list vs) → ∀ v ∈ vs, D v
  tuple : ∀ {vs}, D (.tuple vs) → ∀ v ∈ vs, D v
  set : ∀ {vs}, D (.set vs) → ∀ v ∈ vs, D v

theorem Value.inherited_true : Value.Inherited fun _ => True where
  map := fun _ _ _ => trivial
  list := fun _ _ _ => trivial
  tuple := fun _ _ _ => trivial
  set := fun _ _ _ => trivial

namespace DeclarationKind

variable {γ α : Type} {k : DeclarationKind γ α} {D : Value → Prop} {P : α → Prop}
  {I : Registry α → Prop}

/-- Does every way to make a thing from declarations of some kind give it a property, and does what is
put into a registry keep a property of registries? -/
structure Keeps (k : DeclarationKind γ α) (D : Value → Prop) (P : α → Prop)
    (I : Registry α → Prop) : Prop where
  finished : ∀ {v a}, D v → k.finished? v = some a → P a
  ofFunction : ∀ {calls returnsNothing wrap}, D (.function calls returnsNothing) →
    k.ofFunction = some wrap → P (wrap (.function calls returnsNothing))
  ofText : ∀ above s, P (k.ofText above s)
  nil : I []
  put : ∀ {r name a}, I r → P a → I (k.put r name a)
  putGroup : ∀ {r name v group r'}, I r → D v →
    (∀ g, group = .ok g → I g) → k.putGroup r name v group = .ok r' → I r'

theorem add_keeps (hk : k.Keeps D P I) {above : γ} {r r' : Registry α} (hr : I r)
    {key entry : Value} (hentry : D entry) {group : Except Error (Registry α)}
    (hgroup : ∀ g, group = .ok g → I g) (h : k.add above r key entry group = .ok r') : I r' := by
  unfold add at h
  split at h
  · next a name hfinished _ =>
    obtain rfl := Except.ok.inj h
    exact hk.put hr (hk.finished hentry hfinished)
  · unfold unnamed at h
    split at h <;> cases h
  · split at h
    · next hwrap _ =>
      split at h
      · obtain rfl := Except.ok.inj h
        exact hk.put hr (hk.ofFunction hentry hwrap)
      · exact absurd h bind_error_ne_ok
    · split at h
      · obtain rfl := Except.ok.inj h
        exact hk.put hr (hk.ofText _ _)
      · split at h
        · obtain rfl := Except.ok.inj h
          exact hk.put hr (hk.ofText _ _)
        · exact absurd h bind_error_ne_ok
    · split at h
      · exact hk.putGroup hr hentry hgroup h
      · exact absurd h bind_error_ne_ok
      · exact absurd h bind_error_ne_ok

/-- An item adds the entries of a map, or itself under its position. -/
theorem addItems_cons {above : γ} {r r' : Registry α} {i : Nat} {v : Value} {vs : List Value}
    (h : k.addItems above r i (v :: vs) = .ok r') :
    (∃ es r₁, v = .map es ∧ k.addEntries above r es = .ok r₁ ∧
      k.addItems above r₁ i vs = .ok r') ∨
    ∃ r₁, k.add above r (.int i) v (k.registry (k.inside above (.int i)) v) = .ok r₁ ∧
      k.addItems above r₁ (i + 1) vs = .ok r' := by
  cases v with
  | map es =>
    obtain ⟨r₁, h₁, h⟩ := bind_eq_ok_iff.1 h
    exact .inl ⟨es, r₁, rfl, h₁, h⟩
  | _ =>
    obtain ⟨r₁, h₁, h⟩ := bind_eq_ok_iff.1 h
    exact .inr ⟨r₁, h₁, h⟩

mutual

/-- **The registry of a declaration has what is kept.** -/
theorem registry_keeps (hD : Value.Inherited D) (hk : k.Keeps D P I) (above : γ)
    {r : Registry α} : (v : Value) → D v → k.registry above v = .ok r → I r
  | .map es, hv, h => addEntries_keeps hD hk above es (hD.map hv) hk.nil h
  | .list vs, hv, h => addItems_keeps hD hk above 0 vs (hD.list hv) hk.nil h
  | .tuple vs, hv, h => addItems_keeps hD hk above 0 vs (hD.tuple hv) hk.nil h
  | .set vs, hv, h => addItems_keeps hD hk above 0 vs (hD.set hv) hk.nil h
  | .null, _, h | .bool _, _, h | .int _, _, h | .binary _, _, h | .decimal _, _, h
  | .text _, _, h | .bytes _, _, h | .moment _, _, h | .date _, _, h | .record _, _, h
  | .choice _, _, h | .request _ _, _, h | .cursor _ _, _, h | .finished _ _, _, h
  | .function _ _, _, h | .object _, _, h => by cases h
termination_by v => sizeOf v

theorem addEntries_keeps (hD : Value.Inherited D) (hk : k.Keeps D P I) (above : γ)
    {r r' : Registry α} : (es : List (Value × Value)) → (∀ e ∈ es, D e.2) → I r →
      k.addEntries above r es = .ok r' → I r'
  | [], _, hr, h => by
    obtain rfl := Except.ok.inj h
    exact hr
  | (key, v) :: es, hes, hr, h => by
    have hv : D v := hes (key, v) (List.mem_cons_self ..)
    obtain ⟨r₁, h₁, h⟩ := bind_eq_ok_iff.1 h
    exact addEntries_keeps hD hk above es (fun e he => hes e (List.mem_cons_of_mem _ he))
      (add_keeps hk hr hv (fun g hg => registry_keeps hD hk _ v hv hg) h₁) h
termination_by es => sizeOf es

theorem addItems_keeps (hD : Value.Inherited D) (hk : k.Keeps D P I) (above : γ)
    {r r' : Registry α} (i : Nat) : (vs : List Value) → (∀ v ∈ vs, D v) → I r →
      k.addItems above r i vs = .ok r' → I r'
  | [], _, hr, h => by
    obtain rfl := Except.ok.inj h
    exact hr
  | v :: vs, hvs, hr, h => by
    have hv : D v := hvs v (List.mem_cons_self ..)
    have hrest : ∀ w ∈ vs, D w := fun w hw => hvs w (List.mem_cons_of_mem _ hw)
    rcases addItems_cons h with ⟨es, r₁, rfl, h₁, h⟩ | ⟨r₁, h₁, h⟩
    · exact addItems_keeps hD hk above i vs hrest
        (addEntries_keeps hD hk above es (hD.map hv) hr h₁) h
    · exact addItems_keeps hD hk above (i + 1) vs hrest
        (add_keeps hk hr hv (fun g hg => registry_keeps hD hk _ v hv hg) h₁) h
termination_by vs => sizeOf vs

end

end DeclarationKind

end Listing
