import Mathlib.Data.List.Nodup
import Mathlib.Data.List.Perm.Subperm
import Listing.Proofs.Params.Leaves
import Listing.Settings

/-!
# Canonical parameters

What a query string is read as is `Params.CanonicalRoot`: texts, lists and maps, none of which is
empty, and no map that should have been a list. With maps in the place of its lists it is a root
again, with the same places (`Params.root_unlisted`, `Params.flatten_unlisted`), and listifying that
gives back the parameters: `Params.listified_unlisted`.

Canonical parameters that are laid over nothing stay as they are (`Params.mergedEntries_nil`).
-/

namespace Listing.Params

/-! ## Lists and maps with positions as keys -/

/-- The values of a list under their positions from `i` on. -/
def indexed (i : Nat) : List Value → Entries
  | [] => []
  | v :: vs => (.int i, v) :: indexed (i + 1) vs

theorem mem_indexed {i : Nat} {vs : List Value} {e : Value × Value} (h : e ∈ indexed i vs) :
    ∃ j, i ≤ j ∧ j < i + vs.length ∧ e.1 = .int j ∧ e.2 ∈ vs := by
  induction vs generalizing i with
  | nil => cases h
  | cons v vs ih =>
    rw [indexed] at h
    rcases List.mem_cons.1 h with rfl | h
    · exact ⟨i, Nat.le_refl i, by simp, rfl, List.mem_cons_self ..⟩
    · obtain ⟨j, hi, hj, hk, hv⟩ := ih h
      simp only [List.length_cons]
      exact ⟨j, by omega, by omega, hk, List.mem_cons_of_mem _ hv⟩

theorem length_indexed (i : Nat) (vs : List Value) : (indexed i vs).length = vs.length := by
  induction vs generalizing i with
  | nil => rfl
  | cons v vs ih => simp [indexed, ih]

theorem distinct_indexed (i : Nat) (vs : List Value) : Entries.Distinct (indexed i vs) := by
  induction vs generalizing i with
  | nil => exact List.Pairwise.nil
  | cons v vs ih =>
    refine List.pairwise_cons.2 ⟨fun e he => ?_, ih (i + 1)⟩
    obtain ⟨j, hj, -, hk, -⟩ := mem_indexed he
    rw [hk, Value.equal_int]
    exact decide_eq_false (by omega)

theorem get?_indexed (i : Nat) (vs : List Value) {j : Nat} (hj : j < vs.length) :
    (indexed i vs).get? (.int (i + j : Nat)) = some vs[j] := by
  induction vs generalizing i j with
  | nil => cases hj
  | cons v vs ih =>
    rw [indexed, Entries.get?_cons, Value.equal_int]
    cases j with
    | zero => simp
    | succ j =>
      rw [decide_eq_false (by omega), if_neg Bool.false_ne_true]
      have := ih (i + 1) (j := j) (by simpa using hj)
      rw [show i + (j + 1) = i + 1 + j by omega]
      simpa using this

theorem numbered_eq_some {es : Entries} {i : Nat} {vs : List Value}
    (h : ∀ j (hj : j < vs.length), es.get? (.int (i + j : Nat)) = some vs[j]) :
    numbered es i vs.length = some vs := by
  induction vs generalizing i with
  | nil => rfl
  | cons v vs ih =>
    have hv := h 0 (by simp)
    have hvs := ih (i := i + 1) fun j hj => by
      have := h (j + 1) (by simpa using hj)
      rw [show i + 1 + j = i + (j + 1) by omega]
      simpa using this
    rw [List.length_cons, numbered]
    rw [Nat.add_zero] at hv
    rw [hv, hvs]
    rfl

theorem numbered_spec {es : Entries} {i n : Nat} {vs : List Value} (h : numbered es i n = some vs) :
    vs.length = n ∧ ∀ j (hj : j < vs.length), es.get? (.int (i + j : Nat)) = some vs[j] := by
  induction n generalizing i vs with
  | zero =>
    obtain rfl := Option.some.inj h
    exact ⟨rfl, fun j hj => absurd hj (Nat.not_lt_zero j)⟩
  | succ n ih =>
    rw [numbered] at h
    split at h
    · cases h
    next v hv =>
    obtain ⟨ws, hws, rfl⟩ := Option.map_eq_some_iff.1 h
    obtain ⟨hlen, hget⟩ := ih hws
    refine ⟨by simp [hlen], fun j hj => ?_⟩
    cases j with
    | zero => simpa using hv
    | succ j =>
      have := hget j (by simpa using hj)
      rw [show i + (j + 1) = i + 1 + j by omega]
      simpa using this

/-- The two things that a map becomes when it is listified. -/
theorem asList_cases (es : Entries) :
    asList es = .map es ∨ es ≠ [] ∧ (∀ e ∈ es, (index? e.1).isSome = true) ∧
      ∃ vs, asList es = .list vs ∧ vs.length = es.length ∧
        ∀ j (hj : j < vs.length), es.get? (.int j) = some vs[j] := by
  unfold asList
  split
  · exact .inl rfl
  next hcond =>
  split
  · next vs hvs =>
    obtain ⟨hlen, hget⟩ := numbered_spec hvs
    simp only [Bool.or_eq_true, List.isEmpty_iff, Bool.not_eq_true', not_or,
      Bool.not_eq_false] at hcond
    refine .inr ⟨hcond.1, fun e he => ?_, vs, rfl, hlen, fun j hj => by simpa using hget j hj⟩
    exact List.all_eq_true.1 hcond.2 e.1 (List.mem_map_of_mem he)
  · exact .inl rfl

theorem asList_eq_list {es : Entries} {vs : List Value} (hne : es ≠ [])
    (hi : ∀ e ∈ es, (index? e.1).isSome = true) (hn : numbered es 0 es.length = some vs) :
    asList es = .list vs := by
  have hkeys : es.keys.all (fun k => (index? k).isSome) = true := by
    rw [List.all_eq_true]
    intro k hk
    obtain ⟨e, he, rfl⟩ := List.mem_map.1 hk
    exact hi e he
  unfold asList
  rw [hkeys, List.isEmpty_eq_false_iff.2 hne, hn]
  rfl

theorem asList_indexed {vs : List Value} (h : vs ≠ []) : asList (indexed 0 vs) = .list vs := by
  refine asList_eq_list ?_ (fun e he => ?_) ?_
  · cases vs with
    | nil => exact absurd rfl h
    | cons v vs => exact List.cons_ne_nil _ _
  · obtain ⟨j, -, -, hj, -⟩ := mem_indexed he
    rw [hj]
    rfl
  · rw [length_indexed]
    exact numbered_eq_some fun j hj => get?_indexed 0 vs hj

/-! ## Keys that count up -/

/-- Are the keys exactly the numbers from zero up to some number? -/
def CountUp (ks : List Value) : Prop := ∃ n : Nat, 0 < n ∧ ∀ k, k ∈ ks ↔ ∃ i < n, k = .int (i : Nat)

/-- The numbers below `n` as keys. -/
def counted (n : Nat) : List Value := (List.range n).map fun i => .int (i : Nat)

theorem mem_counted {n : Nat} {k : Value} : k ∈ counted n ↔ ∃ i < n, k = .int (i : Nat) := by
  simp [counted, eq_comm]

theorem nodup_counted (n : Nat) : (counted n).Nodup :=
  List.nodup_range.map fun _ _ h => Int.ofNat.inj (Value.int.inj h)

/-- **A map becomes a list exactly if its keys count up from zero.** -/
theorem asList_eq_list_iff {es : Entries} (hn : ∀ e ∈ es, e.1.IsName) (hd : Entries.Distinct es) :
    (∃ vs, asList es = .list vs) ↔ CountUp es.keys := by
  have hlen : es.keys.length = es.length := List.length_map _
  constructor
  · rintro ⟨vs, hvs⟩
    rcases asList_cases es with ha | ⟨hne, -, ws, ha, hws, hget⟩
    · rw [ha] at hvs
      cases hvs
    -- the positions are among the keys, and there are as many of them
    have hsub : counted es.length ⊆ es.keys := by
      intro k hk
      obtain ⟨i, hi, rfl⟩ := mem_counted.1 hk
      exact (Entries.exists_get?_iff hn (Value.isName_int _)).1 ⟨_, hget i (by omega)⟩
    have hperm : (counted es.length).Perm es.keys :=
      ((nodup_counted _).subperm hsub).perm_of_length_le (by simp [counted, hlen])
    exact ⟨es.length, List.length_pos_iff.2 hne, fun k => by rw [← hperm.mem_iff, mem_counted]⟩
  · rintro ⟨n, hpos, hmem⟩
    have hperm : es.keys.Perm (counted n) :=
      (List.perm_ext_iff_of_nodup (hd.nodup_keys hn) (nodup_counted n)).2 fun k => by
        rw [hmem, mem_counted]
    obtain rfl : es.length = n := by
      rw [← hlen, hperm.length_eq, counted, List.length_map, List.length_range]
    have hget : ∀ i < es.length, ∃ v, es.get? (.int (i : Nat)) = some v := fun i hi =>
      (Entries.exists_get?_iff hn (Value.isName_int _)).2 ((hmem _).2 ⟨i, hi, rfl⟩)
    have hindex : ∀ e ∈ es, (index? e.1).isSome = true := by
      intro e he
      obtain ⟨i, -, hi⟩ := (hmem e.1).1 (List.mem_map_of_mem he)
      rw [hi]
      rfl
    let vs := (List.range es.length).map fun i => (es.get? (.int (i : Nat))).getD .null
    have hvs : vs.length = es.length := by simp [vs]
    refine ⟨vs, asList_eq_list (List.length_pos_iff.1 hpos) hindex ?_⟩
    rw [← hvs]
    refine numbered_eq_some fun j hj => ?_
    obtain ⟨v, hv⟩ := hget j (by omega)
    simp [vs, hv]

theorem asList_eq_map_iff {es : Entries} (hn : ∀ e ∈ es, e.1.IsName) (hd : Entries.Distinct es) :
    asList es = .map es ↔ ¬ CountUp es.keys := by
  rw [← asList_eq_list_iff hn hd]
  rcases asList_cases es with h | ⟨-, -, vs, h, -⟩ <;> simp [h]

/-! ## Canonical values -/

mutual

/-- Is the value a text, or a list or a map of such values that is not empty, where a map has
distinct keys and is no list? -/
def Canonical : Value → Prop
  | .text _ => True
  | .list vs => vs ≠ [] ∧ CanonicalItems vs
  | .map es => es ≠ [] ∧ Entries.Distinct es ∧ asList es = .map es ∧ CanonicalBranches es
  | _ => False

/-- Are all items such values? -/
def CanonicalItems : List Value → Prop
  | [] => True
  | v :: vs => Canonical v ∧ CanonicalItems vs

/-- Do the entries have keys of segments and such values? -/
def CanonicalBranches : List (Value × Value) → Prop
  | [] => True
  | (k, v) :: es => IsKey k ∧ Canonical v ∧ CanonicalBranches es

end

theorem canonicalItems_iff {vs : List Value} : CanonicalItems vs ↔ ∀ v ∈ vs, Canonical v := by
  induction vs with
  | nil => simp [CanonicalItems]
  | cons v vs ih => simp [CanonicalItems, ih]

theorem canonicalBranches_iff {es : Entries} :
    CanonicalBranches es ↔ ∀ e ∈ es, IsKey e.1 ∧ Canonical e.2 := by
  induction es with
  | nil => simp [CanonicalBranches]
  | cons e es ih =>
    obtain ⟨k, v⟩ := e
    simp [CanonicalBranches, ih, and_assoc]

/-- Are the entries canonical parameters: distinct keys with canonical values, and leaves under
names that write no path, altogether no list? -/
structure CanonicalRoot (es : Entries) : Prop where
  distinct : Entries.Distinct es
  branch : ∀ e ∈ es, IsKey e.1 ∧ Canonical e.2 ∨ IsRaw e
  noList : asList es = .map es

theorem CanonicalRoot.isName {es : Entries} (h : CanonicalRoot es) : ∀ e ∈ es, e.1.IsName := by
  intro e he
  rcases h.branch e he with h | ⟨s, t, rfl, -⟩
  · exact h.1.isName
  · exact Value.isName_text s

theorem CanonicalRoot.canonical {es : Entries} (h : CanonicalRoot es) {e : Value × Value}
    (he : e ∈ es) : Canonical e.2 := by
  rcases h.branch e he with h | ⟨s, t, rfl, -⟩
  · exact h.2
  · trivial

theorem CanonicalRoot.canonical_get? {es : Entries} (h : CanonicalRoot es) {k v : Value}
    (hv : es.get? k = some v) : Canonical v := by
  obtain ⟨l, hl, -⟩ := Entries.mem_of_get?_eq_some hv
  exact h.canonical hl

theorem CanonicalRoot.child_cases {es : Entries} (h : CanonicalRoot es) (k : Value) :
    child es k = [] ∨ Canonical (.map (child es k)) := by
  unfold child
  split
  · next hfs => exact .inr (h.canonical_get? hfs)
  · exact .inl rfl

/-- The same for a root, where leaves may stand under names that write no path. -/
theorem canonicalRoot_iff {es : Entries} : CanonicalRoot es ↔ Entries.Distinct es ∧
    (∀ e ∈ es, IsKey e.1 ∧ Canonical e.2 ∨ IsRaw e) ∧ ¬ CountUp es.keys := by
  constructor
  · intro h
    exact ⟨h.distinct, h.branch, (asList_eq_map_iff h.isName h.distinct).1 h.noList⟩
  · rintro ⟨hd, hb, hc⟩
    have hn : ∀ e ∈ es, e.1.IsName := by
      intro e he
      rcases hb e he with h | ⟨s, t, rfl, -⟩
      · exact h.1.isName
      · exact Value.isName_text s
    exact ⟨hd, hb, (asList_eq_map_iff hn hd).2 hc⟩

/-! ## Listifying trees -/

theorem keys_listifiedEntries (es : Entries) :
    Entries.keys (listifiedEntries es) = Entries.keys es := by
  induction es with
  | nil => rfl
  | cons e es ih =>
    obtain ⟨k, v⟩ := e
    simpa [listifiedEntries, Entries.keys] using ih

theorem mem_listifiedEntries {es : Entries} {e : Value × Value} :
    e ∈ listifiedEntries es ↔ ∃ v, (e.1, v) ∈ es ∧ e.2 = listified v := by
  induction es with
  | nil => simp [listifiedEntries]
  | cons f es ih =>
    obtain ⟨k, v⟩ := f
    obtain ⟨l, w⟩ := e
    rw [listifiedEntries, List.mem_cons, ih]
    constructor
    · rintro (h | ⟨x, hx, h⟩)
      · obtain ⟨rfl, rfl⟩ := Prod.mk.inj h
        exact ⟨v, List.mem_cons_self .., rfl⟩
      · exact ⟨x, List.mem_cons_of_mem _ hx, h⟩
    · rintro ⟨x, hx, h⟩
      rcases List.mem_cons.1 hx with hx | hx
      · obtain ⟨rfl, rfl⟩ := Prod.mk.inj hx
        exact .inl (by rw [← h])
      · exact .inr ⟨x, hx, h⟩

theorem get?_listifiedEntries (es : Entries) (k : Value) :
    (listifiedEntries es).get? k = (es.get? k).map listified := by
  induction es with
  | nil => rfl
  | cons e es ih =>
    obtain ⟨l, v⟩ := e
    rw [listifiedEntries, Entries.get?_cons, Entries.get?_cons, ih]
    split <;> rfl

theorem canonical_asList {es : Entries} (hne : es ≠ []) (hd : Entries.Distinct es)
    (hb : ∀ e ∈ es, IsKey e.1 ∧ Canonical e.2) : Canonical (asList es) := by
  rcases asList_cases es with h | ⟨-, -, vs, h, hlen, hget⟩
  · rw [h]
    exact ⟨hne, hd, h, canonicalBranches_iff.2 hb⟩
  · rw [h]
    refine ⟨?_, canonicalItems_iff.2 fun v hv => ?_⟩
    · rintro rfl
      exact hne (List.length_eq_zero_iff.1 hlen.symm)
    · obtain ⟨j, hj, rfl⟩ := List.mem_iff_getElem.1 hv
      obtain ⟨l, hl, -⟩ := Entries.mem_of_get?_eq_some (hget j hj)
      exact (hb _ hl).2

theorem distinct_listifiedEntries {es : Entries} (h : Entries.Distinct es) :
    Entries.Distinct (listifiedEntries es) := by
  rw [Entries.distinct_iff_keys, keys_listifiedEntries]
  exact Entries.distinct_iff_keys.1 h

theorem listifiedEntries_ne_nil {es : Entries} (h : es ≠ []) : listifiedEntries es ≠ [] := by
  cases es with
  | nil => exact absurd rfl h
  | cons e es =>
    obtain ⟨k, v⟩ := e
    exact List.cons_ne_nil _ _

mutual

/-- A tree becomes a canonical value. -/
theorem canonical_listified : (v : Value) → Tree v → Canonical (listified v)
  | .text _, _ => trivial
  | .map es, h => by
    refine canonical_asList (listifiedEntries_ne_nil h.1) (distinct_listifiedEntries h.2.1) ?_
    rw [← canonicalBranches_iff]
    exact canonicalBranches_listified es h.2.2

theorem canonicalBranches_listified : (es : List (Value × Value)) → Branches es →
    CanonicalBranches (listifiedEntries es)
  | [], _ => trivial
  | (_, v) :: es, h =>
    ⟨h.1, canonical_listified v h.2.1, canonicalBranches_listified es h.2.2⟩

end

/-- **A root that becomes a map becomes canonical parameters.** -/
theorem canonicalRoot_listified {es : Entries} (h : Root es)
    (hn : asList (listifiedEntries es) = .map (listifiedEntries es)) :
    CanonicalRoot (listifiedEntries es) := by
  refine ⟨distinct_listifiedEntries h.distinct, fun e he => ?_, hn⟩
  obtain ⟨v, hv, he⟩ := mem_listifiedEntries.1 he
  rcases h.branch _ hv with hb | ⟨s, t, hraw, hs⟩
  · exact .inl ⟨hb.1, he ▸ canonical_listified v hb.2⟩
  · obtain ⟨h₁, rfl⟩ := Prod.mk.inj hraw
    exact .inr ⟨s, t, Prod.ext h₁ he, hs⟩

/-! ## Maps in the place of lists -/

mutual

/-- The value with maps in the place of its lists. -/
def unlisted : Value → Value
  | .map es => .map (unlistedEntries es)
  | .list vs => .map (indexed 0 (unlistedItems vs))
  | v => v

/-- Items with maps in the place of their lists. -/
def unlistedItems : List Value → List Value
  | [] => []
  | v :: vs => unlisted v :: unlistedItems vs

/-- Entries with maps in the place of their lists. -/
def unlistedEntries : List (Value × Value) → Entries
  | [] => []
  | (k, v) :: es => (k, unlisted v) :: unlistedEntries es

end

theorem unlistedItems_eq_map (vs : List Value) : unlistedItems vs = vs.map unlisted := by
  induction vs with
  | nil => rfl
  | cons v vs ih => simp [unlistedItems, ih]

theorem unlistedEntries_eq_map (es : Entries) :
    unlistedEntries es = es.map fun e => (e.1, unlisted e.2) := by
  induction es with
  | nil => rfl
  | cons e es ih =>
    obtain ⟨k, v⟩ := e
    simp [unlistedEntries, ih]

theorem distinct_unlistedEntries {es : Entries} (h : Entries.Distinct es) :
    Entries.Distinct (unlistedEntries es) := by
  rw [unlistedEntries_eq_map, Entries.Distinct, List.pairwise_map]
  exact h

mutual

theorem tree_unlisted : (v : Value) → Canonical v → Tree (unlisted v)
  | .text _, _ => trivial
  | .list vs, h => by
    refine ⟨?_, distinct_indexed 0 _, branches_indexed vs 0 h.2⟩
    cases vs with
    | nil => exact absurd rfl h.1
    | cons v vs => exact List.cons_ne_nil _ _
  | .map es, h => by
    refine ⟨?_, distinct_unlistedEntries h.2.1, branches_unlisted es h.2.2.2⟩
    rw [unlistedEntries_eq_map]
    simpa using h.1

theorem branches_indexed : (vs : List Value) → (i : Nat) → CanonicalItems vs →
    Branches (indexed i (unlistedItems vs))
  | [], _, _ => trivial
  | v :: vs, i, h => ⟨isKey_natCast i, tree_unlisted v h.1, branches_indexed vs (i + 1) h.2⟩

theorem branches_unlisted : (es : List (Value × Value)) → CanonicalBranches es →
    Branches (unlistedEntries es)
  | [], _ => trivial
  | (_, v) :: es, h => ⟨h.1, tree_unlisted v h.2.1, branches_unlisted es h.2.2⟩

end

/-- **With maps in the place of lists canonical parameters are a root.** -/
theorem root_unlisted {es : Entries} (h : CanonicalRoot es) : Root (unlistedEntries es) := by
  refine ⟨distinct_unlistedEntries h.distinct, fun e he => ?_⟩
  rw [unlistedEntries_eq_map] at he
  obtain ⟨f, hf, rfl⟩ := List.mem_map.1 he
  rcases h.branch f hf with hb | ⟨s, t, rfl, hs⟩
  · exact .inl ⟨hb.1, tree_unlisted _ hb.2⟩
  · exact .inr ⟨s, t, rfl, hs⟩

mutual

/-- Listifying puts the lists back. -/
theorem listified_unlisted : (v : Value) → Canonical v → listified (unlisted v) = v
  | .text _, _ => rfl
  | .list vs, h => by
    rw [unlisted, listified, listifiedEntries_indexed vs 0 h.2, asList_indexed h.1]
  | .map es, h => by
    rw [unlisted, listified, listifiedEntries_unlisted es h.2.2.2, h.2.2.1]

theorem listifiedEntries_indexed : (vs : List Value) → (i : Nat) → CanonicalItems vs →
    listifiedEntries (indexed i (unlistedItems vs)) = indexed i vs
  | [], _, _ => rfl
  | v :: vs, i, h => by
    rw [unlistedItems, indexed, listifiedEntries, listified_unlisted v h.1,
      listifiedEntries_indexed vs (i + 1) h.2]
    rfl

theorem listifiedEntries_unlisted : (es : List (Value × Value)) → CanonicalBranches es →
    listifiedEntries (unlistedEntries es) = es
  | [], _ => rfl
  | (k, v) :: es, h => by
    rw [unlistedEntries, listifiedEntries, listified_unlisted v h.2.1,
      listifiedEntries_unlisted es h.2.2]

end

theorem listifiedEntries_unlisted_root {es : Entries} (h : ∀ e ∈ es, Canonical e.2) :
    listifiedEntries (unlistedEntries es) = es := by
  induction es with
  | nil => rfl
  | cons e es ih =>
    obtain ⟨k, v⟩ := e
    rw [unlistedEntries, listifiedEntries, listified_unlisted v (h _ (List.mem_cons_self ..)),
      ih fun e he => h e (List.mem_cons_of_mem _ he)]

mutual

theorem flattenValue_unlisted : (v : Value) → Canonical v → (name : String) →
    flattenValue name (unlisted v) = flattenValue name v
  | .text _, _, _ => rfl
  | .list vs, h, name => flattenEntries_indexed vs h.2 name 0
  | .map es, h, name => flattenEntries_unlisted es h.2.2.2 name

theorem flattenEntries_indexed : (vs : List Value) → CanonicalItems vs → (name : String) →
    (i : Nat) → flattenEntries name (indexed i (unlistedItems vs)) = flattenItems name i vs
  | [], _, _, _ => rfl
  | v :: vs, h, name, i => by
    rw [unlistedItems, indexed, flattenEntries, flattenValue_unlisted v h.1,
      flattenEntries_indexed vs h.2, flattenItems]

theorem flattenEntries_unlisted : (es : List (Value × Value)) → CanonicalBranches es →
    (name : String) → flattenEntries name (unlistedEntries es) = flattenEntries name es
  | [], _, _ => rfl
  | (k, v) :: es, h, name => by
    rw [unlistedEntries, flattenEntries, flattenValue_unlisted v h.2.1,
      flattenEntries_unlisted es h.2.2, flattenEntries]

end

/-- The places are the same. -/
theorem flatten_unlisted {es : Entries} (h : ∀ e ∈ es, Canonical e.2) :
    flatten (unlistedEntries es) = flatten es := by
  unfold flatten
  induction es with
  | nil => rfl
  | cons e es ih =>
    obtain ⟨k, v⟩ := e
    rw [unlistedEntries, flattenEntries, flattenValue_unlisted v (h _ (List.mem_cons_self ..)),
      ih fun e he => h e (List.mem_cons_of_mem _ he), flattenEntries]

/-! ## Laying parameters over nothing -/

mutual

theorem mergedValue_none : (v : Value) → Canonical v → Settings.mergedValue none v = v
  | .text _, _ => rfl
  | .list _, _ => rfl
  | .map es, h => by
    have hes := mergedEntries_append es
      (fun e he => ((canonicalBranches_iff.1 h.2.2.2) e he).2) [] (by simpa using h.2.1)
    simp [Settings.mergedValue, hes]

theorem mergedEntries_append : (es : List (Value × Value)) → (∀ e ∈ es, Canonical e.2) →
    (target : Entries) → Entries.Distinct (target ++ es) →
    Settings.mergedEntries target es = target ++ es
  | [], _, target, _ => by simp [Settings.mergedEntries]
  | (k, v) :: es, h, target, hd => by
    have hnew : ∀ e ∈ target, e.1.equal k = false := fun e he =>
      (List.pairwise_append.1 hd).2.2 e he (k, v) (List.mem_cons_self ..)
    have hget : target.get? k = none := by
      rw [Entries.get?, List.find?_eq_none.2 fun e he => by simp [hnew e he]]
      rfl
    rw [Settings.mergedEntries, hget, mergedValue_none v (h (k, v) (List.mem_cons_self ..)),
      Entries.insert_new hnew,
      mergedEntries_append es (fun e he => h e (List.mem_cons_of_mem _ he)) _ (by simpa using hd)]
    simp

end

/-- Canonical parameters that are laid over nothing stay as they are. -/
theorem mergedEntries_nil {es : Entries} (h : CanonicalRoot es) :
    Settings.mergedEntries [] es = es :=
  mergedEntries_append es (fun _ he => h.canonical he) [] (by simpa using h.distinct)

end Listing.Params
