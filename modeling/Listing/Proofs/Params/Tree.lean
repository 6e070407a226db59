import Mathlib.Data.List.Induction
import Listing.Proofs.Params.Path

/-!
# Maps that names build

Before it is listified, what pairs of names and texts build is a `Params.Root`: nested maps with
distinct keys, none of them empty, and texts as leaves (`Params.root_tree`). It is given by its
leaves: putting each at its path builds it again, `Params.placeAll_leavesOf`.
-/

namespace Listing

namespace Params

/-! ## Trees -/

mutual

/-- Is the value a text, or a map of such values under distinct keys that is not empty? -/
def Tree : Value → Prop
  | .text _ => True
  | .map es => es ≠ [] ∧ Entries.Distinct es ∧ Branches es
  | _ => False

/-- Do the entries have keys of segments and trees as values? -/
def Branches : List (Value × Value) → Prop
  | [] => True
  | (k, v) :: es => IsKey k ∧ Tree v ∧ Branches es

end

theorem branches_iff {es : Entries} : Branches es ↔ ∀ e ∈ es, IsKey e.1 ∧ Tree e.2 := by
  induction es with
  | nil => simp [Branches]
  | cons e es ih =>
    obtain ⟨k, v⟩ := e
    simp [Branches, ih, and_assoc]

/-- Is the entry a leaf under a name that writes no path? -/
def IsRaw (e : Value × Value) : Prop := ∃ s t, e = (.text s, .text t) ∧ path? s = none

/-- Are the entries a root: distinct keys with trees, and leaves under names that write no path? -/
structure Root (es : Entries) : Prop where
  distinct : Entries.Distinct es
  branch : ∀ e ∈ es, IsKey e.1 ∧ Tree e.2 ∨ IsRaw e

theorem Root.isName {es : Entries} (h : Root es) : ∀ e ∈ es, e.1.IsName := by
  intro e he
  rcases h.branch e he with h | ⟨s, t, rfl, -⟩
  · exact h.1.isName
  · exact Value.isName_text s

theorem Root.tree {es : Entries} (h : Root es) {e : Value × Value} (he : e ∈ es) : Tree e.2 := by
  rcases h.branch e he with h | ⟨s, t, rfl, -⟩
  · exact h.2
  · trivial

/-! ## Putting values at paths -/

/-- Put a value at the place that keys lead to. -/
def place (node : Entries) (k : Value) : List Value → Value → Entries
  | [], v => node.insert k v
  | next :: rest, v => node.insert k (.map (place (child node k) next rest v))

theorem put_toText {v : Value} {k : Value} {ks : List Value} (hk : IsKey k)
    (hks : ∀ l ∈ ks, IsKey l) (ht : ∀ l ∈ k :: ks, l.hasText = true) (node : Entries) :
    put node k.toText (ks.map Value.toText) v = .ok (place node k ks v) := by
  induction ks generalizing node k with
  | nil => simp [put, segmentKey_toText hk (ht k (List.mem_cons_self ..)), place]
  | cons l ls ih =>
    have hl := hks l (List.mem_cons_self ..)
    have ih := ih hl (fun m hm => hks m (List.mem_cons_of_mem _ hm))
      (fun m hm => ht m (List.mem_cons_of_mem _ hm)) (child node k)
    simp [put, segmentKey_toText hk (ht k (List.mem_cons_self ..)), ih, place]

/-- Is it a path that a name writes, or a key that is a name of its own? -/
def IsPath (k : Value) (ks : List Value) : Prop :=
  (IsKey k ∧ ∀ l ∈ ks, IsKey l) ∨ ks = [] ∧ ∃ s, k = .text s ∧ path? s = none

/-- **Putting a value where the name of a path writes it is putting it at the path.** -/
theorem putNamed_nameOf {k : Value} {ks : List Value} (h : IsPath k ks)
    (ht : ∀ l ∈ k :: ks, l.hasText = true) (root : Entries) (v : Value) :
    putNamed root (nameOf k ks) v = .ok (place root k ks v) := by
  rcases h with ⟨hk, hks⟩ | ⟨rfl, s, rfl, hs⟩
  · rw [putNamed, path?_nameOf hk hks]
    exact put_toText hk hks ht root
  · have hname : nameOf (.text s) [] = s := rfl
    rw [putNamed, hname, hs]
    rfl

/-! ## What pairs build -/

theorem tree_child {es : Entries} (h : ∀ e ∈ es, Tree e.2) (k : Value) :
    Entries.Distinct (child es k) ∧ Branches (child es k) := by
  unfold child
  split
  · next fs hget =>
    obtain ⟨l, hl, -⟩ := Entries.mem_of_get?_eq_some hget
    exact (h _ hl).2
  · exact ⟨List.Pairwise.nil, trivial⟩

theorem branches_insert {es : Entries} (h : Branches es) {k v : Value} (hk : IsKey k)
    (hv : Tree v) : Branches (es.insert k v) := by
  rw [branches_iff] at h ⊢
  intro e he
  rcases Entries.mem_insert_of_isName (fun e he => (h e he).1.isName) hk.isName he with he | rfl
  · exact h e he
  · exact ⟨hk, hv⟩

theorem natural_of_isKey {es : Entries} (h : ∀ e ∈ es, IsKey e.1) : Natural es :=
  fun e he => (h e he).natural

theorem Root.natural {es : Entries} (h : Root es) : Natural es := by
  intro e he
  rcases h.branch e he with h | ⟨s, t, rfl, -⟩
  · exact h.1.natural
  · intro n hn
    cases hn

/-- What segments put is put at a path of as many keys. -/
theorem exists_place {node : Entries} (hn : Natural node) (ht : ∀ e ∈ node, Tree e.2)
    {segment : String} {segments : List String}
    (hs : ∀ s ∈ segment :: segments, ∀ c ∈ s.toList, isBracket c = false) {v : Value}
    {result : Entries} (h : put node segment segments v = .ok result) :
    ∃ k ks, IsKey k ∧ (∀ l ∈ ks, IsKey l) ∧ ks.length = segments.length ∧
      result = place node k ks v := by
  have hseg := hs segment (List.mem_cons_self ..)
  induction segments generalizing node segment result with
  | nil =>
    rw [put] at h
    obtain ⟨k, hk, h⟩ := bind_eq_ok_iff.1 h
    obtain rfl := Except.ok.inj h
    exact ⟨k, [], isKey_of_segmentKey hn hseg hk, by simp, rfl, rfl⟩
  | cons next rest ih =>
    rw [put] at h
    obtain ⟨k, hk, h⟩ := bind_eq_ok_iff.1 h
    obtain ⟨inner, hinner, h⟩ := bind_eq_ok_iff.1 h
    obtain rfl := Except.ok.inj h
    obtain ⟨hcd, hcb⟩ := tree_child ht k
    rw [branches_iff] at hcb
    obtain ⟨l, ls, hl, hls, hlen, rfl⟩ := ih (natural_of_isKey fun e he => (hcb e he).1)
      (fun e he => (hcb e he).2) (fun s hs' => hs s (List.mem_cons_of_mem _ hs')) hinner
      (hs next (List.mem_cons_of_mem _ (List.mem_cons_self ..)))
    refine ⟨k, l :: ls, isKey_of_segmentKey hn hseg hk, ?_, by simp [hlen], rfl⟩
    intro m hm
    rcases List.mem_cons.1 hm with rfl | hm
    · exact hl
    · exact hls m hm

theorem tree_place {k : Value} {ks : List Value} (hk : IsKey k) (hks : ∀ l ∈ ks, IsKey l)
    {node : Entries} (hd : Entries.Distinct node) (hb : Branches node) (t : String) :
    Tree (.map (place node k ks (.text t))) := by
  induction ks generalizing node k with
  | nil => exact ⟨Entries.insert_ne_nil _ _ _, hd.insert _ _, branches_insert hb hk trivial⟩
  | cons l ls ih =>
    obtain ⟨hcd, hcb⟩ := tree_child (fun e he => (branches_iff.1 hb e he).2) k
    have hinner := ih (hks l (List.mem_cons_self ..)) (fun m hm => hks m (List.mem_cons_of_mem _ hm))
      hcd hcb
    exact ⟨Entries.insert_ne_nil _ _ _, hd.insert _ _, branches_insert hb hk hinner⟩

theorem root_insert {root : Entries} (hr : Root root) {k v : Value}
    (h : IsKey k ∧ Tree v ∨ IsRaw (k, v)) : Root (root.insert k v) := by
  have hk : k.IsName := by
    rcases h with h | ⟨s, t, he, -⟩
    · exact h.1.isName
    · rw [(Prod.mk.inj he).1]
      exact Value.isName_text s
  refine ⟨hr.distinct.insert _ _, fun e he => ?_⟩
  rcases Entries.mem_insert_of_isName hr.isName hk he with he | rfl
  · exact hr.branch e he
  · exact h

/-- **What is put at a path of a root leaves a root.** -/
theorem root_place {root : Entries} (hr : Root root) {k : Value} {ks : List Value}
    (h : IsPath k ks) (t : String) : Root (place root k ks (.text t)) := by
  rcases h with ⟨hk, hks⟩ | ⟨rfl, s, rfl, hs⟩
  · cases ks with
    | nil => exact root_insert hr (.inl ⟨hk, trivial⟩)
    | cons l ls =>
      obtain ⟨hcd, hcb⟩ := tree_child (fun e he => hr.tree he) k
      exact root_insert hr (.inl ⟨hk, tree_place (hks l (List.mem_cons_self ..))
        (fun m hm => hks m (List.mem_cons_of_mem _ hm)) hcd hcb t⟩)
  · exact root_insert hr (.inr ⟨s, t, rfl, hs⟩)

theorem exists_place_of_putNamed {root : Entries} (hr : Root root) {name : String} {v : Value}
    {result : Entries} (h : putNamed root name v = .ok result) :
    ∃ k ks, IsPath k ks ∧ result = place root k ks v := by
  unfold putNamed at h
  split at h
  · next hname =>
    obtain rfl := Except.ok.inj h
    exact ⟨.text name, [], .inr ⟨rfl, name, rfl, hname⟩, rfl⟩
  · next head segments hname =>
    obtain ⟨k, ks, hk, hks, -, rfl⟩ :=
      exists_place hr.natural (fun e he => hr.tree he) (unbracketed_of_path? hname) h
    exact ⟨k, ks, .inl ⟨hk, hks⟩, rfl⟩

/-- The pairs of texts as values. -/
def textPairs (ps : List (String × String)) : List (String × Value) :=
  ps.map fun p => (p.1, .text p.2)

theorem tree_concat (ps : List (String × String)) (p : String × String) :
    tree (textPairs (ps ++ [p])) =
      (tree (textPairs ps) >>= fun root => putNamed root p.1 (.text p.2)) := by
  simp [tree, textPairs, List.foldlM_append, -pure_eq_ok]

/-- Induction on the pairs that build a map, from the first one on. -/
theorem tree_induction {P : List (String × String) → Entries → Prop} (nil : P [] [])
    (concat : ∀ ps p acc root, tree (textPairs ps) = .ok acc → P ps acc →
      putNamed acc p.1 (.text p.2) = .ok root → P (ps ++ [p]) root)
    {ps : List (String × String)} {root : Entries} (h : tree (textPairs ps) = .ok root) :
    P ps root := by
  induction ps using List.reverseRecOn generalizing root with
  | nil =>
    obtain rfl := Except.ok.inj h
    exact nil
  | append_singleton ps p ih =>
    rw [tree_concat] at h
    obtain ⟨acc, hacc, hput⟩ := bind_eq_ok_iff.1 h
    exact concat ps p acc root hacc (ih hacc) hput

/-- **What pairs of texts build is a root.** -/
theorem root_tree {ps : List (String × String)} {root : Entries}
    (h : tree (textPairs ps) = .ok root) : Root root := by
  refine tree_induction (P := fun _ root => Root root)
    ⟨List.Pairwise.nil, fun e he => absurd he List.not_mem_nil⟩ ?_ h
  intro ps p acc root _ hacc hput
  obtain ⟨k, ks, hpath, rfl⟩ := exists_place_of_putNamed hacc hput
  exact root_place hacc hpath p.2

end Params

end Listing
