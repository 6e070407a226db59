import Listing.Proofs.Params.Tree

/-!
# Leaves

The leaves of a tree are its texts with their paths, in order. `Params.flatten` lists them by name
(`Params.flatten_eq_leaves`), and putting them at their paths one after the other builds the tree
again: `Params.placeAll_leavesOf`. Where some of them are left out, every key under which none is
missing keeps its value (`Params.get?_placeAll_filter`).
-/

namespace Listing.Params

/-- A text and the path that leads to it. -/
abbrev Leaf := List Value × String

/-- The leaf with one more key in front of its path. -/
def Leaf.under (k : Value) (p : Leaf) : Leaf := (k :: p.1, p.2)

mutual

/-- The leaves of a value. -/
def leaves : Value → List Leaf
  | .text s => [([], s)]
  | .map es => leavesOf es
  | _ => []

/-- The leaves of entries. -/
def leavesOf : List (Value × Value) → List Leaf
  | [] => []
  | (k, v) :: es => (leaves v).map (Leaf.under k) ++ leavesOf es

end

theorem leavesOf_append (es fs : Entries) : leavesOf (es ++ fs) = leavesOf es ++ leavesOf fs := by
  induction es with
  | nil => rfl
  | cons e es ih =>
    obtain ⟨k, v⟩ := e
    simp [leavesOf, ih]

/-- A leaf of entries is a leaf of one of the values. -/
theorem exists_of_mem_leavesOf {es : Entries} {p : Leaf} (h : p ∈ leavesOf es) :
    ∃ e ∈ es, ∃ q ∈ leaves e.2, p = q.under e.1 := by
  induction es with
  | nil => cases h
  | cons e es ih =>
    obtain ⟨k, v⟩ := e
    rw [leavesOf, List.mem_append] at h
    rcases h with h | h
    · obtain ⟨q, hq, rfl⟩ := List.mem_map.1 h
      exact ⟨(k, v), List.mem_cons_self .., q, hq, rfl⟩
    · obtain ⟨e, he, h⟩ := ih h
      exact ⟨e, List.mem_cons_of_mem _ he, h⟩

theorem leaves_ne_nil : {v : Value} → Tree v → leaves v ≠ []
  | .text _, _ => List.cons_ne_nil _ _
  | .map [], h => absurd rfl h.1
  | .map ((_, _) :: _), h => by
    have hv := leaves_ne_nil h.2.2.2.1
    simp [leaves, leavesOf, hv]

/-! ## Names of leaves -/

/-- The name of the place that a path leads to. -/
def pathName : List Value → String
  | [] => ""
  | k :: ks => nameOf k ks

/-- A leaf as a pair of a name and a text. -/
def Leaf.pair (p : Leaf) : String × String := (pathName p.1, p.2)

theorem nameUnder_of_ne {name : String} (h : name.toList ≠ []) (k : Value) :
    nameUnder name k = name ++ "[" ++ k.toText ++ "]" := by
  rw [nameUnder, List.isEmpty_eq_false_iff.2 h]
  rfl

theorem nameUnder_ne_nil {name : String} (h : name.toList ≠ []) (k : Value) :
    (nameUnder name k).toList ≠ [] := by
  rw [nameUnder_of_ne h]
  simp

mutual

theorem flattenValue_eq : (v : Value) → Tree v → (name : String) → name.toList ≠ [] →
    flattenValue name v = (leaves v).map fun p => (extended name p.1, p.2)
  | .text _, _, _, _ => rfl
  | .map es, h, name, hname => flattenEntries_eq es h.2.2 name hname

theorem flattenEntries_eq : (es : List (Value × Value)) → Branches es → (name : String) →
    name.toList ≠ [] →
    flattenEntries name es = (leavesOf es).map fun p => (extended name p.1, p.2)
  | [], _, _, _ => rfl
  | (k, v) :: es, h, name, hname => by
    rw [flattenEntries, flattenValue_eq v h.2.1 _ (nameUnder_ne_nil hname k),
      flattenEntries_eq es h.2.2 name hname, leavesOf, List.map_append, List.map_map,
      nameUnder_of_ne hname]
    rfl

end

/-- **The places of a root are its leaves by name.** -/
theorem flatten_eq_leaves {es : Entries} (h : Root es) :
    flatten es = (leavesOf es).map Leaf.pair := by
  unfold flatten
  have hall := h.branch
  clear h
  induction es with
  | nil => rfl
  | cons e es ih =>
    obtain ⟨k, v⟩ := e
    have hv : flattenValue (nameUnder "" k) v =
        ((leaves v).map (Leaf.under k)).map Leaf.pair := by
      have hname : nameUnder "" k = k.toText := rfl
      rcases hall (k, v) (List.mem_cons_self ..) with ⟨hk, hv⟩ | ⟨s, t, he, -⟩
      · rw [hname, flattenValue_eq v hv _ hk.toText_ne_nil, List.map_map]
        rfl
      · obtain ⟨rfl, rfl⟩ := Prod.mk.inj he
        rfl
    rw [flattenEntries, hv, ih fun e he => hall e (List.mem_cons_of_mem _ he), leavesOf,
      List.map_append]

/-! ## Building a tree from its leaves -/

/-- Put a text at a path. -/
def placeAt (node : Entries) (p : Leaf) : Entries :=
  match p.1 with
  | [] => node
  | k :: ks => place node k ks (.text p.2)

/-- Put texts at paths one after the other. -/
def placeAll (node : Entries) (ps : List Leaf) : Entries := ps.foldl placeAt node

theorem placeAll_append (node : Entries) (ps qs : List Leaf) :
    placeAll node (ps ++ qs) = placeAll (placeAll node ps) qs := List.foldl_append

theorem child_insert {k : Value} (hk : k.equal k = true) (node es : Entries) :
    child (node.insert k (.map es)) k = es := by
  rw [child, Entries.get?_insert_self hk]

/-- What is put under one key is put into the map that is there. -/
theorem placeAll_under {k : Value} (hk : k.equal k = true) (node : Entries) {qs : List Leaf}
    (hne : qs ≠ []) (h : ∀ q ∈ qs, q.1 ≠ []) :
    placeAll node (qs.map (Leaf.under k)) =
      node.insert k (.map (placeAll (child node k) qs)) := by
  induction qs generalizing node with
  | nil => exact absurd rfl hne
  | cons q qs ih =>
    obtain ⟨path, s⟩ := q
    cases path with
    | nil => exact absurd rfl (h _ (List.mem_cons_self ..))
    | cons l ls =>
      have hstep : placeAll node (((l :: ls, s) :: qs).map (Leaf.under k)) =
          placeAll (node.insert k (.map (place (child node k) l ls (.text s))))
            (qs.map (Leaf.under k)) := rfl
      have hstep' : placeAll (child node k) ((l :: ls, s) :: qs) =
          placeAll (place (child node k) l ls (.text s)) qs := rfl
      rw [hstep, hstep']
      cases qs with
      | nil => rfl
      | cons q qs =>
        rw [ih _ (List.cons_ne_nil _ _) fun q hq => h q (List.mem_cons_of_mem _ hq),
          child_insert hk, Entries.insert_insert hk]

theorem path_ne_nil_of_mem_leavesOf {es : Entries} {p : Leaf} (h : p ∈ leavesOf es) :
    p.1 ≠ [] := by
  obtain ⟨e, -, q, -, rfl⟩ := exists_of_mem_leavesOf h
  exact List.cons_ne_nil _ _

mutual

/-- Putting the leaves of a value under a new key adds the value. -/
theorem placeAll_leaves : (v : Value) → Tree v → (node : Entries) → (k : Value) → k.IsName →
    (∀ e ∈ node, e.1.equal k = false) →
    placeAll node ((leaves v).map (Leaf.under k)) = node ++ [(k, v)]
  | .text s, _, node, k, _, hnew => by
    rw [← Entries.insert_new hnew]
    rfl
  | .map es, h, node, k, hk, hnew => by
    have hne : leavesOf es ≠ [] := leaves_ne_nil (v := .map es) h
    have hchild : child node k = [] := by
      have hget : node.get? k = none := by
        rw [Entries.get?, List.find?_eq_none.2 fun e he => by simp [hnew e he]]
        rfl
      rw [child, hget]
    have hes := placeAll_leavesOf_append es
      (fun e he => ⟨(branches_iff.1 h.2.2 e he).1.isName, (branches_iff.1 h.2.2 e he).2⟩) []
      (by simpa using h.2.1)
    rw [leaves, placeAll_under hk.equal_self node hne fun q hq => path_ne_nil_of_mem_leavesOf hq,
      hchild, hes, Entries.insert_new hnew]
    rfl

/-- Putting the leaves of entries with new keys adds the entries. -/
theorem placeAll_leavesOf_append : (es : List (Value × Value)) →
    (∀ e ∈ es, e.1.IsName ∧ Tree e.2) → (node : Entries) → Entries.Distinct (node ++ es) →
    placeAll node (leavesOf es) = node ++ es
  | [], _, node, _ => by simp [leavesOf, placeAll]
  | (k, v) :: es, h, node, hd => by
    have hkv := h (k, v) (List.mem_cons_self ..)
    have hnew : ∀ e ∈ node, e.1.equal k = false := fun e he =>
      (List.pairwise_append.1 hd).2.2 e he (k, v) (List.mem_cons_self ..)
    rw [leavesOf, placeAll_append, placeAll_leaves v hkv.2 node k hkv.1 hnew,
      placeAll_leavesOf_append es (fun e he => h e (List.mem_cons_of_mem _ he)) _ (by simpa using hd)]
    simp

end

/-- **A root is built from its leaves.** -/
theorem placeAll_leavesOf {es : Entries} (h : Root es) : placeAll [] (leavesOf es) = es :=
  placeAll_leavesOf_append es (fun e he => ⟨h.isName e he, h.tree he⟩) [] (by simpa using h.distinct)

/-! ## Leaving leaves out -/

theorem isName_place {node : Entries} (hn : ∀ e ∈ node, e.1.IsName) {k : Value} (hk : k.IsName)
    (ks : List Value) (v : Value) : ∀ e ∈ place node k ks v, e.1.IsName := by
  have hinsert : ∀ w, ∀ e ∈ node.insert k w, e.1.IsName := by
    intro w e he
    rcases Entries.mem_insert_of_isName hn hk he with he | rfl
    · exact hn e he
    · exact hk
  cases ks with
  | nil => exact hinsert _
  | cons l ls => exact hinsert _

theorem get?_place_of_ne {node : Entries} (hn : ∀ e ∈ node, e.1.IsName) {k l : Value}
    (hk : k.IsName) (hl : l.IsName) (h : k ≠ l) (ks : List Value) (v : Value) :
    (place node k ks v).get? l = node.get? l := by
  cases ks with
  | nil => exact Entries.get?_insert_of_ne hn hk hl h _
  | cons m ms => exact Entries.get?_insert_of_ne hn hk hl h _

theorem isName_placeAll {ps : List Leaf} (hps : ∀ p ∈ ps, ∀ k ∈ p.1.head?, k.IsName)
    {node : Entries} (hn : ∀ e ∈ node, e.1.IsName) : ∀ e ∈ placeAll node ps, e.1.IsName := by
  induction ps generalizing node with
  | nil => exact hn
  | cons p ps ih =>
    refine ih (fun p hp => hps p (List.mem_cons_of_mem _ hp)) ?_
    obtain ⟨path, s⟩ := p
    cases path with
    | nil => exact hn
    | cons k ks => exact isName_place hn (hps _ (List.mem_cons_self ..) k rfl) ks _

/-- What is put under other keys leaves a key as it is. -/
theorem get?_placeAll_of_ne {l : Value} (hl : l.IsName) {ps : List Leaf}
    (hps : ∀ p ∈ ps, ∀ k ∈ p.1.head?, k.IsName ∧ k ≠ l) {node : Entries}
    (hn : ∀ e ∈ node, e.1.IsName) : (placeAll node ps).get? l = node.get? l := by
  induction ps generalizing node with
  | nil => rfl
  | cons p ps ih =>
    have ih := fun node hn => @ih (fun p hp => hps p (List.mem_cons_of_mem _ hp)) node hn
    obtain ⟨path, s⟩ := p
    cases path with
    | nil => exact ih node hn
    | cons k ks =>
      obtain ⟨hk, hne⟩ := hps _ (List.mem_cons_self ..) k rfl
      exact (ih _ (isName_place hn hk ks (.text s))).trans (get?_place_of_ne hn hk hl hne ks _)

theorem head_of_mem_leavesOf {es : Entries} {p : Leaf} (h : p ∈ leavesOf es) {k : Value}
    (hk : k ∈ p.1.head?) : ∃ e ∈ es, e.1 = k := by
  obtain ⟨e, he, q, -, rfl⟩ := exists_of_mem_leavesOf h
  exact ⟨e, he, Option.some.inj hk⟩

/-- The leaves of entries without a key, even if some are left out, are under other keys. -/
theorem heads_filter {es : Entries} (hn : ∀ e ∈ es, e.1.IsName) {l : Value}
    (hl : ∀ e ∈ es, e.1 ≠ l) (keep : Leaf → Bool) :
    ∀ p ∈ (leavesOf es).filter keep, ∀ k ∈ p.1.head?, k.IsName ∧ k ≠ l := by
  intro p hp k hk
  obtain ⟨e, he, rfl⟩ := head_of_mem_leavesOf (List.mem_filter.1 hp).1 hk
  exact ⟨hn e he, hl e he⟩

theorem not_mem_of_get?_eq_none {es : Entries} {l : Value} (hl : l.IsName)
    (h : es.get? l = none) : ∀ e ∈ es, e.1 ≠ l := by
  rintro e he rfl
  rw [Entries.get?, Option.map_eq_none_iff, List.find?_eq_none] at h
  exact h e he hl.equal_self

/-- The entry under a key, between others that have other keys. -/
theorem exists_split {es : Entries} (hd : Entries.Distinct es) (hn : ∀ e ∈ es, e.1.IsName)
    {l v : Value} (hl : l.IsName) (h : es.get? l = some v) :
    ∃ as bs, es = as ++ (l, v) :: bs ∧ (∀ e ∈ as, e.1 ≠ l) ∧ ∀ e ∈ bs, e.1 ≠ l := by
  obtain ⟨k, hmem, hk⟩ := Entries.mem_of_get?_eq_some h
  have hkl : k = l := ((hn (k, v) hmem).equal_iff hl).1 hk
  subst hkl
  obtain ⟨as, bs, rfl⟩ := List.append_of_mem hmem
  obtain ⟨-, hbs, hcross⟩ := List.pairwise_append.1 hd
  refine ⟨as, bs, rfl, ?_, ?_⟩
  · rintro e he rfl
    have := hcross e he (e.1, v) (List.mem_cons_self ..)
    rw [hl.equal_self] at this
    cases this
  · rintro e he rfl
    have := (List.pairwise_cons.1 hbs).1 e he
    rw [hl.equal_self] at this
    cases this

/-- What stands under a key after some leaves have been left out is what its own leaves put there. -/
theorem exists_get?_placeAll_filter {es : Entries} (hd : Entries.Distinct es)
    (hn : ∀ e ∈ es, e.1.IsName) (keep : Leaf → Bool) {l v : Value} (hl : l.IsName)
    (h : es.get? l = some v) :
    ∃ node : Entries, node.get? l = none ∧ (∀ e ∈ node, e.1.IsName) ∧
      (placeAll [] ((leavesOf es).filter keep)).get? l =
        (placeAll node (((leaves v).map (Leaf.under l)).filter keep)).get? l := by
  obtain ⟨as, bs, rfl, has, hbs⟩ := exists_split hd hn hl h
  have hnas : ∀ e ∈ as, e.1.IsName := fun e he => hn e (List.mem_append_left _ he)
  have hnbs : ∀ e ∈ bs, e.1.IsName := fun e he =>
    hn e (List.mem_append_right _ (List.mem_cons_of_mem _ he))
  have hpas := heads_filter hnas has keep
  have hnode : ∀ e ∈ placeAll [] ((leavesOf as).filter keep), e.1.IsName :=
    isName_placeAll (fun p hp k hk => (hpas p hp k hk).1) (by simp)
  refine ⟨_, get?_placeAll_of_ne hl hpas (by simp), hnode, ?_⟩
  have hheads : ∀ p ∈ ((leaves v).map (Leaf.under l)).filter keep, ∀ k ∈ p.1.head?, k.IsName := by
    intro p hp k hk
    obtain ⟨q, -, rfl⟩ := List.mem_map.1 (List.mem_filter.1 hp).1
    rwa [← Option.some.inj hk]
  have hmid := isName_placeAll hheads hnode
  rw [leavesOf_append, leavesOf, List.filter_append, List.filter_append, placeAll_append,
    placeAll_append, get?_placeAll_of_ne hl (heads_filter hnbs hbs keep) hmid]

/-- **A key under which no leaf is left out keeps its value.** -/
theorem get?_placeAll_filter {es : Entries} (hd : Entries.Distinct es)
    (hn : ∀ e ∈ es, e.1.IsName) (ht : ∀ e ∈ es, Tree e.2) (keep : Leaf → Bool) {l : Value}
    (hl : l.IsName) (hkeep : ∀ p ∈ leavesOf es, p.1.head? = some l → keep p = true) :
    (placeAll [] ((leavesOf es).filter keep)).get? l = es.get? l := by
  cases hget : es.get? l with
  | none =>
    have hne := not_mem_of_get?_eq_none hl hget
    rw [get?_placeAll_of_ne hl (heads_filter hn hne keep) (by simp)]
    rfl
  | some v =>
    obtain ⟨node, hnone, hnode, he⟩ := exists_get?_placeAll_filter hd hn keep hl hget
    obtain ⟨as, bs, rfl, -, -⟩ := exists_split hd hn hl hget
    have hv : Tree v := ht (l, v) (by simp)
    have hall : ((leaves v).map (Leaf.under l)).filter keep = (leaves v).map (Leaf.under l) := by
      refine List.filter_eq_self.2 fun p hp => hkeep p ?_ ?_
      · rw [leavesOf_append, leavesOf]
        exact List.mem_append_right _ (List.mem_append_left _ hp)
      · obtain ⟨q, -, rfl⟩ := List.mem_map.1 hp
        rfl
    have hnew : ∀ e ∈ node, e.1.equal l = false := fun e hmem =>
      (hnode e hmem).equal_eq_false hl (not_mem_of_get?_eq_none hl hnone e hmem)
    rw [he, hall, placeAll_leaves v hv node l hl hnew, Entries.get?_append, hnone,
      Entries.get?_cons, hl.equal_self]
    rfl

/-- The map under a key, where some of its leaves are left out. -/
theorem child_placeAll_filter {es : Entries} (hd : Entries.Distinct es)
    (hn : ∀ e ∈ es, e.1.IsName) (keep : Leaf → Bool) {l : Value} {fs : Entries} (hl : l.IsName)
    (h : es.get? l = some (.map fs)) :
    child (placeAll [] ((leavesOf es).filter keep)) l =
      placeAll [] ((leavesOf fs).filter fun q => keep (q.under l)) := by
  obtain ⟨node, hnone, -, he⟩ := exists_get?_placeAll_filter hd hn keep hl h
  have hchild : child node l = [] := by rw [child, hnone]
  have hfilter : ((leaves (.map fs)).map (Leaf.under l)).filter keep =
      ((leavesOf fs).filter fun q => keep (q.under l)).map (Leaf.under l) := by
    rw [List.filter_map]
    rfl
  rw [hfilter] at he
  rw [child, he]
  cases hqs : (leavesOf fs).filter fun q => keep (q.under l) with
  | nil =>
    rw [List.map_nil, placeAll, List.foldl_nil, hnone]
    rfl
  | cons q qs =>
    rw [placeAll_under hl.equal_self node (List.cons_ne_nil _ _), Entries.get?_insert_self hl.equal_self,
      hchild]
    intro p hp
    rw [← hqs] at hp
    exact path_ne_nil_of_mem_leavesOf (List.mem_filter.1 hp).1

end Listing.Params
