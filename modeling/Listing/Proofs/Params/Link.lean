import Listing.Page
import Listing.Proofs.Params.Canonical

/-!
# Parameters in a link

Parameters that a query string is read as are `Params.IsRead`. If their keys and positions have
texts, the query string of their places is read as the same parameters: `Params.ofPairs_flatten`.
-/

namespace Listing.Params

/-! ## Depth -/

theorem entriesDepth_le_iff {es : Entries} {d : Nat} :
    entriesDepth es ≤ d ↔ ∀ e ∈ es, depth e.2 ≤ d := by
  induction es with
  | nil => simp [entriesDepth]
  | cons e es ih =>
    obtain ⟨k, v⟩ := e
    rw [entriesDepth, Nat.max_le, ih, List.forall_mem_cons]

theorem depth_child (node : Entries) (k : Value) :
    child node k = [] ∨ entriesDepth (child node k) < entriesDepth node := by
  unfold child
  split
  · next es hget =>
    obtain ⟨l, hl, -⟩ := Entries.mem_of_get?_eq_some hget
    have := entriesDepth_le_iff.1 (Nat.le_refl _) _ hl
    rw [depth] at this
    exact .inr (by omega)
  · exact .inl rfl

theorem entriesDepth_insert {es : Entries} {k v : Value} {d : Nat} (hes : entriesDepth es ≤ d)
    (hv : depth v ≤ d) : entriesDepth (es.insert k v) ≤ d := by
  rw [entriesDepth_le_iff] at hes ⊢
  intro e he
  rcases Entries.mem_insert he with he | rfl | ⟨l, w, -, -, rfl⟩
  · exact hes e he
  · exact hv
  · exact hv

theorem entriesDepth_place {d : Nat} {k : Value} {ks : List Value} {node : Entries}
    (hn : entriesDepth node ≤ d) (hks : ks.length ≤ d) (t : String) :
    entriesDepth (place node k ks (.text t)) ≤ d := by
  induction ks generalizing node k d with
  | nil => exact entriesDepth_insert hn (by simp [depth])
  | cons l ls ih =>
    obtain ⟨d, rfl⟩ : ∃ m, d = m + 1 := ⟨d - 1, by simp at hks; omega⟩
    refine entriesDepth_insert hn ?_
    rw [depth, Nat.add_le_add_iff_right]
    refine ih ?_ (by simpa using hks)
    rcases depth_child node k with h | h
    · rw [h]
      exact Nat.zero_le d
    · omega

theorem entriesDepth_placeAll {d : Nat} {ps : List Leaf} (hps : ∀ p ∈ ps, p.1.length ≤ d + 1)
    {node : Entries} (hn : entriesDepth node ≤ d) : entriesDepth (placeAll node ps) ≤ d := by
  induction ps generalizing node with
  | nil => exact hn
  | cons p ps ih =>
    refine ih (fun p hp => hps p (List.mem_cons_of_mem _ hp)) ?_
    obtain ⟨path, s⟩ := p
    cases path with
    | nil => exact hn
    | cons k ks => exact entriesDepth_place hn (by simpa using hps _ (List.mem_cons_self ..)) s

mutual

theorem length_le_of_mem_leaves : (v : Value) → ∀ p ∈ leaves v, p.1.length ≤ depth v
  | .text _, p, h => by
    rw [List.mem_singleton.1 h]
    exact Nat.zero_le _
  | .map es, p, h => length_le_of_mem_leavesOf es p h
  | .null, _, h | .bool _, _, h | .int _, _, h | .binary _, _, h | .decimal _, _, h
  | .bytes _, _, h | .moment _, _, h | .date _, _, h | .list _, _, h | .tuple _, _, h
  | .set _, _, h | .record _, _, h | .choice _, _, h | .request _ _, _, h | .cursor _ _, _, h
  | .finished _ _, _, h | .function _ _, _, h | .object _, _, h => by cases h

theorem length_le_of_mem_leavesOf : (es : List (Value × Value)) →
    ∀ p ∈ leavesOf es, p.1.length ≤ entriesDepth es + 1
  | [], _, h => by cases h
  | (k, v) :: es, p, h => by
    rw [leavesOf, List.mem_append] at h
    rw [entriesDepth]
    rcases h with h | h
    · obtain ⟨q, hq, rfl⟩ := List.mem_map.1 h
      have := length_le_of_mem_leaves v q hq
      simp only [Leaf.under, List.length_cons]
      omega
    · have := length_le_of_mem_leavesOf es p h
      omega

end

mutual

/-- Maps in the place of lists are no deeper than the maps that the lists come from. -/
theorem depth_unlisted_listified : (v : Value) → Tree v → depth (unlisted (listified v)) ≤ depth v
  | .text _, _ => Nat.le_refl _
  | .map es, h => by
    have hes := depth_unlisted_listifiedEntries es h.2.2
    rw [listified, depth]
    rcases asList_cases (listifiedEntries es) with ha | ⟨-, -, vs, ha, -, hget⟩
    · rw [ha, unlisted, depth, Nat.add_le_add_iff_right, unlistedEntries_eq_map,
        entriesDepth_le_iff]
      intro e he
      obtain ⟨f, hf, rfl⟩ := List.mem_map.1 he
      exact hes f hf
    · rw [ha, unlisted, depth, Nat.add_le_add_iff_right, entriesDepth_le_iff]
      intro e he
      obtain ⟨j, -, -, -, hj⟩ := mem_indexed he
      rw [unlistedItems_eq_map] at hj
      obtain ⟨v, hv, hve⟩ := List.mem_map.1 hj
      obtain ⟨i, hi, rfl⟩ := List.mem_iff_getElem.1 hv
      obtain ⟨l, hl, -⟩ := Entries.mem_of_get?_eq_some (hget i hi)
      rw [← hve]
      exact hes _ hl

theorem depth_unlisted_listifiedEntries : (es : List (Value × Value)) → Branches es →
    ∀ e ∈ listifiedEntries es, depth (unlisted e.2) ≤ entriesDepth es
  | [], _, _, h => by cases h
  | (k, v) :: es, h, e, he => by
    rw [entriesDepth]
    rcases List.mem_cons.1 he with rfl | he
    · exact Nat.le_trans (depth_unlisted_listified v h.2.1) (Nat.le_max_left _ _)
    · exact Nat.le_trans (depth_unlisted_listifiedEntries es h.2.2 e he) (Nat.le_max_right _ _)

end

/-! ## Texts of keys -/

theorem entriesWritable_iff {es : Entries} : entriesWritable es = true ↔
    ∀ e ∈ es, e.1.hasText = true ∧ writable e.2 = true := by
  induction es with
  | nil => simp [entriesWritable]
  | cons e es ih =>
    obtain ⟨k, v⟩ := e
    simp [entriesWritable, ih]

theorem allWritable_iff {vs : List Value} :
    allWritable vs = true ↔ ∀ v ∈ vs, writable v = true := by
  induction vs with
  | nil => simp [allWritable]
  | cons v vs ih => simp [allWritable, ih]

mutual

/-- Do all keys in a tree have texts? -/
def Spelled : Value → Prop
  | .map es => SpelledEntries es
  | _ => True

/-- Do all keys of entries and below have texts? -/
def SpelledEntries : List (Value × Value) → Prop
  | [] => True
  | (k, v) :: es => k.hasText = true ∧ Spelled v ∧ SpelledEntries es

end

theorem spelledEntries_iff {es : Entries} :
    SpelledEntries es ↔ ∀ e ∈ es, e.1.hasText = true ∧ Spelled e.2 := by
  induction es with
  | nil => simp [SpelledEntries]
  | cons e es ih =>
    obtain ⟨k, v⟩ := e
    simp [SpelledEntries, ih, and_assoc]

theorem spelled_insert {es : Entries} (h : SpelledEntries es) {k v : Value}
    (hk : k.hasText = true) (hv : Spelled v) : SpelledEntries (es.insert k v) := by
  rw [spelledEntries_iff] at h ⊢
  intro e he
  rcases Entries.mem_insert he with he | rfl | ⟨l, w, hl, -, rfl⟩
  · exact h e he
  · exact ⟨hk, hv⟩
  · exact ⟨(h (l, w) hl).1, hv⟩

theorem spelled_child {node : Entries} (h : SpelledEntries node) (k : Value) :
    SpelledEntries (child node k) := by
  unfold child
  split
  · next es hget =>
    obtain ⟨l, hl, -⟩ := Entries.mem_of_get?_eq_some hget
    exact (spelledEntries_iff.1 h _ hl).2
  · trivial

theorem spelled_place {k : Value} {ks : List Value} (hk : ∀ l ∈ k :: ks, l.hasText = true)
    {node : Entries} (h : SpelledEntries node) (t : String) :
    SpelledEntries (place node k ks (.text t)) := by
  induction ks generalizing node k with
  | nil => exact spelled_insert h (hk k (List.mem_cons_self ..)) trivial
  | cons l ls ih =>
    exact spelled_insert h (hk k (List.mem_cons_self ..))
      (ih (fun m hm => hk m (List.mem_cons_of_mem _ hm)) (spelled_child h k))

/-- Can the leaf be put by its name? -/
def Leaf.IsNamed (p : Leaf) : Prop :=
  ∃ k ks, p.1 = k :: ks ∧ IsPath k ks ∧ ∀ l ∈ k :: ks, l.hasText = true

theorem spelled_placeAll {ps : List Leaf} (hps : ∀ p ∈ ps, p.IsNamed) {node : Entries}
    (h : SpelledEntries node) : SpelledEntries (placeAll node ps) := by
  induction ps generalizing node with
  | nil => exact h
  | cons p ps ih =>
    refine ih (fun p hp => hps p (List.mem_cons_of_mem _ hp)) ?_
    obtain ⟨path, s⟩ := p
    obtain ⟨k, ks, rfl, -, ht⟩ := hps _ (List.mem_cons_self ..)
    exact spelled_place ht h s

mutual

theorem keys_of_mem_leaves : (v : Value) → Tree v → Spelled v → ∀ p ∈ leaves v, ∀ k ∈ p.1,
    IsKey k ∧ k.hasText = true
  | .text _, _, _, p, h => by
    rw [List.mem_singleton.1 h]
    intro k hk
    cases hk
  | .map es, ht, hs, p, h => keys_of_mem_leavesOf es ht.2.2 hs p h

theorem keys_of_mem_leavesOf : (es : List (Value × Value)) → Branches es → SpelledEntries es →
    ∀ p ∈ leavesOf es, ∀ k ∈ p.1, IsKey k ∧ k.hasText = true
  | [], _, _, _, h => by cases h
  | (k, v) :: es, hb, hs, p, h => by
    rw [leavesOf, List.mem_append] at h
    rcases h with h | h
    · obtain ⟨q, hq, rfl⟩ := List.mem_map.1 h
      intro l hl
      rcases List.mem_cons.1 hl with rfl | hl
      · exact ⟨hb.1, hs.1⟩
      · exact keys_of_mem_leaves v hb.2.1 hs.2.1 q hq l hl
    · exact keys_of_mem_leavesOf es hb.2.2 hs.2.2 p h

end

theorem isNamed_of_mem_leavesOf {es : Entries} (hr : Root es) (hs : SpelledEntries es) {p : Leaf}
    (h : p ∈ leavesOf es) : p.IsNamed := by
  obtain ⟨e, he, q, hq, rfl⟩ := exists_of_mem_leavesOf h
  have hse := spelledEntries_iff.1 hs e he
  rcases hr.branch e he with hb | ⟨s, t, rfl, hraw⟩
  · have hkeys := keys_of_mem_leaves e.2 hb.2 hse.2 q hq
    refine ⟨e.1, q.1, rfl, .inl ⟨hb.1, fun l hl => (hkeys l hl).1⟩, fun l hl => ?_⟩
    rcases List.mem_cons.1 hl with rfl | hl
    · exact hse.1
    · exact (hkeys l hl).2
  · rw [List.mem_singleton.1 hq]
    exact ⟨.text s, [], rfl, .inr ⟨rfl, s, rfl, hraw⟩, fun l hl => by
      rw [List.mem_singleton.1 hl]
      exact hse.1⟩

mutual

/-- A tree with the texts of its keys becomes a value that can be written. -/
theorem writable_listified : (v : Value) → Tree v → Spelled v → writable (listified v) = true
  | .text _, _, _ => rfl
  | .map es, ht, hs => by
    have hes := entriesWritable_listified es ht.2.2 hs
    rw [listified]
    rcases asList_cases (listifiedEntries es) with ha | ⟨hne, -, vs, ha, hlen, hget⟩
    · rw [ha]
      simpa [writable, entriesWritable_iff] using hes
    · rw [ha, writable, Bool.and_eq_true, allWritable_iff, decide_eq_true_eq]
      constructor
      · -- the last position is a key that has a text
        have hpos : 0 < vs.length := by
          rw [hlen]
          exact List.length_pos_iff.2 hne
        obtain ⟨l, hl, heq⟩ := Entries.mem_of_get?_eq_some (hget (vs.length - 1) (by omega))
        have hk := (hes _ hl).1
        obtain ⟨w, hw, -⟩ := mem_listifiedEntries.1 hl
        have hname := (branches_iff.1 ht.2.2 _ hw).1.isName
        have hlast : l = .int (vs.length - 1 : Nat) := (hname.equal_iff (Value.isName_int _)).1 heq
        rw [hlast, hasText_natCast] at hk
        omega
      · intro v hv
        obtain ⟨j, hj, rfl⟩ := List.mem_iff_getElem.1 hv
        obtain ⟨l, hl, -⟩ := Entries.mem_of_get?_eq_some (hget j hj)
        exact (hes _ hl).2

theorem entriesWritable_listified : (es : List (Value × Value)) → Branches es →
    SpelledEntries es → ∀ e ∈ listifiedEntries es, e.1.hasText = true ∧ writable e.2 = true
  | [], _, _, _, h => by cases h
  | (k, v) :: es, hb, hs, e, h => by
    rcases List.mem_cons.1 h with rfl | h
    · exact ⟨hs.1, writable_listified v hb.2.1 hs.2.1⟩
    · exact entriesWritable_listified es hb.2.2 hs.2.2 e h

end

mutual

theorem spelled_unlisted : (v : Value) → Canonical v → writable v = true → Spelled (unlisted v)
  | .text _, _, _ => trivial
  | .list vs, hc, hw => by
    rw [writable, Bool.and_eq_true, decide_eq_true_eq] at hw
    exact spelled_indexed vs hc.2 hw.2 0 (by simpa using hw.1)
  | .map es, hc, hw => spelledEntries_unlisted es hc.2.2.2 hw

theorem spelled_indexed : (vs : List Value) → CanonicalItems vs → allWritable vs = true →
    (i : Nat) → i + vs.length ≤ integerLimit → SpelledEntries (indexed i (unlistedItems vs))
  | [], _, _, _, _ => trivial
  | v :: vs, hc, hw, i, hi => by
    rw [allWritable, Bool.and_eq_true] at hw
    rw [List.length_cons] at hi
    exact ⟨hasText_natCast.2 (by omega), spelled_unlisted v hc.1 hw.1,
      spelled_indexed vs hc.2 hw.2 (i + 1) (by omega)⟩

theorem spelledEntries_unlisted : (es : List (Value × Value)) → CanonicalBranches es →
    entriesWritable es = true → SpelledEntries (unlistedEntries es)
  | [], _, _ => trivial
  | (k, v) :: es, hc, hw => by
    rw [entriesWritable, Bool.and_eq_true, Bool.and_eq_true] at hw
    exact ⟨hw.1.1, spelled_unlisted v hc.2.1 hw.1.2, spelledEntries_unlisted es hc.2.2 hw.2⟩

end

/-! ## Parameters that are read -/

/-- Are the parameters what a query string is read as? They are canonical, and no deeper than
parameters may be. -/
structure IsRead (es : Entries) : Prop where
  canonical : CanonicalRoot es
  shallow : entriesDepth (unlistedEntries es) < depthLimit

theorem complete_eq_ok {root : Entries} (hr : Root root) {es : Entries}
    (h : complete root = .ok (.map es)) : es = listifiedEntries root ∧ IsRead es := by
  unfold complete at h
  split at h
  · cases h
  next hd =>
  rw [depth] at hd
  have h : asList (listifiedEntries root) = .map es := Except.ok.inj h
  rcases asList_cases (listifiedEntries root) with ha | ⟨-, -, vs, ha, -⟩
  · obtain rfl : listifiedEntries root = es := Value.map.inj (ha.symm.trans h)
    refine ⟨rfl, canonicalRoot_listified hr h, ?_⟩
    have hle : entriesDepth (unlistedEntries (listifiedEntries root)) ≤ entriesDepth root := by
      rw [unlistedEntries_eq_map, entriesDepth_le_iff]
      intro e he
      obtain ⟨f, hf, rfl⟩ := List.mem_map.1 he
      obtain ⟨v, hv, hfv⟩ := mem_listifiedEntries.1 hf
      rw [hfv]
      exact Nat.le_trans (depth_unlisted_listified v (hr.tree hv))
        (entriesDepth_le_iff.1 (Nat.le_refl _) _ hv)
    omega
  · rw [ha] at h
    cases h

/-- **What pairs of texts are read as is canonical.** -/
theorem isRead_of_ofPairs {ps : List (String × String)} {es : Entries}
    (h : ofPairs (textPairs ps) = .ok (.map es)) : IsRead es := by
  obtain ⟨root, hroot, h⟩ := bind_eq_ok_iff.1 h
  exact (complete_eq_ok (root_tree hroot) h).2

theorem isRead_of_ofQuery {query : String} {es : Entries} (h : ofQuery query = .ok (.map es)) :
    IsRead es :=
  isRead_of_ofPairs (show ofPairs (textPairs (QueryString.parse _)) = _ from h)

theorem spelledEntries_root {es : Entries} (hc : CanonicalRoot es)
    (hw : entriesWritable es = true) : SpelledEntries (unlistedEntries es) := by
  rw [unlistedEntries_eq_map, spelledEntries_iff]
  intro e he
  obtain ⟨f, hf, rfl⟩ := List.mem_map.1 he
  have hwf := entriesWritable_iff.1 hw f hf
  exact ⟨hwf.1, spelled_unlisted _ (hc.canonical hf) hwf.2⟩

theorem entriesWritable_root {es : Entries} (hr : Root es) (hs : SpelledEntries es) :
    entriesWritable (listifiedEntries es) = true := by
  rw [entriesWritable_iff]
  intro e he
  obtain ⟨v, hv, he⟩ := mem_listifiedEntries.1 he
  have hsv := spelledEntries_iff.1 hs _ hv
  exact ⟨hsv.1, he ▸ writable_listified v (hr.tree hv) hsv.2⟩

/-- Pairs that name leaves put the leaves at their paths. -/
theorem tree_pairs {ps : List Leaf} (h : ∀ p ∈ ps, p.IsNamed) :
    tree (textPairs (ps.map Leaf.pair)) = .ok (placeAll [] ps) := by
  have hfold : ∀ (ps : List Leaf) (acc : Entries), (∀ p ∈ ps, p.IsNamed) →
      (textPairs (ps.map Leaf.pair)).foldlM (fun root p => putNamed root p.1 p.2) acc =
        .ok (placeAll acc ps) := by
    intro ps
    induction ps with
    | nil => exact fun acc _ => rfl
    | cons p ps ih =>
      intro acc h
      obtain ⟨path, s⟩ := p
      obtain ⟨k, ks, rfl, hpath, ht⟩ := h _ (List.mem_cons_self ..)
      have hput : putNamed acc (Leaf.pair (k :: ks, s)).1 (.text (Leaf.pair (k :: ks, s)).2) =
          .ok (place acc k ks (.text s)) := putNamed_nameOf hpath ht acc _
      have ih := ih (place acc k ks (.text s)) fun p hp => h p (List.mem_cons_of_mem _ hp)
      rw [List.map_cons, textPairs, List.map_cons, List.foldlM_cons]
      dsimp only
      rw [hput, ok_bind]
      exact ih
  exact hfold ps [] h

theorem flatten_eq_pairs {es : Entries} (h : CanonicalRoot es) :
    flatten es = (leavesOf (unlistedEntries es)).map Leaf.pair := by
  rw [← flatten_unlisted fun e he => h.canonical he, flatten_eq_leaves (root_unlisted h)]

/-- The places of canonical parameters are read as the map in which their lists are maps. -/
theorem ofPairs_flatten_eq {es : Entries} (h : CanonicalRoot es) (hw : entriesWritable es = true) :
    ofPairs (textPairs (flatten es)) = complete (unlistedEntries es) := by
  have hr := root_unlisted h
  have hs := spelledEntries_root h hw
  rw [ofPairs, flatten_eq_pairs h, tree_pairs fun p hp => isNamed_of_mem_leavesOf hr hs hp, ok_bind,
    placeAll_leavesOf hr]

theorem complete_unlisted {es : Entries} (h : CanonicalRoot es) :
    complete (unlistedEntries es) =
      if entriesDepth (unlistedEntries es) < depthLimit then .ok (.map es) else .error .tooDeep := by
  have hback := listifiedEntries_unlisted_root fun e he => h.canonical he
  rw [complete, depth, listified, hback, h.noList]
  by_cases hd : entriesDepth (unlistedEntries es) < depthLimit
  · rw [if_pos hd, if_neg (by omega)]
  · rw [if_neg hd, if_pos (by omega)]

/-- **The places of parameters are read as the parameters.** -/
theorem ofPairs_flatten {es : Entries} (h : IsRead es) (hw : entriesWritable es = true) :
    ofPairs (textPairs (flatten es)) = .ok (.map es) := by
  rw [ofPairs_flatten_eq h.canonical hw, complete_unlisted h.canonical, if_pos h.shallow]

/-! ## One place set anew -/

theorem map_toText_injective {as bs : List Value} (ha : ∀ k ∈ as, IsKey k) (hb : ∀ k ∈ bs, IsKey k)
    (h : as.map Value.toText = bs.map Value.toText) : as = bs := by
  induction as generalizing bs with
  | nil => exact (List.map_eq_nil_iff.1 h.symm).symm
  | cons a as ih =>
    cases bs with
    | nil => cases h
    | cons b bs =>
      obtain ⟨h₁, h₂⟩ := List.cons.inj h
      rw [(ha a (List.mem_cons_self ..)).toText_injective (hb b (List.mem_cons_self ..)) h₁,
        ih (fun k hk => ha k (List.mem_cons_of_mem _ hk))
          (fun k hk => hb k (List.mem_cons_of_mem _ hk)) h₂]

/-- A path is the only one with its name. -/
theorem nameOf_injective {k l : Value} {ks ls : List Value} (hk : IsKey k) (hks : ∀ m ∈ ks, IsKey m)
    (hl : IsPath l ls) (h : nameOf l ls = nameOf k ks) : l = k ∧ ls = ks := by
  have hname := path?_nameOf hk hks
  rw [← h] at hname
  rcases hl with ⟨hl, hls⟩ | ⟨rfl, s, rfl, hs⟩
  · rw [path?_nameOf hl hls] at hname
    obtain ⟨h₁, h₂⟩ := Prod.mk.inj (Option.some.inj hname)
    exact ⟨hl.toText_injective hk h₁, map_toText_injective hls hks h₂⟩
  · have : path? s = _ := hname
    rw [hs] at this
    cases this

/-- Is the leaf at another place than the one with this name? -/
def Leaf.elsewhere (name : String) (p : Leaf) : Bool := decide (pathName p.1 ≠ name)

/-- The root that the places of parameters build, where the one with a name holds a new text. -/
def reset (es : Entries) (k : Value) (ks : List Value) (t : String) : Entries :=
  place (placeAll [] ((leavesOf (unlistedEntries es)).filter (Leaf.elsewhere (nameOf k ks)))) k ks
    (.text t)

/-- Only the leaf at a path has its name. -/
theorem elsewhere_of_ne {es : Entries} (h : CanonicalRoot es) (hw : entriesWritable es = true)
    {k : Value} {ks : List Value} (hk : IsKey k) (hks : ∀ l ∈ ks, IsKey l) {p : Leaf}
    (hp : p ∈ leavesOf (unlistedEntries es)) (hne : p.1 ≠ k :: ks) :
    Leaf.elsewhere (nameOf k ks) p = true := by
  obtain ⟨m, ms, hm, hpath, -⟩ := isNamed_of_mem_leavesOf (root_unlisted h) (spelledEntries_root h hw) hp
  refine decide_eq_true fun heq => ?_
  rw [hm] at heq
  obtain ⟨rfl, rfl⟩ := nameOf_injective hk hks hpath heq
  exact hne hm

theorem noList_of_get? {es : Entries} {s : String} {v : Value}
    (h : Entries.get? es (.text s) = some v) : asList es = .map es := by
  rcases asList_cases es with ha | ⟨-, hall, -⟩
  · exact ha
  · obtain ⟨k, hk, heq⟩ := Entries.mem_of_get?_eq_some h
    have := hall _ hk
    rw [Value.equal_text.1 heq] at this
    cases this

theorem get?_place_text (node : Entries) (s : String) (ks : List Value) (v : Value) :
    ∃ w, (place node (.text s) ks v).get? (.text s) = some w := by
  cases ks with
  | nil => exact ⟨v, Entries.get?_insert_text_self ..⟩
  | cons l ls => exact ⟨_, Entries.get?_insert_text_self ..⟩

theorem isNamed_of_mem_kept {es : Entries} (h : CanonicalRoot es) (hw : entriesWritable es = true)
    (keep : Leaf → Bool) : ∀ p ∈ (leavesOf (unlistedEntries es)).filter keep, p.IsNamed :=
  fun _ hp => isNamed_of_mem_leavesOf (root_unlisted h) (spelledEntries_root h hw)
    (List.mem_filter.1 hp).1

theorem hasText_path {s : String} {ks : List Value} (hks : ∀ l ∈ ks, IsKey l ∧ l.hasText = true) :
    ∀ l ∈ Value.text s :: ks, l.hasText = true := by
  intro l hl
  rcases List.mem_cons.1 hl with rfl | hl
  · rfl
  · exact (hks l hl).2

/-- The places with one of them set anew build a root. -/
theorem tree_reset {es : Entries} (h : CanonicalRoot es) (hw : entriesWritable es = true) {s : String}
    (hs : IsWord s) {ks : List Value} (hks : ∀ l ∈ ks, IsKey l ∧ l.hasText = true) (t : String) :
    tree (textPairs ((flatten es).filter (fun p => p.1 ≠ nameOf (.text s) ks) ++
      [(nameOf (.text s) ks, t)])) = .ok (reset es (.text s) ks t) := by
  have hpath : IsPath (.text s) ks := .inl ⟨isKey_text hs, fun l hl => (hks l hl).1⟩
  let kept := (leavesOf (unlistedEntries es)).filter (Leaf.elsewhere (nameOf (.text s) ks))
  have hpairs : (flatten es).filter (fun p => p.1 ≠ nameOf (.text s) ks) ++
      [(nameOf (.text s) ks, t)] = (kept ++ [(Value.text s :: ks, t)]).map Leaf.pair := by
    rw [flatten_eq_pairs h, List.filter_map, List.map_append]
    rfl
  rw [hpairs, tree_pairs, placeAll_append]
  · rfl
  · intro p hp
    rcases List.mem_append.1 hp with hp | hp
    · exact isNamed_of_mem_kept h hw _ p hp
    · rw [List.mem_singleton.1 hp]
      exact ⟨_, _, rfl, hpath, hasText_path hks⟩

/-- **The places with one of them set anew are read as the root that they build.** -/
theorem ofPairs_reset {es : Entries} (h : IsRead es) (hw : entriesWritable es = true) {s : String}
    (hs : IsWord s) {ks : List Value} (hks : ∀ l ∈ ks, IsKey l ∧ l.hasText = true)
    (hlen : ks.length < depthLimit) (t : String) :
    let es' := listifiedEntries (reset es (.text s) ks t)
    ofPairs (textPairs ((flatten es).filter (fun p => p.1 ≠ nameOf (.text s) ks) ++
      [(nameOf (.text s) ks, t)])) = .ok (.map es') ∧ IsRead es' ∧ entriesWritable es' = true := by
  intro es'
  have htree := tree_reset h.canonical hw hs hks t
  have hroot : Root (reset es (.text s) ks t) := root_tree htree
  have hdepth : entriesDepth (reset es (.text s) ks t) < depthLimit := by
    have hbound : entriesDepth (reset es (.text s) ks t) ≤ depthLimit - 1 := by
      refine entriesDepth_place (entriesDepth_placeAll ?_ (Nat.zero_le _)) (by omega) t
      intro p hp
      have := length_le_of_mem_leavesOf _ p (List.mem_filter.1 hp).1
      have := h.shallow
      omega
    have : 0 < depthLimit := by decide
    omega
  obtain ⟨w, hget⟩ := get?_place_text
    (placeAll [] ((leavesOf (unlistedEntries es)).filter (Leaf.elsewhere (nameOf (.text s) ks)))) s
    ks (.text t)
  have hnoList : asList es' = .map es' := by
    refine noList_of_get? (s := s) (v := listified w) ?_
    rw [get?_listifiedEntries]
    exact congrArg (Option.map listified) hget
  have hcomplete : complete (reset es (.text s) ks t) = .ok (.map es') := by
    rw [complete, depth, if_neg (by omega), listified, hnoList]
  refine ⟨?_, (complete_eq_ok hroot hcomplete).2, ?_⟩
  · rw [ofPairs, htree, ok_bind, hcomplete]
  · have hspelled : SpelledEntries [] := trivial
    exact entriesWritable_root hroot
      (spelled_place (hasText_path hks) (spelled_placeAll (isNamed_of_mem_kept h.canonical hw _)
        hspelled) t)

/-- Other parameters stay as they are. -/
theorem get?_reset_of_ne {es : Entries} (h : IsRead es) (hw : entriesWritable es = true)
    {s : String} (hs : IsWord s) {ks : List Value} (hks : ∀ l ∈ ks, IsKey l) (t : String)
    {l : Value} (hname : l.IsName) (hl : l ≠ .text s) :
    Entries.get? (listifiedEntries (reset es (.text s) ks t)) l = Entries.get? es l := by
  have hr := root_unlisted h.canonical
  have hkeep : ∀ p ∈ leavesOf (unlistedEntries es), p.1.head? = some l →
      Leaf.elsewhere (nameOf (.text s) ks) p = true := by
    intro p hp hhead
    refine elsewhere_of_ne h.canonical hw (isKey_text hs) hks hp fun heq => ?_
    rw [heq] at hhead
    exact hl (Option.some.inj hhead).symm
  have hnode : ∀ e ∈ placeAll [] ((leavesOf (unlistedEntries es)).filter
      (Leaf.elsewhere (nameOf (.text s) ks))), e.1.IsName := by
    refine isName_placeAll (fun p hp k hk => ?_) (by simp)
    obtain ⟨e, he, rfl⟩ := head_of_mem_leavesOf (List.mem_filter.1 hp).1 hk
    exact hr.isName e he
  rw [get?_listifiedEntries, reset, get?_place_of_ne hnode (Value.isName_text s) hname hl.symm,
    get?_placeAll_filter hr.distinct hr.isName (fun e he => hr.tree he) _ hname hkeep,
    ← get?_listifiedEntries, listifiedEntries_unlisted_root fun e he => h.canonical.canonical he]

/-- The parameter itself holds the new text. -/
theorem get?_reset_self (es : Entries) (s t : String) :
    Entries.get? (listifiedEntries (reset es (.text s) [] t)) (.text s) = some (.text t) := by
  rw [get?_listifiedEntries, reset, place, Entries.get?_insert_text_self]
  rfl

theorem child_eq_nil {node : Entries} {k : Value} (h : ∀ es, node.get? k ≠ some (.map es)) :
    child node k = [] := by
  unfold child
  split
  · next es hget => exact absurd hget (h es)
  · rfl

/-- What a map becomes holds the same under a text, or nothing if it becomes a list. -/
theorem get?_child_listified {node : Entries} {k : Value} (fs : Entries)
    (h : node.get? k = some (asList (listifiedEntries fs))) (l : String) :
    Entries.get? (child node k) (.text l) = Entries.get? (listifiedEntries fs) (.text l) := by
  rcases asList_cases (listifiedEntries fs) with ha | ⟨-, hall, vs, ha, -⟩
  · rw [child, h, ha]
  · have hnil : child node k = [] := by
      refine child_eq_nil fun es he => ?_
      rw [h, ha] at he
      cases he
    rw [hnil, Entries.get?_nil]
    cases hget : Entries.get? (listifiedEntries fs) (.text l) with
    | none => rfl
    | some v =>
      obtain ⟨m, hm, heq⟩ := Entries.mem_of_get?_eq_some hget
      have := hall _ hm
      rw [Value.equal_text.1 heq] at this
      cases this

/-- In the place of lists there are maps, which hold nothing under texts. -/
theorem get?_child_unlisted {es : Entries} (h : CanonicalRoot es) (k : Value) (l : String) :
    Entries.get? (listifiedEntries (child (unlistedEntries es) k)) (.text l) =
      Entries.get? (child es k) (.text l) := by
  have hback : es.get? k = ((unlistedEntries es).get? k).map listified := by
    rw [← get?_listifiedEntries, listifiedEntries_unlisted_root fun e he => h.canonical he]
  by_cases hmap : ∃ fs, (unlistedEntries es).get? k = some (.map fs)
  · obtain ⟨fs, hfs⟩ := hmap
    rw [hfs] at hback
    rw [get?_child_listified fs hback, child, hfs]
  · have hes : ∀ fs, es.get? k ≠ some (.map fs) := by
      intro fs hfs
      rw [hback] at hfs
      obtain ⟨v, hv, hvm⟩ := Option.map_eq_some_iff.1 hfs
      cases v with
      | map gs => exact hmap ⟨gs, hv⟩
      | _ => cases hvm
    rw [child_eq_nil fun fs hfs => hmap ⟨fs, hfs⟩, child_eq_nil hes]
    rfl

section Siblings

variable {es : Entries} {s c : String}

/-- The map under `s` without the leaf at `c` holds what it held under other keys. -/
theorem get?_child_filter_map (h : CanonicalRoot es) (hw : entriesWritable es = true)
    (hs : IsWord s) (hc : IsWord c) {l : Value} (hname : l.IsName) (hl : l ≠ .text c) {fs : Entries}
    (hfs : Entries.get? (unlistedEntries es) (.text s) = some (.map fs)) :
    Entries.get? (child (placeAll [] ((leavesOf (unlistedEntries es)).filter
      (Leaf.elsewhere (nameOf (.text s) [.text c])))) (.text s)) l = Entries.get? fs l := by
  have hr := root_unlisted h
  obtain ⟨k, hk, heq⟩ := Entries.mem_of_get?_eq_some hfs
  obtain ⟨-, hd, hb⟩ := hr.tree hk
  rw [branches_iff] at hb
  have hkeep : ∀ q ∈ leavesOf fs, q.1.head? = some l →
      Leaf.elsewhere (nameOf (.text s) [.text c]) (q.under (.text s)) = true := by
    intro q hq hhead
    have hmem : q.under (.text s) ∈ leavesOf (unlistedEntries es) := by
      obtain ⟨as, bs, hsplit, -⟩ := exists_split hr.distinct hr.isName (Value.isName_text s) hfs
      rw [hsplit, leavesOf_append, leavesOf]
      exact List.mem_append_right _ (List.mem_append_left _ (List.mem_map_of_mem hq))
    refine elsewhere_of_ne h hw (isKey_text hs) (List.forall_mem_singleton.2 (isKey_text hc)) hmem
      fun hpath => ?_
    have hq1 : q.1 = [.text c] := (List.cons.inj hpath).2
    rw [hq1] at hhead
    exact hl (Option.some.inj hhead).symm
  rw [child_placeAll_filter hr.distinct hr.isName _ (Value.isName_text s) hfs,
    get?_placeAll_filter hd (fun e he => (hb e he).1.isName) (fun e he => (hb e he).2) _ hname hkeep]

/-- No leaf is one step below a key that holds no map. -/
theorem ne_of_not_map (h : CanonicalRoot es)
    (hne : ∀ fs, Entries.get? (unlistedEntries es) (.text s) ≠ some (.map fs)) {p : Leaf}
    (hp : p ∈ leavesOf (unlistedEntries es)) (k : Value) : p.1 ≠ [.text s, k] := by
  have hr := root_unlisted h
  intro hpath
  obtain ⟨e, he, q, hq, rfl⟩ := exists_of_mem_leavesOf hp
  obtain ⟨hkey, hrest⟩ := List.cons.inj hpath
  have hget := Entries.get?_eq_some_of_mem hr.isName hr.distinct (k := e.1) (v := e.2) he
  have htree := hr.tree he
  rw [hkey] at hget
  cases hv : e.2 with
  | text t =>
    rw [hv] at hq
    rw [List.mem_singleton.1 hq] at hrest
    cases hrest
  | map fs => exact hne fs (hv ▸ hget)
  | _ =>
    rw [hv] at htree
    exact htree

/-- Where there is no map under `s`, none is left when the leaf at `c` is taken out. -/
theorem child_filter_eq_nil (h : CanonicalRoot es) (hw : entriesWritable es = true) (hs : IsWord s)
    (hc : IsWord c) (hne : ∀ fs, Entries.get? (unlistedEntries es) (.text s) ≠ some (.map fs)) :
    child (placeAll [] ((leavesOf (unlistedEntries es)).filter
      (Leaf.elsewhere (nameOf (.text s) [.text c])))) (.text s) = [] := by
  have hr := root_unlisted h
  have hkeep : ∀ p ∈ leavesOf (unlistedEntries es), p.1.head? = some (.text s) →
      Leaf.elsewhere (nameOf (.text s) [.text c]) p = true := fun p hp _ =>
    elsewhere_of_ne h hw (isKey_text hs) (List.forall_mem_singleton.2 (isKey_text hc)) hp
      (ne_of_not_map h hne hp _)
  have hsame := get?_placeAll_filter hr.distinct hr.isName (fun e he => hr.tree he)
    (Leaf.elsewhere (nameOf (.text s) [.text c])) (Value.isName_text s) hkeep
  exact child_eq_nil fun fs => by rw [hsame]; exact hne fs

/-- What is under `s` holds the same under other keys without the leaf at `c`. -/
theorem get?_child_filter (h : CanonicalRoot es) (hw : entriesWritable es = true) (hs : IsWord s)
    (hc : IsWord c) {l : Value} (hname : l.IsName) (hl : l ≠ .text c) :
    Entries.get? (child (placeAll [] ((leavesOf (unlistedEntries es)).filter
      (Leaf.elsewhere (nameOf (.text s) [.text c])))) (.text s)) l =
      Entries.get? (child (unlistedEntries es) (.text s)) l := by
  by_cases hmap : ∃ fs, Entries.get? (unlistedEntries es) (.text s) = some (.map fs)
  · obtain ⟨fs, hfs⟩ := hmap
    rw [get?_child_filter_map h hw hs hc hname hl hfs, child, hfs]
  · have hne : ∀ fs, Entries.get? (unlistedEntries es) (.text s) ≠ some (.map fs) :=
      fun fs hfs => hmap ⟨fs, hfs⟩
    rw [child_filter_eq_nil h hw hs hc hne, child_eq_nil hne]

end Siblings

/-- **A parameter in a map holds the new text**, and the map stays as it is under other keys, with maps
in the place of lists until it is listified. -/
theorem exists_get?_reset {es : Entries} (h : CanonicalRoot es) (hw : entriesWritable es = true)
    {s c : String} (hs : IsWord s) (hc : IsWord c) (t : String) :
    ∃ bucket, Entries.get? (listifiedEntries (reset es (.text s) [.text c] t)) (.text s) =
        some (.map bucket) ∧ Entries.get? bucket (.text c) = some (.text t) ∧
      ∀ l : Value, l.IsName → l ≠ .text c → Entries.get? bucket l =
        Entries.get? (listifiedEntries (child (unlistedEntries es) (.text s))) l := by
  let node := placeAll [] ((leavesOf (unlistedEntries es)).filter
    (Leaf.elsewhere (nameOf (.text s) [.text c])))
  have hself : Entries.get? ((child node (.text s)).insert (.text c) (.text t)) (.text c) =
      some (.text t) := Entries.get?_insert_text_self ..
  have hbucket : Entries.get? (listifiedEntries ((child node (.text s)).insert (.text c) (.text t)))
      (.text c) = some (.text t) := by
    rw [get?_listifiedEntries, hself]
    rfl
  refine ⟨listifiedEntries ((child node (.text s)).insert (.text c) (.text t)), ?_, hbucket, ?_⟩
  · rw [get?_listifiedEntries, reset, place, Entries.get?_insert_text_self, Option.map_some, listified,
      place]
    exact congrArg some (noList_of_get? hbucket)
  · intro l hname hl
    rw [get?_listifiedEntries, Entries.get?_insert_text_of_ne hl,
      get?_child_filter h hw hs hc hname hl, get?_listifiedEntries]

end Listing.Params
