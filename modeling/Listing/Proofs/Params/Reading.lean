import Listing.Proofs.Params.Link

/-!
# What a query string is read as

A query string is read as a map, as a list, or not at all, and its names alone decide which
(`Params.ofQuery_outcomes`):

* a name with a segment of digits that is no number (`Unreadable`) is a fault of the value,
* maps at more levels than parameters may have (`Deep`) are too deep, which takes a name with that
  many segments (`exists_nested_of_deep`),
* otherwise the parameters are a list if the keys that the names put into the root (`rootKey?`)
  count up from zero, and a map if they do not.
-/

namespace Listing.Params

/-! ## Segments that are no numbers -/

/-- Is the segment made of digits that are no number, because one of them is in no decimal system or
because they are too many? -/
structure Numberless (s : String) : Prop where
  nonempty : s.toList ≠ []
  digits : s.toList.all Text.isDigit = true
  fails : (∃ c ∈ s.toList, Text.digitValue? c = none) ∨ Number.maxDigits < s.toList.length

/-- Does the name write a path with such a segment? -/
def Unreadable (name : String) : Prop :=
  ∃ head segments, path? name = some (head, segments) ∧ ∃ s ∈ head :: segments, Numberless s

theorem segmentKey_eq_error_iff {node : Entries} {s : String} {e : Error} :
    segmentKey node s = .error e ↔ Numberless s ∧ e = .badValue := by
  unfold segmentKey
  split
  · next hempty =>
    have hnil : s.toList = [] := List.isEmpty_iff.1 hempty
    exact iff_of_false (by simp) fun h => h.1.nonempty hnil
  next hne =>
  have hne : s.toList ≠ [] := by simpa using hne
  split
  · next hd =>
    rw [show Numberless s ↔ Number.readInteger? s = none from
      ⟨fun h => (Number.readInteger?_eq_none_iff hne hd).2 h.fails,
        fun h => ⟨hne, hd, (Number.readInteger?_eq_none_iff hne hd).1 h⟩⟩]
    cases Number.readInteger? s <;> simp [eq_comm]
  · next hd => exact iff_of_false (by simp) fun h => hd h.1.digits

theorem put_eq_error_iff {segments : List String} {node : Entries} {s : String} {v : Value}
    {e : Error} :
    put node s segments v = .error e ↔ (∃ t ∈ s :: segments, Numberless t) ∧ e = .badValue := by
  induction segments generalizing node s with
  | nil => simp [put, bind_eq_error_iff, segmentKey_eq_error_iff]
  | cons next rest ih =>
    rw [put, bind_eq_error_iff, segmentKey_eq_error_iff]
    constructor
    · rintro (⟨hs, he⟩ | ⟨k, -, h⟩)
      · exact ⟨⟨s, List.mem_cons_self .., hs⟩, he⟩
      · rcases bind_eq_error_iff.1 h with h | ⟨inner, -, h⟩
        · obtain ⟨⟨t, ht, hn⟩, he⟩ := ih.1 h
          exact ⟨⟨t, List.mem_cons_of_mem _ ht, hn⟩, he⟩
        · cases h
    · rintro ⟨⟨t, ht, hn⟩, he⟩
      rcases List.mem_cons.1 ht with rfl | ht
      · exact .inl ⟨hn, he⟩
      · cases hk : segmentKey node s with
        | error e' =>
          obtain ⟨hs, -⟩ := segmentKey_eq_error_iff.1 hk
          exact .inl ⟨hs, he⟩
        | ok k => exact .inr ⟨k, rfl, bind_eq_error_iff.2 (.inl (ih.2 ⟨⟨t, ht, hn⟩, he⟩))⟩

theorem putNamed_eq_error_iff {root : Entries} {name : String} {v : Value} {e : Error} :
    putNamed root name v = .error e ↔ Unreadable name ∧ e = .badValue := by
  unfold putNamed Unreadable
  cases path? name with
  | none => simp
  | some path =>
    obtain ⟨head, segments⟩ := path
    simp only [put_eq_error_iff, Option.some.injEq, Prod.mk.injEq]
    constructor
    · rintro ⟨hs, he⟩
      exact ⟨⟨head, segments, ⟨rfl, rfl⟩, hs⟩, he⟩
    · rintro ⟨⟨_, _, ⟨rfl, rfl⟩, hs⟩, he⟩
      exact ⟨hs, he⟩

/-- Can one of the names not be read? -/
def Refused (ps : List (String × String)) : Prop := ∃ p ∈ ps, Unreadable p.1

/-- **A name that cannot be read is the only fault** while pairs are put in their places. -/
theorem tree_eq_error_iff {ps : List (String × String)} {e : Error} :
    tree (textPairs ps) = .error e ↔ Refused ps ∧ e = .badValue := by
  rw [tree, textPairs, List.foldlM_map]
  exact foldlM_eq_error_iff (P := fun p : String × String => Unreadable p.1)
    fun _ _ _ => putNamed_eq_error_iff

/-! ## The keys of the root -/

/-- The key that a name puts something under in the root. -/
def rootKey? (name : String) : Option Value :=
  match path? name with
  | none => some (.text name)
  | some (head, _) =>
    if head.toList.all Text.isDigit then (Number.readInteger? head).map .int else some (.text head)

theorem head_ne_nil_of_path? {name head : String} {segments : List String}
    (h : path? name = some (head, segments)) : head.toList ≠ [] := by
  unfold path? at h
  dsimp only at h
  split at h
  · cases h
  next hne =>
  obtain ⟨segs, -, he⟩ := Option.map_eq_some_iff.1 h
  obtain ⟨rfl, -⟩ := Prod.mk.inj he
  simpa using hne

theorem rootKey?_of_path {name head : String} {segments : List String}
    (h : path? name = some (head, segments)) {node : Entries} {k : Value}
    (hk : segmentKey node head = .ok k) : rootKey? name = some k := by
  have hne : head.toList.isEmpty = false := List.isEmpty_eq_false_iff.2 (head_ne_nil_of_path? h)
  rw [segmentKey, hne, if_neg Bool.false_ne_true] at hk
  simp only [rootKey?, h]
  split at hk
  · next hd =>
    rw [if_pos hd]
    split at hk
    · next n hn =>
      obtain rfl := Except.ok.inj hk
      rw [hn]
      rfl
    · cases hk
  · next hd =>
    rw [if_neg hd]
    exact congrArg some (Except.ok.inj hk)

theorem put_eq_insert {node : Entries} {s : String} {segments : List String} {v : Value}
    {result : Entries} (h : put node s segments v = .ok result) :
    ∃ k w, segmentKey node s = .ok k ∧ result = node.insert k w := by
  cases segments with
  | nil =>
    obtain ⟨k, hk, h⟩ := bind_eq_ok_iff.1 h
    exact ⟨k, v, hk, (Except.ok.inj h).symm⟩
  | cons next rest =>
    obtain ⟨k, hk, h⟩ := bind_eq_ok_iff.1 h
    obtain ⟨inner, -, h⟩ := bind_eq_ok_iff.1 h
    exact ⟨k, .map inner, hk, (Except.ok.inj h).symm⟩

/-- Putting a value where a name writes it puts it under the key of the name. -/
theorem mem_keys_putNamed {root : Entries} (hr : Root root) {name : String} {v : Value}
    {result : Entries} (h : putNamed root name v = .ok result) (k : Value) :
    k ∈ result.keys ↔ k ∈ root.keys ∨ rootKey? name = some k := by
  unfold putNamed at h
  split at h
  · next hname =>
    obtain rfl := Except.ok.inj h
    rw [Entries.mem_keys_insert hr.isName (Value.isName_text name), rootKey?, hname]
    simp [eq_comm]
  · next head segments hname =>
    obtain ⟨l, w, hl, rfl⟩ := put_eq_insert h
    have hhead := unbracketed_of_path? hname head (List.mem_cons_self ..)
    rw [Entries.mem_keys_insert hr.isName (isKey_of_segmentKey hr.natural hhead hl).isName,
      rootKey?_of_path hname hl]
    simp [eq_comm]

theorem mem_keys_tree {ps : List (String × String)} {root : Entries}
    (h : tree (textPairs ps) = .ok root) :
    ∀ k, k ∈ root.keys ↔ ∃ p ∈ ps, rootKey? p.1 = some k := by
  refine tree_induction
    (P := fun ps root => ∀ k, k ∈ root.keys ↔ ∃ p ∈ ps, rootKey? p.1 = some k)
    (by simp [Entries.keys]) ?_ h
  intro ps p acc root hacc ih hput k
  rw [mem_keys_putNamed (root_tree hacc) hput, ih]
  simp only [List.mem_append, List.mem_singleton, or_and_right, exists_or, exists_eq_left]

/-! ## Depth -/

/-- The number of segments in brackets that a name writes. -/
def nesting (name : String) : Nat :=
  match path? name with
  | none => 0
  | some (_, segments) => segments.length

theorem entriesDepth_put {segments : List String} {node : Entries} {s : String} {t : String}
    {result : Entries} (h : put node s segments (.text t) = .ok result) {d : Nat}
    (hn : entriesDepth node ≤ d) (hs : segments.length ≤ d) : entriesDepth result ≤ d := by
  induction segments generalizing node s result d with
  | nil =>
    obtain ⟨k, -, h⟩ := bind_eq_ok_iff.1 h
    obtain rfl := Except.ok.inj h
    exact entriesDepth_insert hn (Nat.zero_le d)
  | cons next rest ih =>
    obtain ⟨k, -, h⟩ := bind_eq_ok_iff.1 h
    obtain ⟨inner, hinner, h⟩ := bind_eq_ok_iff.1 h
    obtain rfl := Except.ok.inj h
    obtain ⟨d, rfl⟩ : ∃ m, d = m + 1 := ⟨d - 1, by simp at hs; omega⟩
    refine entriesDepth_insert hn ?_
    rw [depth, Nat.add_le_add_iff_right]
    refine ih hinner ?_ (by simpa using hs)
    rcases depth_child node k with hc | hc
    · rw [hc]
      exact Nat.zero_le d
    · omega

theorem entriesDepth_putNamed {root : Entries} {name t : String} {result : Entries}
    (h : putNamed root name (.text t) = .ok result) {d : Nat} (hr : entriesDepth root ≤ d)
    (hn : nesting name ≤ d) : entriesDepth result ≤ d := by
  unfold putNamed at h
  unfold nesting at hn
  split at h
  · obtain rfl := Except.ok.inj h
    exact entriesDepth_insert hr (Nat.zero_le d)
  · next hname =>
    rw [hname] at hn
    exact entriesDepth_put h hr hn

/-- Do the pairs build maps at more levels than parameters may have? -/
def Deep (ps : List (String × String)) : Prop :=
  ∃ root, tree (textPairs ps) = .ok root ∧ depthLimit ≤ entriesDepth root

/-- **Only names with many segments build deep maps.** -/
theorem exists_nested_of_deep {ps : List (String × String)} (h : Deep ps) :
    ∃ p ∈ ps, depthLimit ≤ nesting p.1 := by
  obtain ⟨root, htree, hdeep⟩ := h
  by_contra hnone
  simp only [not_exists, not_and, Nat.not_le] at hnone
  have hshallow : entriesDepth root ≤ depthLimit - 1 := by
    refine tree_induction (P := fun ps root => (∀ p ∈ ps, nesting p.1 < depthLimit) →
      entriesDepth root ≤ depthLimit - 1) (fun _ => Nat.zero_le _) ?_ htree hnone
    intro ps p acc root _ ih hput hps
    have hp : nesting p.1 < depthLimit := hps p (by simp)
    exact entriesDepth_putNamed hput (ih fun q hq => hps q (List.mem_append_left _ hq)) (by omega)
  have : 0 < depthLimit := by decide
  omega

/-! ## Outcomes -/

/-- A root is too deep, becomes a list, or becomes a map. -/
theorem complete_outcomes {root : Entries} (hr : Root root) :
    depthLimit ≤ entriesDepth root ∧ complete root = .error .tooDeep ∨
    entriesDepth root < depthLimit ∧
      (CountUp root.keys ∧ (∃ vs, complete root = .ok (.list vs)) ∨
        ¬ CountUp root.keys ∧ ∃ es, complete root = .ok (.map es)) := by
  unfold complete
  by_cases hd : depthLimit ≤ entriesDepth root
  · exact .inl ⟨hd, if_pos (Nat.lt_add_one_of_le hd)⟩
  · have hshallow : ¬ depthLimit < depth (.map root) := by
      rw [depth]
      omega
    have hname : ∀ e ∈ listifiedEntries root, e.1.IsName := by
      intro e he
      obtain ⟨v, hv, -⟩ := mem_listifiedEntries.1 he
      exact hr.isName (e.1, v) hv
    have hlist := asList_eq_list_iff hname (distinct_listifiedEntries hr.distinct)
    rw [keys_listifiedEntries] at hlist
    rw [if_neg hshallow, listified, ← hlist]
    refine .inr ⟨Nat.lt_of_not_le hd, ?_⟩
    rcases asList_cases (listifiedEntries root) with h | ⟨-, -, vs, h, -⟩
    · exact .inr ⟨by simp [h], _, congrArg Except.ok h⟩
    · exact .inl ⟨⟨vs, h⟩, vs, congrArg Except.ok h⟩

/-- The pairs of a query string, with or without question marks in front. -/
def fields (query : String) : List (String × String) :=
  QueryString.parse (String.ofList (query.toList.dropWhile (· == '?')))

/-- The keys that the names of a query string put something under in the root. -/
def rootKeys (query : String) : List Value := (fields query).filterMap fun p => rootKey? p.1

/-- **What a query string is read as** is decided by its names: one that cannot be read is a fault
of the value, too many levels are too deep, and the rest is a list if the keys in the root count up
from zero, and a map otherwise. -/
theorem ofQuery_outcomes (query : String) :
    ofRequest (.text query) = ofQuery query ∧
    (ofQuery query = .error .badValue ↔ Refused (fields query)) ∧
    (ofQuery query = .error .tooDeep ↔ ¬ Refused (fields query) ∧ Deep (fields query)) ∧
    ((∃ vs, ofQuery query = .ok (.list vs)) ↔
      ¬ Refused (fields query) ∧ ¬ Deep (fields query) ∧ CountUp (rootKeys query)) ∧
    ((∃ es, ofQuery query = .ok (.map es)) ↔
      ¬ Refused (fields query) ∧ ¬ Deep (fields query) ∧ ¬ CountUp (rootKeys query)) := by
  refine ⟨rfl, ?_⟩
  have hq : ofQuery query = (tree (textPairs (fields query)) >>= complete) := rfl
  cases htree : tree (textPairs (fields query)) with
  | error e =>
    obtain ⟨hrefused, rfl⟩ := tree_eq_error_iff.1 htree
    rw [hq, htree, error_bind]
    simp [hrefused]
  | ok root =>
    have hrefused : ¬ Refused (fields query) := by
      intro hrefused
      have := tree_eq_error_iff.2 ⟨hrefused, rfl⟩
      rw [htree] at this
      cases this
    have hdeep : Deep (fields query) ↔ depthLimit ≤ entriesDepth root := by simp [Deep, htree]
    have hkeys : CountUp (rootKeys query) ↔ CountUp root.keys := by
      simp only [CountUp, rootKeys, List.mem_filterMap, mem_keys_tree htree]
    rw [hq, htree, ok_bind, hdeep, hkeys]
    rcases complete_outcomes (root_tree htree) with ⟨hd, h⟩ | ⟨hd, ⟨hc, vs, h⟩ | ⟨hc, es, h⟩⟩
    · simp [h, hrefused, hd]
    · simp [h, hrefused, hc, Nat.not_le.2 hd]
    · simp [h, hrefused, hc, Nat.not_le.2 hd]

/-- A key of digits alone makes a list of the root. -/
example : ofQuery "0=a" = .ok (.list [.text "a"]) := by cbv

/-- A superscript is a digit and no number. -/
example : ofQuery "a[²]=x" = .error .badValue := by rfl

end Listing.Params
