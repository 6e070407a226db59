import Listing.Proofs.Params.Grammar

/-!
# What one more pair changes

A pair whose name writes a path puts its text where the path leads, and every leaf that is neither on
the way there nor below stays as it was (`Params.ofPairs_concat`). The path is found in the parameters
as they were before (`Params.Leads`): an empty segment counts one beyond the greatest number there, so
that it never leads to something that is there already.

The pair changes nested maps, of which some have become lists in the parameters. Looking up places
does not tell the two apart: `Params.valueAt?_listified`.
-/

namespace Listing.Params

/-! ## Places -/

/-- What a value holds under a word or a number: an entry of a map, or the item of a list at a
position. -/
def under? : Value → Value → Option Value
  | .map es, .text s => Entries.get? es (.text s)
  | .map es, .int n => Entries.get? es (.int n)
  | .list vs, .int (.ofNat i) => vs[i]?
  | _, _ => none

/-- What a value holds at the place that keys lead to. -/
def valueAt? (v : Value) : List Value → Option Value
  | [] => some v
  | k :: ks => (under? v k).bind fun w => valueAt? w ks

/-- Is it the number after the greatest one under which the value holds something, or zero if there
is none? -/
structure IsNext (v : Value) (n : Int) : Prop where
  nonneg : 0 ≤ n
  above : ∀ i : Int, (under? v (.int i)).isSome = true → i < n
  least : n = 0 ∨ (under? v (.int (n - 1))).isSome = true

/-- The key that a segment stands for below a value. -/
inductive StandsFor (v : Value) : String → Value → Prop
  | next {n : Int} (hn : IsNext v n) : StandsFor v "" (.int n)
  | number {s : String} {n : Int} (hne : s ≠ "") (hdigits : ∀ c ∈ s.toList, Text.isDigit c = true)
    (hread : Number.readInteger? s = some n) : StandsFor v s (.int n)
  | word {s : String} (hword : ∃ c ∈ s.toList, Text.isDigit c = false) : StandsFor v s (.text s)

/-- The path that segments write below a value, each key found in what stands there. -/
inductive Leads : Value → List String → List Value → Prop
  | nil {v : Value} : Leads v [] []
  | cons {v : Value} {s : String} {k : Value} {segments : List String} {ks : List Value}
    (hk : StandsFor v s k) (hks : Leads ((under? v k).getD .null) segments ks) :
    Leads v (s :: segments) (k :: ks)

theorem under?_map {k : Value} (hk : k.IsName) (es : Entries) : under? (.map es) k = es.get? k := by
  rcases hk with ⟨s, rfl⟩ | ⟨n, rfl⟩ <;> rfl

theorem isName_of_under? {v k w : Value} (h : under? v k = some w) : k.IsName := by
  unfold under? at h
  split at h
  · exact Value.isName_text _
  · exact Value.isName_int _
  · exact Value.isName_int _
  · cases h

theorem StandsFor.isName {v k : Value} {s : String} (h : StandsFor v s k) : k.IsName := by
  cases h with
  | next => exact Value.isName_int _
  | number => exact Value.isName_int _
  | word => exact Value.isName_text _

theorem Leads.isName {v : Value} {segments : List String} {ks : List Value}
    (h : Leads v segments ks) : ∀ k ∈ ks, k.IsName := by
  induction h with
  | nil => exact fun k hk => absurd hk List.not_mem_nil
  | cons hk _ ih => exact List.forall_mem_cons.2 ⟨hk.isName, ih⟩

/-- A path depends on nothing but what values hold under keys. -/
theorem StandsFor.congr {v w : Value} {s : String} {k : Value} (h : StandsFor v s k)
    (he : ∀ l, (under? w l).isSome = (under? v l).isSome) : StandsFor w s k := by
  cases h with
  | next hn =>
    exact .next ⟨hn.nonneg, fun i hi => hn.above i (by rwa [← he]), hn.least.imp_right fun hi => by
      rwa [he]⟩
  | number hne hdigits hread => exact .number hne hdigits hread
  | word hword => exact .word hword

theorem Leads.congr {v w : Value} {segments : List String} {ks : List Value}
    (h : Leads v segments ks) (he : ∀ l, under? w l = under? v l) : Leads w segments ks := by
  cases h with
  | nil => exact .nil
  | @cons _ s k segments ks hk hks =>
    refine .cons (hk.congr fun l => by rw [he]) ?_
    rwa [he]

/-- **Counting on leads to a place that is free.** -/
theorem Leads.free {v : Value} {segments : List String} {ks : List Value}
    (h : Leads v segments ks) (hlast : segments.getLast? = some "") : valueAt? v ks = none := by
  induction h with
  | nil => cases hlast
  | @cons v s k segments ks hk hks ih =>
    rw [valueAt?]
    cases hunder : under? v k with
    | none => rfl
    | some w =>
      cases segments with
      | nil =>
        obtain rfl : s = "" := by simpa using hlast
        cases hk with
        | next hn =>
          have := hn.above _ (by rw [hunder]; rfl)
          omega
        | number hne => exact absurd rfl hne
        | word hword => simp at hword
      | cons t segments =>
        rw [hunder] at ih
        exact ih (by simpa using hlast)

theorem valueAt?_append (v : Value) (ks ls : List Value) :
    valueAt? v (ks ++ ls) = (valueAt? v ks).bind fun w => valueAt? w ls := by
  induction ks generalizing v with
  | nil => rfl
  | cons k ks ih =>
    rw [List.cons_append, valueAt?, valueAt?]
    cases under? v k with
    | none => rfl
    | some w => exact ih w

/-! ## Maps that names build -/

/-- Are the entries those of a map that names build, at the root or below: distinct words and
natural numbers as keys, and trees? -/
structure IsNode (es : Entries) : Prop where
  distinct : Entries.Distinct es
  isName : ∀ e ∈ es, e.1.IsName
  natural : Natural es
  tree : ∀ e ∈ es, Tree e.2

theorem Root.isNode {es : Entries} (h : Root es) : IsNode es :=
  ⟨h.distinct, h.isName, h.natural, fun _ he => h.tree he⟩

theorem isNode_of_branches {es : Entries} (hd : Entries.Distinct es) (hb : Branches es) :
    IsNode es := by
  rw [branches_iff] at hb
  exact ⟨hd, fun e he => (hb e he).1.isName, natural_of_isKey fun e he => (hb e he).1,
    fun e he => (hb e he).2⟩

namespace IsNode

variable {es : Entries}

theorem child (h : IsNode es) (k : Value) : IsNode (child es k) := by
  obtain ⟨hd, hb⟩ := tree_child h.tree k
  exact isNode_of_branches hd hb

/-- Under a key of a node stands a text, or a map that is a node again. -/
theorem under?_cases (h : IsNode es) {k w : Value} (hw : under? (.map es) k = some w) :
    (∃ t, w = .text t) ∨ ∃ fs, w = .map fs ∧ Params.child es k = fs ∧ IsNode fs := by
  have hk := isName_of_under? hw
  rw [under?_map hk] at hw
  obtain ⟨l, hl, -⟩ := Entries.mem_of_get?_eq_some hw
  have htree := h.tree _ hl
  cases w with
  | text t => exact .inl ⟨t, rfl⟩
  | map fs =>
    refine .inr ⟨fs, rfl, ?_, isNode_of_branches htree.2.1 htree.2.2⟩
    rw [Params.child, hw]
  | _ => exact absurd htree id

/-- What the map below a key holds is what stands there holds, where a text holds nothing. -/
theorem under?_child (h : IsNode es) {k : Value} (hk : k.IsName) (l : Value) :
    under? ((under? (.map es) k).getD .null) l = under? (.map (Params.child es k)) l := by
  have hempty : under? (.map []) l = none := by cases l <;> rfl
  cases hw : under? (.map es) k with
  | none =>
    rw [under?_map hk] at hw
    rw [Params.child, hw]
    exact hempty.symm
  | some w =>
    rcases h.under?_cases hw with ⟨t, rfl⟩ | ⟨fs, rfl, hfs, -⟩
    · rw [under?_map hk] at hw
      rw [Params.child, hw]
      exact hempty.symm
    · rw [hfs]
      rfl

theorem isSome_under?_int (h : IsNode es) (i : Int) :
    (under? (.map es) (.int i)).isSome = true ↔ i ∈ es.keys.filterMap index? := by
  rw [Option.isSome_iff_exists, under?, Entries.exists_get?_iff h.isName (Value.isName_int i),
    List.mem_filterMap]
  constructor
  · exact fun hi => ⟨.int i, hi, rfl⟩
  · rintro ⟨k, hk, hi⟩
    obtain ⟨e, he, rfl⟩ := List.mem_map.1 hk
    rcases h.isName e he with ⟨s, hs⟩ | ⟨n, hn⟩
    · rw [hs] at hi
      cases hi
    · rw [hn] at hi hk
      rwa [← Option.some.inj hi]

theorem isNext_nextIndex (h : IsNode es) : IsNext (.map es) (nextIndex es) := by
  have hmem := h.isSome_under?_int
  have hnonneg : ∀ i ∈ es.keys.filterMap index?, 0 ≤ i := by
    intro i hi
    obtain ⟨k, hk, hki⟩ := List.mem_filterMap.1 hi
    obtain ⟨e, he, rfl⟩ := List.mem_map.1 hk
    exact h.natural e he i hki
  unfold nextIndex
  split
  · next hnil =>
    simp only [hnil, List.not_mem_nil, iff_false] at hmem
    exact ⟨Int.le_refl 0, fun i hi => absurd hi (hmem i), .inl rfl⟩
  · next n ns hns =>
    have hmax : (n :: ns).max? = some (ns.foldl max n) := List.max?_cons'
    obtain ⟨hgreatest, hle⟩ := List.max?_eq_some_iff.1 hmax
    rw [← hns] at hgreatest hle
    refine ⟨by have := hnonneg _ hgreatest; omega, fun i hi => ?_, .inr ?_⟩
    · have := hle i ((hmem i).1 hi)
      omega
    · rw [Int.add_sub_cancel]
      exact (hmem _).2 hgreatest

theorem standsFor_of_segmentKey (h : IsNode es) {s : String} {k : Value}
    (hk : segmentKey es s = .ok k) : StandsFor (.map es) s k := by
  unfold segmentKey at hk
  split at hk
  · next hempty =>
    obtain rfl := Except.ok.inj hk
    obtain rfl : s = "" := by simpa using hempty
    exact .next h.isNext_nextIndex
  next hne =>
  split at hk
  · next hdigits =>
    split at hk
    · next n hread =>
      obtain rfl := Except.ok.inj hk
      exact .number (by simpa using hne) (List.all_eq_true.1 hdigits) hread
    · cases hk
  · next hdigits =>
    obtain rfl := Except.ok.inj hk
    exact .word (by simpa using hdigits)

/-- **What segments put is put where they lead.** -/
theorem exists_leads (h : IsNode es) {s : String} {segments : List String} {v : Value}
    {result : Entries} (hput : put es s segments v = .ok result) :
    ∃ k ks, Leads (.map es) (s :: segments) (k :: ks) ∧ result = place es k ks v := by
  induction segments generalizing es s result with
  | nil =>
    obtain ⟨k, hk, hput⟩ := bind_eq_ok_iff.1 hput
    exact ⟨k, [], .cons (h.standsFor_of_segmentKey hk) .nil, (Except.ok.inj hput).symm⟩
  | cons next rest ih =>
    obtain ⟨k, hk, hput⟩ := bind_eq_ok_iff.1 hput
    obtain ⟨inner, hinner, hput⟩ := bind_eq_ok_iff.1 hput
    obtain ⟨l, ls, hleads, rfl⟩ := ih (h.child k) hinner
    have hstands := h.standsFor_of_segmentKey hk
    exact ⟨k, l :: ls, .cons hstands (hleads.congr (h.under?_child hstands.isName)),
      (Except.ok.inj hput).symm⟩

end IsNode

/-! ## Putting a value at a place -/

/-- What is put at a place is there. -/
theorem valueAt?_place {ks : List Value} {k : Value} (hks : ∀ l ∈ k :: ks, l.IsName) (es : Entries)
    (v : Value) : valueAt? (.map (place es k ks v)) (k :: ks) = some v := by
  have hk := hks k (List.mem_cons_self ..)
  induction ks generalizing es k with
  | nil => rw [valueAt?, under?_map hk, place, Entries.get?_insert_self hk.equal_self]; rfl
  | cons l ls ih =>
    have hls : ∀ m ∈ l :: ls, m.IsName := fun m hm => hks m (List.mem_cons_of_mem _ hm)
    rw [valueAt?, under?_map hk, place, Entries.get?_insert_self hk.equal_self]
    exact ih hls _ (hls l (List.mem_cons_self ..))

theorem ne_nil_of_not_above {ks ls : List Value} (h : ¬ ks <+: ls) : ks ≠ [] := by
  rintro rfl
  exact h List.nil_prefix

/-- **A leaf that is neither on the way to a place nor below it stays as it is.** -/
theorem valueAt?_place_of_apart {es : Entries} (h : IsNode es) {k : Value} {ks : List Value}
    (hks : ∀ l ∈ k :: ks, l.IsName) {ls : List Value} {t : String}
    (hleaf : valueAt? (.map es) ls = some (.text t)) (hway : ¬ ls <+: k :: ks)
    (hbelow : ¬ k :: ks <+: ls) (v : Value) :
    valueAt? (.map (place es k ks v)) ls = some (.text t) := by
  have hk := hks k (List.mem_cons_self ..)
  induction ks generalizing es k ls with
  | nil =>
    obtain ⟨l, ls, rfl⟩ := List.exists_cons_of_ne_nil (ne_nil_of_not_above hway)
    have hne : k ≠ l := by
      rintro rfl
      exact hbelow (List.prefix_append [k] ls)
    obtain ⟨w, hw, hleaf⟩ := Option.bind_eq_some_iff.1 hleaf
    have hl := isName_of_under? hw
    rw [valueAt?, place, under?_map hl, Entries.get?_insert_of_ne h.isName hk hl hne,
      ← under?_map hl, hw]
    exact hleaf
  | cons m ms ih =>
    obtain ⟨l, ls, rfl⟩ := List.exists_cons_of_ne_nil (ne_nil_of_not_above hway)
    obtain ⟨w, hw, hleaf⟩ := Option.bind_eq_some_iff.1 hleaf
    have hl := isName_of_under? hw
    by_cases hne : k = l
    · subst hne
      rw [List.cons_prefix_cons, not_and] at hway hbelow
      rw [valueAt?, place, under?_map hk, Entries.get?_insert_self hk.equal_self]
      have hms : ∀ n ∈ m :: ms, n.IsName := fun n hn => hks n (List.mem_cons_of_mem _ hn)
      have hmap : valueAt? (.map (child es k)) ls = some (.text t) := by
        rcases h.under?_cases hw with ⟨t', rfl⟩ | ⟨fs, rfl, hfs, -⟩
        · -- a text on the way would be the leaf itself
          cases ls with
          | nil => exact absurd List.nil_prefix (hway rfl)
          | cons n ns => cases hleaf
        · rwa [hfs]
      exact ih (h.child k) hms hmap (hway rfl) (hbelow rfl) (hms m (List.mem_cons_self ..))
    · rw [valueAt?, place, under?_map hl, Entries.get?_insert_of_ne h.isName hk hl hne,
        ← under?_map hl, hw]
      exact hleaf

/-! ## Lists -/

theorem under?_asList {es : Entries} (hn : ∀ e ∈ es, e.1.IsName) (hd : Entries.Distinct es)
    (k : Value) : under? (asList es) k = under? (.map es) k := by
  rcases asList_cases es with h | ⟨-, -, vs, h, hlen, hget⟩
  · rw [h]
  obtain ⟨m, -, hkeys⟩ := (asList_eq_list_iff hn hd).1 ⟨vs, h⟩
  have hm : m ≤ vs.length := by
    have hsub : counted m ⊆ es.keys := fun l hl => (hkeys l).2 (mem_counted.1 hl)
    have := ((nodup_counted m).subperm hsub).length_le
    simpa [counted, Entries.keys, hlen] using this
  have hnone : ∀ l : Value, l.IsName → (∀ i < m, l ≠ .int (i : Nat)) → es.get? l = none := by
    intro l hl hne
    refine Option.eq_none_iff_forall_ne_some.2 fun v hv => ?_
    obtain ⟨i, hi, rfl⟩ := (hkeys l).1 ((Entries.exists_get?_iff hn hl).1 ⟨v, hv⟩)
    exact hne i hi rfl
  rw [h]
  cases k with
  | text s => exact (hnone _ (Value.isName_text s) fun i _ => by simp).symm
  | int n =>
    cases n with
    | ofNat i =>
      rw [under?, under?]
      by_cases hi : i < vs.length
      · rw [List.getElem?_eq_getElem hi]
        exact (hget i hi).symm
      · rw [List.getElem?_eq_none (by omega)]
        refine (hnone _ (Value.isName_int _) fun j hj he => ?_).symm
        have := Int.ofNat.inj (Value.int.inj he)
        omega
    | negSucc i =>
      refine (hnone _ (Value.isName_int _) fun j _ he => ?_).symm
      cases Value.int.inj he
  | _ => rfl

theorem under?_listified {es : Entries} (h : IsNode es) (k : Value) :
    under? (listified (.map es)) k = (under? (.map es) k).map listified := by
  have hn : ∀ e ∈ listifiedEntries es, e.1.IsName := by
    intro e he
    obtain ⟨v, hv, -⟩ := mem_listifiedEntries.1 he
    exact h.isName (e.1, v) hv
  rw [listified, under?_asList hn (distinct_listifiedEntries h.distinct)]
  cases k with
  | text s => exact get?_listifiedEntries es _
  | int n => exact get?_listifiedEntries es _
  | _ => rfl

/-- **Lists hold what the maps held that they come from.** -/
theorem valueAt?_listified {es : Entries} (h : IsNode es) (ks : List Value) :
    valueAt? (listified (.map es)) ks = (valueAt? (.map es) ks).map listified := by
  induction ks generalizing es with
  | nil => rfl
  | cons k ks ih =>
    rw [valueAt?, valueAt?, under?_listified h]
    cases hw : under? (.map es) k with
    | none => rfl
    | some w =>
      rcases h.under?_cases hw with ⟨t, rfl⟩ | ⟨fs, rfl, -, hfs⟩
      · cases ks with
        | nil => rfl
        | cons l ls => rfl
      · exact ih hfs

theorem listified_eq_text_iff {v : Value} {t : String} : listified v = .text t ↔ v = .text t := by
  cases v with
  | map es =>
    rw [listified]
    rcases asList_cases (listifiedEntries es) with h | ⟨-, -, vs, h, -⟩ <;> simp [h]
  | _ => rfl

/-- A leaf is found in lists where it was in maps. -/
theorem valueAt?_listified_eq_text {es : Entries} (h : IsNode es) {ks : List Value} {t : String} :
    valueAt? (listified (.map es)) ks = some (.text t) ↔
      valueAt? (.map es) ks = some (.text t) := by
  rw [valueAt?_listified h, Option.map_eq_some_iff]
  simp only [listified_eq_text_iff, exists_eq_right]

/-- A path leads through lists as it does through the maps that they come from. -/
theorem Leads.listified {es : Entries} (h : IsNode es) {segments : List String} {ks : List Value}
    (hks : Leads (.map es) segments ks) : Leads (listified (.map es)) segments ks := by
  induction segments generalizing es ks with
  | nil =>
    cases hks
    exact .nil
  | cons s segments ih =>
    obtain _ | ⟨hk, hks⟩ := hks
    rename_i k ks
    refine .cons (hk.congr fun l => by rw [under?_listified h, Option.isSome_map]) ?_
    rw [under?_listified h]
    cases hw : under? (.map es) k with
    | none => rwa [hw] at hks
    | some w =>
      rw [hw] at hks
      rcases h.under?_cases hw with ⟨t, rfl⟩ | ⟨fs, rfl, -, hfs⟩
      · exact hks
      · exact ih hfs hks

/-! ## One more pair -/

theorem eq_listified_of_complete {es : Entries} {v : Value} (h : complete es = .ok v) :
    v = listified (.map es) := by
  unfold complete at h
  split at h
  · cases h
  · exact (Except.ok.inj h).symm

/-- **A pair writes one place and keeps the others.** Its text is found at the path that its name
writes in what was there before. A leaf from before that is neither on the way to that place nor below
it is still found where it was. If the name ends in an empty segment, the only leaf that is lost is
one on the way. -/
theorem ofPairs_concat {ps : List (String × String)} {name v head : String}
    {segments : List String} (hname : Spells name head segments "") {after : Value}
    (h : ofPairs (textPairs (ps ++ [(name, v)])) = .ok after) :
    ∃ before path, tree (textPairs ps) = .ok before ∧ Leads (.map before) (head :: segments) path ∧
      valueAt? after path = some (.text v) ∧
      ∀ old, ofPairs (textPairs ps) = .ok old → Leads old (head :: segments) path ∧
        (∀ place t, valueAt? old place = some (.text t) → ¬ place <+: path → ¬ path <+: place →
          valueAt? after place = some (.text t)) ∧
        (segments.getLast? = some "" → ∀ place t, valueAt? old place = some (.text t) →
          ¬ place <+: path → valueAt? after place = some (.text t)) := by
  obtain ⟨root, htree, hroot⟩ := bind_eq_ok_iff.1 h
  rw [tree_concat] at htree
  obtain ⟨before, hbefore, hput⟩ := bind_eq_ok_iff.1 htree
  have hnode := (root_tree hbefore).isNode
  have hnew := (root_tree ((tree_concat ps _).trans htree)).isNode
  rw [putNamed, path?_eq_some_iff.2 (.inl hname)] at hput
  obtain ⟨k, ks, hleads, rfl⟩ := hnode.exists_leads hput
  have hnames := hleads.isName
  obtain rfl := eq_listified_of_complete hroot
  refine ⟨before, k :: ks, hbefore, hleads, ?_, fun old hold => ?_⟩
  · exact (valueAt?_listified_eq_text hnew).2 (valueAt?_place hnames before (.text v))
  rw [ofPairs, hbefore, ok_bind] at hold
  obtain rfl := eq_listified_of_complete hold
  have hkept : ∀ place t, valueAt? (listified (.map before)) place = some (.text t) →
      ¬ place <+: k :: ks → ¬ k :: ks <+: place →
      valueAt? (listified (.map (Params.place before k ks (.text v)))) place = some (.text t) :=
    fun place t hleaf hway hbelow => (valueAt?_listified_eq_text hnew).2
      (valueAt?_place_of_apart hnode hnames ((valueAt?_listified_eq_text hnode).1 hleaf) hway hbelow _)
  refine ⟨hleads.listified hnode, hkept, fun hlast place t hleaf hway => ?_⟩
  refine hkept place t hleaf hway fun hbelow => ?_
  -- there was nothing at the place, and so nothing below it
  obtain ⟨rest, rfl⟩ := hbelow
  have hfree := (hleads.listified hnode).free (by rw [List.getLast?_cons, hlast]; rfl)
  rw [valueAt?_append, hfree] at hleaf
  cases hleaf

/-- An empty segment counts on beside a number and a list, and both stay. -/
theorem ofPairs_concat_counts :
    Spells "a[]" "a" [""] "" ∧ ∃ old after path,
      ofPairs (textPairs [("a[7]", "x"), ("a[b][]", "y")]) = .ok old ∧
      ofPairs (textPairs ([("a[7]", "x"), ("a[b][]", "y")] ++ [("a[]", "z")])) = .ok after ∧
      Leads old ["a", ""] path ∧ valueAt? after path = some (.text "z") ∧
      valueAt? after [.text "a", .text "b", .int 0] = some (.text "y") := by
  have hname : Spells "a[]" "a" [""] "" := ⟨by simp, by simp [isBracket], rfl⟩
  have hold : ofPairs (textPairs [("a[7]", "x"), ("a[b][]", "y")]) =
      .ok (.map [(.text "a", .map [(.int 7, .text "x"), (.text "b", .list [.text "y"])])]) := by
    with_unfolding_all rfl
  have hafter : ofPairs (textPairs ([("a[7]", "x"), ("a[b][]", "y")] ++ [("a[]", "z")])) =
      .ok (.map [(.text "a", .map [(.int 7, .text "x"), (.text "b", .list [.text "y"]),
        (.int 8, .text "z")])]) := by
    with_unfolding_all rfl
  obtain ⟨before, path, -, -, hnew, hkept⟩ := ofPairs_concat hname hafter
  obtain ⟨hleads, -, hcounted⟩ := hkept _ hold
  have hlen : path.length = 2 := by
    obtain _ | ⟨-, hrest⟩ := hleads
    obtain _ | ⟨-, hrest⟩ := hrest
    cases hrest
    rfl
  refine ⟨hname, _, _, path, hold, hafter, hleads, hnew, hcounted rfl _ "y" ?_ fun hway => ?_⟩
  · with_unfolding_all rfl
  · have := hway.length_le
    simp [hlen] at this

end Listing.Params
