import Listing.Proofs.Params.Link

/-!
# The grammar of names

A name writes a path if it is a text without brackets followed by segments in brackets
(`Params.Spells`), and then the path is that text and those segments. One line break may follow the
segments, and is lost: `Params.path?_eq_some_iff`.

A single pair with a name without digits is read as maps and lists of one entry each along the path
of the name, and a name that writes no path is a key itself (`Params.ofPairs_single`).
-/

namespace Listing.Params

/-! ## Taking names apart -/

/-- Is the name a text without brackets, followed by segments without brackets that stand in
brackets, and by `after`? -/
structure Spells (name head : String) (segments : List String) (after : String) : Prop where
  nonempty : head.toList ≠ []
  unbracketed : ∀ s ∈ head :: segments, ∀ c ∈ s.toList, isBracket c = false
  eq : name = nameOf (.text head) (segments.map .text) ++ after

/-- Is the name a path, or one with a line break after its last segment? -/
def Writes (name head : String) (segments : List String) : Prop :=
  Spells name head segments "" ∨ segments ≠ [] ∧ Spells name head segments "\n"

/-- The part of a segment that has been read, with the bracket that opens it. -/
def opened : Option (List Char) → List Char
  | none => []
  | some acc => '[' :: acc.reverse

/-- Segments are read from their brackets, to the end or to a last line break. -/
theorem exists_of_segmentsFrom {cs : List Char} {state : Option (List Char)}
    {segments : List (List Char)} (h : segmentsFrom state cs = some segments) :
    ∃ after, (after = [] ∨ after = ['\n']) ∧
      opened state ++ cs = groups (segments.map fun s => .text (String.ofList s)) ++ after := by
  induction cs generalizing state segments with
  | nil =>
    cases state with
    | none =>
      obtain rfl := Option.some.inj h
      exact ⟨[], .inl rfl, rfl⟩
    | some acc => cases h
  | cons c cs ih =>
    cases state with
    | none =>
      rw [segmentsFrom] at h
      split at h
      · next hc =>
        obtain ⟨after, hafter, he⟩ := ih h
        exact ⟨after, hafter, by rw [← he, hc]; rfl⟩
      · split at h
        · next hend =>
          obtain rfl := Option.some.inj h
          simp only [Bool.and_eq_true, decide_eq_true_eq, List.isEmpty_iff] at hend
          exact ⟨['\n'], .inr rfl, by rw [hend.1, hend.2]; rfl⟩
        · cases h
    | some acc =>
      rw [segmentsFrom] at h
      split at h
      · next hc =>
        obtain ⟨rest, hrest, rfl⟩ := Option.map_eq_some_iff.1 h
        obtain ⟨after, hafter, he⟩ := ih hrest
        refine ⟨after, hafter, ?_⟩
        rw [opened, List.nil_append] at he
        simp [opened, groups, toText_text, hc, ← he]
      · split at h
        · cases h
        · obtain ⟨after, hafter, he⟩ := ih h
          exact ⟨after, hafter, by rw [← he]; simp [opened]⟩

theorem toText_comp_text (segments : List String) :
    (segments.map Value.text).map Value.toText = segments := by
  simp [Function.comp_def, toText_text]

theorem Spells.path?_eq {name head : String} {segments : List String} {after : String}
    (h : Spells name head segments after) (hafter : segments = [] → after = "") :
    path? name = (segmentsFrom none after.toList).map fun rest =>
      (head, segments ++ rest.map String.ofList) := by
  have hbrackets : ∀ l ∈ Value.text head :: segments.map .text, ∀ c ∈ l.toText.toList,
      isBracket c = false := by
    rw [← List.map_cons]
    intro l hl
    obtain ⟨s, hs, rfl⟩ := List.mem_map.1 hl
    exact h.unbracketed s hs
  have hne : (Value.text head).toText.toList ≠ [] := h.nonempty
  rw [h.eq, path?_nameOf_append hne hbrackets _ fun he => hafter (List.map_eq_nil_iff.1 he),
    toText_comp_text]
  rfl

/-- **A name writes a path exactly if it is one**, but for a line break after its last segment. -/
theorem path?_eq_some_iff {name head : String} {segments : List String} :
    path? name = some (head, segments) ↔ Writes name head segments := by
  constructor
  · intro h
    have hunbracketed := unbracketed_of_path? h
    unfold path? at h
    dsimp only at h
    split at h
    · cases h
    next hne =>
    obtain ⟨segs, hsegs, he⟩ := Option.map_eq_some_iff.1 h
    obtain ⟨rfl, rfl⟩ := Prod.mk.inj he
    obtain ⟨after, hafter, hrest⟩ := exists_of_segmentsFrom hsegs
    have hspells : Spells name (String.ofList (name.toList.takeWhile fun c => !isBracket c))
        (segs.map String.ofList) (String.ofList after) := by
      refine ⟨by simpa using hne, hunbracketed, String.toList_injective ?_⟩
      rw [opened, List.nil_append] at hrest
      rw [String.toList_append, nameOf, extended_toList, List.map_map, String.toList_ofList,
        List.append_assoc]
      exact (List.takeWhile_append_dropWhile ..).symm.trans
        (by rw [hrest, toText_text, String.toList_ofList]; rfl)
    rcases hafter with rfl | rfl
    · exact .inl hspells
    · refine .inr ⟨?_, hspells⟩
      -- without segments the line break would be a part of the text in front
      intro hnil
      obtain rfl := List.map_eq_nil_iff.1 hnil
      have hhead : (name.toList.dropWhile fun c => !isBracket c).head? = some '\n' := by
        rw [opened, List.nil_append] at hrest
        rw [hrest]
        rfl
      have := List.head?_dropWhile_not (fun c => !isBracket c) name.toList
      rw [hhead] at this
      exact absurd this (by decide)
  · rintro (h | ⟨hne, h⟩)
    · rw [h.path?_eq fun _ => rfl]
      simp [segmentsFrom]
    · rw [h.path?_eq fun he => absurd he hne]
      simp [segmentsFrom]

/-! ## One pair -/

/-- The key that a segment without digits stands for where there are no keys yet. -/
def firstKey (s : String) : Value := if s.toList.isEmpty then .int 0 else .text s

/-- The maps along segments without digits that lead to a text. -/
def chain (v : String) : List String → Value
  | [] => .text v
  | s :: segments => .map [(firstKey s, chain v segments)]

/-- The maps and lists along segments without digits that lead to a text: a list of one item at an
empty segment, a map of one entry at any other. -/
def nested (v : String) : List String → Value
  | [] => .text v
  | s :: segments =>
    if s.toList.isEmpty then .list [nested v segments] else .map [(.text s, nested v segments)]

theorem segmentKey_nil {s : String} (hs : ∀ c ∈ s.toList, Text.isDigit c = false) :
    segmentKey [] s = .ok (firstKey s) := by
  unfold segmentKey firstKey
  split
  · rfl
  · next hne =>
    obtain ⟨c, cs, hcs⟩ := List.exists_cons_of_ne_nil fun he => hne (List.isEmpty_iff.2 he)
    have hc := hs c (by rw [hcs]; exact List.mem_cons_self ..)
    have hdigits : s.toList.all Text.isDigit = false := by
      rw [hcs, List.all_cons, hc, Bool.false_and]
    rw [hdigits, if_neg Bool.false_ne_true]

theorem put_nil {s : String} {segments : List String}
    (h : ∀ t ∈ s :: segments, ∀ c ∈ t.toList, Text.isDigit c = false) (v : String) :
    put [] s segments (.text v) = .ok [(firstKey s, chain v segments)] := by
  induction segments generalizing s with
  | nil => rw [put, segmentKey_nil (h s (List.mem_cons_self ..))]; rfl
  | cons next rest ih =>
    have hchild : child [] (firstKey s) = [] := rfl
    rw [put, segmentKey_nil (h s (List.mem_cons_self ..)), ok_bind, hchild,
      ih fun t ht => h t (List.mem_cons_of_mem _ ht)]
    rfl

theorem listified_chain (v : String) (segments : List String) :
    listified (chain v segments) = nested v segments := by
  induction segments with
  | nil => rfl
  | cons s segments ih =>
    rw [chain, listified, listifiedEntries, ih, nested, firstKey]
    cases s.toList.isEmpty with
    | true => exact asList_indexed (List.cons_ne_nil (nested v segments) [])
    | false => rfl

theorem depth_chain (v : String) (segments : List String) :
    depth (chain v segments) = segments.length := by
  induction segments with
  | nil => rfl
  | cons s segments ih => simp [chain, depth, entriesDepth, ih]

theorem mem_groups {segments : List String} {s : String} (hs : s ∈ segments) {c : Char}
    (hc : c ∈ s.toList) : c ∈ groups (segments.map .text) := by
  induction segments with
  | nil => cases hs
  | cons t segments ih =>
    rcases List.mem_cons.1 hs with rfl | hs
    · simp [groups, toText_text, hc]
    · simp [groups, ih hs]

theorem Writes.nonempty {name head : String} {segments : List String}
    (h : Writes name head segments) : head.toList ≠ [] := by
  rcases h with h | ⟨-, h⟩
  · exact h.nonempty
  · exact h.nonempty

theorem mem_of_writes {name head : String} {segments : List String} (h : Writes name head segments)
    {s : String} (hs : s ∈ head :: segments) {c : Char} (hc : c ∈ s.toList) : c ∈ name.toList := by
  obtain ⟨after, heq⟩ : ∃ after, name = nameOf (.text head) (segments.map .text) ++ after := by
    rcases h with h | ⟨-, h⟩
    · exact ⟨_, h.eq⟩
    · exact ⟨_, h.eq⟩
  rw [heq, String.toList_append, nameOf, extended_toList]
  refine List.mem_append_left _ ?_
  rcases List.mem_cons.1 hs with rfl | hs
  · exact List.mem_append_left _ hc
  · exact List.mem_append_right _ (mem_groups hs hc)

/-- **A name without digits is read by one grammar.** It writes the path that it is, where a line
break after the last segment is lost, and a text is put there in maps and lists of one entry each, as
long as they are no deeper than parameters may be. A name that writes no path is a key itself. -/
theorem ofPairs_single {name : String} (hname : ∀ c ∈ name.toList, Text.isDigit c = false)
    (v : String) :
    (∀ head segments, path? name = some (head, segments) ↔ Writes name head segments) ∧
    (∀ head segments, Writes name head segments → ofPairs (textPairs [(name, v)]) =
      if segments.length < depthLimit then .ok (.map [(.text head, nested v segments)])
      else .error .tooDeep) ∧
    ((¬ ∃ head segments, Writes name head segments) →
      ofPairs (textPairs [(name, v)]) = .ok (.map [(.text name, .text v)])) := by
  have hof : ofPairs (textPairs [(name, v)]) = (putNamed [] name (.text v) >>= complete) := by
    simp [ofPairs, tree, textPairs, -pure_eq_ok]
  refine ⟨fun _ _ => path?_eq_some_iff, ?path, ?key⟩
  case path =>
    intro head segments h
    have hdigits : ∀ s ∈ head :: segments, ∀ c ∈ s.toList, Text.isDigit c = false :=
      fun s hs c hc => hname c (mem_of_writes h hs hc)
    have hhead : firstKey head = .text head := by
      rw [firstKey, List.isEmpty_eq_false_iff.2 h.nonempty, if_neg Bool.false_ne_true]
    have hdepth : depth (.map [(.text head, chain v segments)]) = segments.length + 1 := by
      simp [depth, entriesDepth, depth_chain]
    rw [hof, putNamed, path?_eq_some_iff.2 h]
    simp only [put_nil hdigits, hhead, ok_bind, complete, hdepth]
    by_cases hlen : segments.length < depthLimit
    · rw [if_neg (by omega), if_pos hlen, listified, listifiedEntries, listified_chain]
      rfl
    · rw [if_pos (by omega), if_neg hlen]
  case key =>
    intro h
    have hnone : path? name = none := by
      refine Option.eq_none_iff_forall_ne_some.2 fun path hpath => h ⟨path.1, path.2, ?_⟩
      exact path?_eq_some_iff.1 hpath
    rw [hof, putNamed, hnone]
    rfl

/-- A line break after the segments is lost, and a bracket that stays open makes the name a key. -/
theorem ofPairs_single_fields :
    (∀ c ∈ "fields[of][]\n".toList, Text.isDigit c = false) ∧
    (∀ c ∈ "fields[of".toList, Text.isDigit c = false) ∧
    ofPairs (textPairs [("fields[of][]\n", "id")]) =
      .ok (.map [(.text "fields", .map [(.text "of", .list [.text "id"])])]) ∧
    ofPairs (textPairs [("fields[of", "id")]) = .ok (.map [(.text "fields[of", .text "id")]) := by
  have hfree : ∀ {cs : List Char}, cs.any Text.isDigit = false → ∀ c ∈ cs, Text.isDigit c = false :=
    fun h c hc => Bool.eq_false_iff.2 (List.any_eq_false.1 h c hc)
  have hbroken : ∀ c ∈ "fields[of][]\n".toList, Text.isDigit c = false := hfree (by decide +kernel)
  have hopen : ∀ c ∈ "fields[of".toList, Text.isDigit c = false := hfree (by decide +kernel)
  have hwrites : Writes "fields[of][]\n" "fields" ["of", ""] :=
    .inr ⟨by simp, by simp, by simp [isBracket], rfl⟩
  refine ⟨hbroken, hopen, (ofPairs_single hbroken "id").2.1 _ _ hwrites,
    (ofPairs_single hopen "id").2.2 ?_⟩
  rintro ⟨head, segments, h⟩
  have hpath : path? "fields[of" = none := by decide
  rw [← path?_eq_some_iff, hpath] at h
  cases h

end Listing.Params
