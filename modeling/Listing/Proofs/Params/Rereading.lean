import Listing.Proofs.Params.Link

/-!
# Reading back what is written

`Params.reread` writes parameters as pairs of names and texts and reads the pairs again. Canonical
parameters come back as they are, with their keys in the same order, wherever their keys and
positions have texts and they are no deeper than parameters may be. What pairs are read as is
canonical and shallow enough, so that it comes back exactly if it can be written:
`Params.reread_eq_ok_iff`. It cannot always be written, since an empty segment counts one beyond the
greatest number with a text (`Params.ofPairs_after`).
-/

namespace Listing.Params

/-- Write parameters as pairs and read the pairs again. -/
def reread (es : Entries) : Except Error Value := do
  ofPairs (textPairs (← flattenUnder? .null es))

theorem reread_of_writable {es : Entries} (hw : entriesWritable es = true) :
    reread es = ofPairs (textPairs (flatten es)) := by
  simp [reread, flattenUnder?, Value.truthy, hw, flatten]

theorem reread_unwritable {es : Entries} (hw : entriesWritable es = false) :
    reread es = .error .badValue := by
  simp [reread, flattenUnder?, Value.truthy, hw]

/-- **Canonical parameters come back**, if they can be written and are no deeper than parameters
may be. -/
theorem reread_canonical {es : Entries} (h : CanonicalRoot es) :
    reread es = .ok (.map es) ↔
      entriesWritable es = true ∧ entriesDepth (unlistedEntries es) < depthLimit := by
  cases hw : entriesWritable es with
  | false => simp [reread_unwritable hw]
  | true =>
    rw [reread_of_writable hw, ofPairs_flatten_eq h hw, complete_unlisted h]
    split <;> simp [*]

section After

variable {n : Nat}

theorem int_equal_succ (n : Nat) : (Value.int n).equal (.int (n + 1)) = false := by
  rw [Value.equal_int]
  exact decide_eq_false (by omega)

/-- An empty segment places its text one beyond the only number. -/
theorem putNamed_after (n : Nat) :
    putNamed [(.text "a", .map [(.int n, .text "x")])] "a[]" (.text "y") =
      .ok [(.text "a", .map [(.int n, .text "x"), (.int (n + 1), .text "y")])] := by
  have hself : (Value.text "a").equal (.text "a") = true := (Value.isName_text "a").equal_self
  have hpath : path? "a[]" = some ("a", [""]) := by decide
  have hword : segmentKey [(.text "a", .map [(.int n, .text "x")])] "a" = .ok (.text "a") := rfl
  have hnext : segmentKey [(.int n, .text "x")] "" = .ok (.int (n + 1)) := rfl
  have hchild : child [(.text "a", .map [(.int n, .text "x")])] (.text "a") =
      [(.int n, .text "x")] := by
    rw [child, Entries.get?_cons, hself]
    rfl
  have hinsert : Entries.insert [(.int n, .text "x")] (.int (n + 1)) (.text "y") =
      [(.int n, .text "x"), (.int (n + 1), .text "y")] := by
    rw [Entries.insert, int_equal_succ]
    rfl
  simp only [putNamed, hpath]
  rw [put, hword, ok_bind, hchild, put, hnext, ok_bind, hinsert, pure_eq_ok, ok_bind,
    Entries.insert, hself]
  rfl

/-- Two numbers are no list, if the first one is not zero. -/
theorem asList_after (hpos : 0 < n) :
    asList [(.int n, .text "x"), (.int (n + 1), .text "y")] =
      .map [(.int n, .text "x"), (.int (n + 1), .text "y")] := by
  refine (asList_eq_map_iff ?_ ?_).2 ?_
  · simp [Value.isName_int]
  · simpa [Entries.Distinct] using int_equal_succ n
  · rintro ⟨m, hm, hkeys⟩
    have := (hkeys (.int 0)).2 ⟨0, hm, rfl⟩
    simp [Entries.keys] at this
    omega

/-- **An empty segment counts one beyond a number**, whether the next number has a text or not. -/
theorem ofPairs_after (hpos : 0 < n) (hn : n < integerLimit) :
    ofPairs (textPairs [(nameOf (.text "a") [.int n], "x"), ("a[]", "y")]) =
      .ok (.map [(.text "a", .map [(.int n, .text "x"), (.int (n + 1), .text "y")])]) := by
  let two : Entries := [(.int n, .text "x"), (.int (n + 1), .text "y")]
  have hfirst : putNamed [] (nameOf (.text "a") [.int n]) (.text "x") =
      .ok [(.text "a", .map [(.int n, .text "x")])] :=
    putNamed_nameOf (.inl ⟨isKey_text (by decide), by simpa using isKey_natCast n⟩)
      (by simpa using ⟨rfl, hasText_natCast.2 hn⟩) [] _
  have htree : tree (textPairs [(nameOf (.text "a") [.int n], "x"), ("a[]", "y")]) =
      .ok [(.text "a", .map two)] := by
    rw [tree, textPairs, List.map_cons, List.foldlM_cons, hfirst, ok_bind]
    simp only [List.map_cons, List.map_nil, List.foldlM_cons, putNamed_after, ok_bind,
      List.foldlM_nil]
    rfl
  have hdepth : ¬ depthLimit < depth (.map [(.text "a", .map two)]) := by
    simp [depth, entriesDepth, two, depthLimit]
  have hinner : listified (.map two) = .map two := by
    rw [listified, show listifiedEntries two = two from rfl, asList_after hpos]
  rw [ofPairs, htree, ok_bind, complete, if_neg hdepth, listified, listifiedEntries, hinner]
  rfl

end After

/-- Counted beyond the greatest number with a text they cannot be written. -/
theorem unwritable_after {n : Nat} (hn : integerLimit ≤ n + 1) :
    entriesWritable [(.text "a", .map [(.int n, .text "x"), (.int (n + 1), .text "y")])] =
      false := by
  have hlong : (Value.int (n + 1)).hasText = false :=
    Bool.eq_false_iff.2 fun h => Nat.not_lt.2 hn (hasText_natCast.1 h)
  simp [entriesWritable, writable, hlong]

/-- **Parameters come back exactly if they can be written.** Canonical parameters do, unless they
are nested too deeply to be read; what pairs are read as is canonical, and where it cannot be
written the writing fails. -/
theorem reread_eq_ok_iff (es : Entries) :
    (CanonicalRoot es → (reread es = .ok (.map es) ↔
      entriesWritable es = true ∧ entriesDepth (unlistedEntries es) < depthLimit)) ∧
    ∀ ps, ofPairs (textPairs ps) = .ok (.map es) → CanonicalRoot es ∧
      (reread es = .ok (.map es) ↔ entriesWritable es = true) ∧
      (entriesWritable es = false → reread es = .error .badValue) := by
  refine ⟨reread_canonical, fun ps h => ?_⟩
  have hread := isRead_of_ofPairs h
  refine ⟨hread.canonical, ?_, reread_unwritable⟩
  rw [reread_canonical hread.canonical, and_iff_left hread.shallow]

/-- Parameters with a list, with a number among words and with a name that writes no path come back;
those that an empty segment after the greatest number makes do not. -/
theorem reread_fields_and_overflow :
    reread [(.text "fields", .map [(.int 7, .text "id"), (.text "of", .list [.text "a", .text ""])]),
        (.text "sort]", .text "-id")] =
      .ok (.map [(.text "fields", .map [(.int 7, .text "id"), (.text "of", .list [.text "a", .text ""])]),
        (.text "sort]", .text "-id")]) ∧
    reread [(.text "a", .map [(.int (integerLimit - 1 : Nat), .text "x"),
        (.int ((integerLimit - 1 : Nat) + 1), .text "y")])] = .error .badValue := by
  constructor
  · have hof : Canonical (.list [.text "a", .text ""]) := ⟨by simp, trivial, trivial, trivial⟩
    have hfields : Canonical
        (.map [(.int 7, .text "id"), (.text "of", .list [.text "a", .text ""])]) :=
      ⟨by simp, by unfold Entries.Distinct; decide +kernel, rfl, isKey_natCast 7, trivial,
        isKey_text (by decide), hof, trivial⟩
    refine ((reread_eq_ok_iff _).1 ⟨by unfold Entries.Distinct; decide +kernel, ?_, rfl⟩).2
      ⟨by decide +kernel, by decide⟩
    simp only [List.forall_mem_cons]
    exact ⟨.inl ⟨isKey_text (by decide), hfields⟩, .inr ⟨"sort]", "-id", rfl, by decide⟩, by simp⟩
  · have hpos : 0 < integerLimit - 1 := by decide +kernel
    have hn : integerLimit - 1 < integerLimit := by decide +kernel
    exact ((reread_eq_ok_iff _).2 _ (ofPairs_after hpos hn)).2.2 (unwritable_after (by omega))

end Listing.Params
