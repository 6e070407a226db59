import Listing.Proofs.Codec.Json

/-!
# How deeply JSON is nested

Reading a value leaves an end of the text. It fails for depth only where the text opens more arrays and
objects than may be open at once, which every reader keeps as it goes on from one part to the next:
`Json.Leaves`. So a text that opens no more than `Json.maxDepth` of them is read or is no JSON, whatever
else it holds (`Json.lt_openings_of_tooDeep`), and one that begins with more is always too deep
(`Json.parse_replicate`).
-/

namespace Listing.Json

/-- Does the character open an array or an object? -/
def isOpening (c : Char) : Bool := c == '[' || c == '\x7b'

/-- The number of characters that open an array or an object. -/
def openings (cs : List Char) : Nat := cs.countP isOpening

/-- Does a reading of `cs` leave an end of it, or fail, and for depth only if more than `depth` arrays
and objects are opened there? -/
inductive Leaves {α : Type} (depth : Nat) (cs : List Char) : Except Error (α × List Char) → Prop
  | rest {a : α} {rest : List Char} (h : rest <:+ cs) : Leaves depth cs (.ok (a, rest))
  | bad : Leaves depth cs (.error .badValue)
  | deep (h : depth < openings cs) : Leaves depth cs (.error .tooDeep)

variable {α β : Type} {depth : Nat} {cs rest : List Char}

theorem openings_le (h : rest <:+ cs) : openings rest ≤ openings cs := h.sublist.countP_le

namespace Leaves

variable {x : Except Error (α × List Char)}

theorem mono (h : Leaves depth rest x) (hrest : rest <:+ cs) : Leaves depth cs x := by
  cases h with
  | rest h => exact .rest (h.trans hrest)
  | bad => exact .bad
  | deep h => exact .deep (Nat.lt_of_lt_of_le h (openings_le hrest))

theorem bind (h : Leaves depth cs x) {f : α × List Char → Except Error (β × List Char)}
    (hf : ∀ a rest, Leaves depth rest (f (a, rest))) : Leaves depth cs (x >>= f) := by
  cases h with
  | rest h => exact (hf _ _).mono h
  | bad => exact .bad
  | deep h => exact .deep h

/-- One more may be open around what an array or an object holds. -/
theorem opened (h : Leaves depth rest x) {c : Char} (hc : isOpening c = true) :
    Leaves (depth + 1) (c :: rest) x := by
  have hcount : openings (c :: rest) = openings rest + 1 := List.countP_cons_of_pos hc
  cases h with
  | rest h => exact .rest (h.trans (List.suffix_cons ..))
  | bad => exact .bad
  | deep h => exact .deep (by omega)

theorem orBad {x : Option (α × List Char)} (h : ∀ a rest, x = some (a, rest) → rest <:+ cs) :
    Leaves depth cs (Json.orBad x) := by
  cases x with
  | none => exact .bad
  | some p => exact .rest (h p.1 p.2 rfl)

end Leaves

/-! ## Texts, words and numbers -/

theorem skipSpace_suffix (cs : List Char) : skipSpace cs <:+ cs := List.dropWhile_suffix _

theorem exists_of_map {x : Option (List Char × List Char)} {f : List Char × List Char → List Char}
    {s : List Char} (h : (x.map fun p => (f p, p.2)) = some (s, rest)) : ∃ t, x = some (t, rest) := by
  obtain ⟨⟨t, rest'⟩, hx, heq⟩ := Option.map_eq_some_iff.1 h
  obtain ⟨-, rfl⟩ := Prod.mk.inj heq
  exact ⟨t, hx⟩

theorem scanText_suffix {half : Option Nat} {s : List Char} (h : scanText half cs = some (s, rest)) :
    rest <:+ cs := by
  -- the end of the text, its closing mark, an escape of a unit, one of a letter, any other character
  fun_induction scanText half cs generalizing s with
  | case1 => cases h
  | case2 =>
    cases h
    exact List.suffix_cons ..
  | case3 => cases h
  | case4 _ a b c d rest' _ _ _ _ _ ih =>
    obtain ⟨t, ht⟩ := exists_of_map h
    exact (ih ht).trans (List.suffix_append ['\\', 'u', a, b, c, d] rest')
  | case5 => cases h
  | case6 _ e rest' _ _ _ ih =>
    obtain ⟨t, ht⟩ := exists_of_map h
    exact (ih ht).trans (List.suffix_append ['\\', e] rest')
  | case7 => cases h
  | case8 _ c rest' _ _ _ _ ih =>
    obtain ⟨t, ht⟩ := exists_of_map h
    exact (ih ht).trans (List.suffix_cons c rest')

theorem scanWhole_suffix {ds : List Char} (h : scanWhole cs = some (ds, rest)) : rest <:+ cs := by
  unfold scanWhole at h
  split at h
  · cases h
    exact List.suffix_cons ..
  · dsimp only at h
    split at h
    · cases h
    · cases h
      exact List.dropWhile_suffix _

theorem scanFraction_suffix (cs : List Char) : (scanFraction cs).2 <:+ cs := by
  unfold scanFraction
  split
  · dsimp only
    split
    · exact List.suffix_rfl
    · exact (List.dropWhile_suffix _).trans (List.suffix_cons ..)
  · exact List.suffix_rfl

theorem scanExponent_suffix (cs : List Char) : (scanExponent cs).2 <:+ cs := by
  unfold scanExponent
  split
  · next e rest =>
    have hdigits : ∀ mark after : List Char, after <:+ rest →
        (if (after.takeWhile Text.isAsciiDigit).isEmpty then ([], e :: rest)
          else (e :: mark ++ after.takeWhile Text.isAsciiDigit,
            after.dropWhile Text.isAsciiDigit)).2 <:+ e :: rest := by
      intro mark after hafter
      split
      · exact List.suffix_rfl
      · exact ((List.dropWhile_suffix _).trans hafter).trans (List.suffix_cons ..)
    split
    · dsimp only
      split
      · exact hdigits ['-'] _ (List.suffix_cons ..)
      · exact hdigits ['+'] _ (List.suffix_cons ..)
      · exact hdigits [] _ List.suffix_rfl
    · exact List.suffix_rfl
  · exact List.suffix_rfl

theorem scanNumber_suffix {v : Value} (h : scanNumber cs = some (v, rest)) : rest <:+ cs := by
  unfold scanNumber at h
  obtain ⟨⟨whole, after⟩, hwhole, h⟩ := Option.bind_eq_some_iff.1 h
  have hmark : after <:+ cs := by
    refine (scanWhole_suffix hwhole).trans ?_
    split
    · exact List.suffix_cons ..
    · exact List.suffix_rfl
  have hafter : (scanExponent (scanFraction after).2).2 <:+ cs :=
    (scanExponent_suffix _).trans ((scanFraction_suffix _).trans hmark)
  dsimp only at h
  split at h
  · obtain ⟨n, -, h⟩ := Option.bind_eq_some_iff.1 h
    cases h
    exact hafter
  · obtain ⟨x, -, h⟩ := Option.bind_eq_some_iff.1 h
    cases h
    exact hafter

theorem scanScalar_suffix {v : Value} (h : scanScalar cs = some (v, rest)) : rest <:+ cs := by
  unfold scanScalar at h
  split at h
  · cases h
    exact List.drop_suffix ..
  · exact scanNumber_suffix h

/-! ## Values -/

/-- An array or an object: nothing up to its end, or what is read there one level further down. -/
theorem Leaves.container {c : Char} (hc : isOpening c = true) {close : Char} {empty : α}
    {read : Nat → List Char → Except Error (β × List Char)}
    (hread : ∀ depth cs, Leaves depth cs (read depth cs)) (result : β → α) :
    Leaves depth (c :: rest) (match depth with
      | 0 => .error .tooDeep
      | depth + 1 => do
        let rest := skipSpace rest
        if rest.head? = some close then return (empty, rest.drop 1)
        else
          let (b, rest) ← read depth rest
          return (result b, rest)) := by
  cases depth with
  | zero => exact .deep (List.countP_pos_iff.2 ⟨c, List.mem_cons_self .., hc⟩)
  | succ depth =>
    refine (Leaves.mono ?_ (skipSpace_suffix rest)).opened hc
    dsimp only
    split
    · exact .rest (List.drop_suffix ..)
    · exact (hread depth _).bind fun _ _ => .rest List.suffix_rfl

mutual

/-- **Reading a value** fails for depth only where too many arrays and objects are open. -/
theorem leaves_parseValue : (fuel depth : Nat) → (cs : List Char) →
    Leaves depth cs (parseValue fuel depth cs)
  | 0, _, _ => .bad
  | fuel + 1, depth, cs => by
    unfold parseValue
    split
    · exact .bad
    · next c rest =>
      split
      · refine Leaves.mono (Leaves.bind (.orBad fun _ _ h => scanText_suffix h) fun _ _ => ?_)
          (List.suffix_cons c rest)
        exact .rest List.suffix_rfl
      split
      -- below an array or an object one more may be open, and the fuel is less
      · next hc =>
        have hopening : isOpening c = true := by rw [hc]; rfl
        exact .container hopening (leaves_parseItems fuel) Value.list
      split
      · next hc =>
        have hopening : isOpening c = true := by rw [hc]; rfl
        exact .container hopening (leaves_parseMembers fuel) (Value.map ∘ Entries.ofPairs)
      · exact .orBad fun _ _ h => scanScalar_suffix h

theorem leaves_parseItems : (fuel depth : Nat) → (cs : List Char) →
    Leaves depth cs (parseItems fuel depth cs)
  | 0, _, _ => .bad
  | fuel + 1, depth, cs => by
    unfold parseItems
    refine (leaves_parseValue fuel depth cs).bind fun v rest => ?_
    refine Leaves.mono ?_ (skipSpace_suffix rest)
    dsimp only
    split
    · next rest' h =>
      rw [h]
      exact .rest (List.suffix_cons ..)
    · next rest' h =>
      rw [h]
      refine Leaves.mono ?_ ((skipSpace_suffix rest').trans (List.suffix_cons ..))
      exact (leaves_parseItems fuel depth _).bind fun _ _ => .rest List.suffix_rfl
    · exact .bad

theorem leaves_parseMembers : (fuel depth : Nat) → (cs : List Char) →
    Leaves depth cs (parseMembers fuel depth cs)
  | 0, _, _ => .bad
  | fuel + 1, depth, cs => by
    unfold parseMembers
    split
    · next rest =>
      refine Leaves.mono (Leaves.bind (.orBad fun _ _ h => scanText_suffix h) fun k rest => ?_)
        (List.suffix_cons '"' rest)
      refine Leaves.mono ?_ (skipSpace_suffix rest)
      dsimp only
      split
      · next rest' h =>
        rw [h]
        refine Leaves.mono ?_ ((skipSpace_suffix rest').trans (List.suffix_cons ..))
        refine (leaves_parseValue fuel depth _).bind fun v rest => ?_
        refine Leaves.mono ?_ (skipSpace_suffix rest)
        dsimp only
        split
        · next rest' h =>
          rw [h]
          exact .rest (List.suffix_cons ..)
        · next rest' h =>
          rw [h]
          refine Leaves.mono ?_ ((skipSpace_suffix rest').trans (List.suffix_cons ..))
          exact (leaves_parseMembers fuel depth _).bind fun _ _ => .rest List.suffix_rfl
        · exact .bad
      · exact .bad
    · exact .bad

end

/-- **A text that is too deep opens more arrays and objects than may be open at once.** -/
theorem lt_openings_of_tooDeep (h : parse cs = .error .tooDeep) : maxDepth < openings cs := by
  unfold parse at h
  have hleaves := leaves_parseValue (2 * cs.length + 2) maxDepth (skipSpace cs)
  generalize parseValue (2 * cs.length + 2) maxDepth (skipSpace cs) = read at h hleaves
  cases hleaves with
  | rest =>
    rw [ok_bind] at h
    dsimp only at h
    split at h <;> cases h
  | bad => cases h
  | deep hdeep => exact Nat.lt_of_lt_of_le hdeep (openings_le (skipSpace_suffix cs))

/-! ## Texts that are too deep -/

theorem parseValue_replicate {k fuel : Nat} (hk : depth < k) (hfuel : 2 * depth + 1 ≤ fuel)
    (rest : List Char) :
    parseValue fuel depth (List.replicate k '[' ++ rest) = .error .tooDeep := by
  induction depth generalizing k fuel with
  | zero =>
    obtain ⟨k, rfl⟩ : ∃ i, k = i + 1 := ⟨k - 1, by omega⟩
    obtain ⟨fuel, rfl⟩ : ∃ n, fuel = n + 1 := ⟨fuel - 1, by omega⟩
    rw [List.replicate_succ, List.cons_append]
    unfold parseValue
    rfl
  | succ depth ih =>
    -- a bracket takes two steps: the value that is an array, and the first of its items
    obtain ⟨k, rfl⟩ : ∃ i, k = i + 2 := ⟨k - 2, by omega⟩
    obtain ⟨fuel, rfl⟩ : ∃ n, fuel = n + 2 := ⟨fuel - 2, by omega⟩
    have hinner : parseValue fuel depth (List.replicate (k + 1) '[' ++ rest) = .error .tooDeep :=
      ih (by omega) (by omega)
    have hspace : skipSpace (List.replicate (k + 1) '[' ++ rest) = List.replicate (k + 1) '[' ++ rest :=
      skipSpace_cons (by decide) _
    have hhead : (List.replicate (k + 1) '[' ++ rest).head? ≠ some ']' := by
      rw [List.replicate_succ, List.cons_append, List.head?_cons]
      decide
    rw [List.replicate_succ, List.cons_append]
    unfold parseValue
    dsimp only
    rw [if_neg (by decide), if_pos rfl, hspace, if_neg hhead]
    unfold parseItems
    rw [hinner]
    rfl

/-- **A text that opens too many arrays at its beginning is too deep.** -/
theorem parse_replicate {k : Nat} (hk : maxDepth < k) (rest : List Char) :
    parse (List.replicate k '[' ++ rest) = .error .tooDeep := by
  have hspace : skipSpace (List.replicate k '[' ++ rest) = List.replicate k '[' ++ rest := by
    obtain ⟨k, rfl⟩ : ∃ i, k = i + 1 := ⟨k - 1, by omega⟩
    exact skipSpace_cons (by decide) _
  have hlength : k ≤ (List.replicate k '[' ++ rest).length := by simp
  unfold parse
  rw [hspace, parseValue_replicate hk (by omega)]
  rfl

end Listing.Json
